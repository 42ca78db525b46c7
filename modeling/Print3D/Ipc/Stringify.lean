import Print3D.Ipc.TypedArgs
import Print3D.Library.Decimal
import Print3D.Library.Effects

/-! The text that a command is logged as. A computation ends early with a value that is returned, or
with `none` where its behaviour is undefined. -/
namespace Print3D
open FixedWidth LengthPrefixed Effects

def quote : UInt8 := 34

def stringifyMaxTextDisplayChars : ℕ := 15

def orUndefined {α : Type} : Option α → Except (Option ℤ) α
  | some a => .ok a
  | none => .error none

/-- The value that a reader has stored; the variable has none where it fails. -/
def argValue {α : Type} : Option (Except ℤ α) → Except (Option ℤ) α
  | some (.ok v) => .ok v
  | _ => .error none

/-- The floor of `log10` is taken to be exact; `abs` is not defined for the least `int`. -/
def numberLength (n : ℤ) : Except (Option ℤ) ℕ :=
  if n = 0 then .ok 1
  else if n = -2 ^ 31 then .error none
  else .ok ((if n < 0 then 1 else 0) + (Nat.log 10 n.natAbs + 1))

/-- The bytes allocated, and the text in them up to its NUL. -/
structure OutBuf where
  outlen : ℕ := 0
  text : Text := []
  deriving DecidableEq, Repr

namespace OutBuf

def realloc (grants : ℕ → Bool) (out : OutBuf) (n : ℕ) : Except (Option ℤ) OutBuf :=
  if grants (out.outlen + n) then .ok { out with outlen := out.outlen + n } else .error (some (-1))

/-- The NUL behind the text has to fit as well. -/
def strcat (out : OutBuf) (t : Text) : Except (Option ℤ) OutBuf :=
  if out.text.length + t.length < out.outlen then .ok { out with text := out.text ++ t } else .error none

def numberToString (out : OutBuf) (n : ℤ) : Except (Option ℤ) OutBuf := do
  let len ← numberLength n
  out.strcat ((Decimal.ofInt n).take len)

end OutBuf

variable (grants : ℕ → Bool) (buf : Text)

def stringifyNumber (type : Text) (v : ℤ) (out : OutBuf) : Except (Option ℤ) OutBuf := do
  let len ← numberLength v
  let out ← out.realloc grants (len + 2)
  let out ← out.strcat type
  out.numberToString v

def stringifyString (s : Text) (out : OutBuf) : Except (Option ℤ) OutBuf := do
  let out ← out.realloc grants (s.length + 3)
  let out ← out.strcat (ascii ":" ++ [quote])
  let out ← out.strcat s
  out.strcat [quote]

/-- The `switch` on the type of an argument. -/
def stringifyArg (i : ℕ) (type : Char) (out : OutBuf) : Except (Option ℤ) OutBuf :=
  if type = 'w' then do
    let v ← argValue (ipcCmdGetShortArg grants buf i)
    stringifyNumber grants (ascii ":s") v out
  else if type = 'W' then do
    let v ← argValue (ipcCmdGetLongArg grants buf i)
    stringifyNumber grants (ascii ":l") v out
  else if type = 'x' then do
    let s ← argValue (ipcCmdGetStringArg grants buf i)
    let s := cString s
    if s.length ≤ stringifyMaxTextDisplayChars then stringifyString grants s out
    else stringifyNumber grants (ascii ":#") s.length out
  else .ok out

/-- The loop over the arguments, with the number of those that are left. The line that would advance
`fmt_idx` stands behind the last `break` of the `switch`, so that it stays 0. -/
def stringifyArgs (fmt : List Char) : ℕ → ℕ → OutBuf → Except (Option ℤ) OutBuf
  | 0, _, out => .ok out
  | left + 1, i, out =>
    match fmt[0]? with
    | none => do
      let len ← numberLength left
      let out ← out.realloc grants ((ascii ":!...").length + len)
      let out ← out.strcat (ascii ":!...")
      out.numberToString left
    | some type => do
      let _ ← orUndefined (ipcCmdGetArgLen buf i)
      let out ← stringifyArg grants buf i type out
      stringifyArgs fmt left (i + 1) out

/-- The buffer when the function returns 1. A code without a description makes it read from a NULL
pointer. -/
def stringifyCmd (isReply : Bool) : Except (Option ℤ) OutBuf := do
  let code ← orUndefined (ipcCmdGet buf)
  let cmd ← orUndefined (findCommandDescription code)
  let out ← OutBuf.realloc grants {} ((ascii cmd.name).length + 5)
  let out ← out.strcat (ascii (if isReply then "[<<" else "[>>"))
  let out ← out.strcat (ascii cmd.name)
  let numArgs ← orUndefined (ipcCmdNumArgs buf)
  let out ← stringifyArgs grants buf cmd.argFmt.toList numArgs.toNat 0 out
  out.strcat (ascii "]")

/-- The return value, and the buffer if there is one. -/
def ipcStringifyCmd (isReply : Bool) : Option (ℤ × Option OutBuf) :=
  match stringifyCmd grants buf isReply with
  | .ok out => some (1, some out)
  | .error (some rv) => some (rv, none)
  | .error none => none

/-! ### What is to be logged -/

/-- An argument by its format character. -/
def renderArg (type : Char) (arg : Text) : Text :=
  if type = 'w' then ascii ":s" ++ Decimal.ofInt (i16 (ofBigEndian (arg.take 2)))
  else if type = 'W' then ascii ":l" ++ Decimal.ofInt (i32 (ofBigEndian (arg.take 4)))
  else if type = 'x' then
    if (cString arg).length ≤ stringifyMaxTextDisplayChars then ascii ":" ++ [quote] ++ cString arg ++ [quote]
    else ascii ":#" ++ Decimal.ofInt (cString arg).length
  else []

/-- Each argument by a character of its own, where a star stands for all that follow; behind the last
character the arguments are counted only. -/
def renderArgs : List Char → List Text → Text
  | _, [] => []
  | [], _ :: args => ascii ":!..." ++ Decimal.ofInt args.length
  | type :: fmt, arg :: args => renderArg type arg ++ renderArgs (if type = '*' then type :: fmt else fmt) args

/-- The function returns with all of its text in the bytes allocated, and the text is the one to be
logged; or it reports that there was no memory. -/
def Logs (isReply : Bool) (code : ℕ) (args : List Text) (r : Text) : Prop :=
  (∃ out, ipcStringifyCmd grants (encode code args ++ r) isReply = some (1, some out) ∧
    out.text.length < out.outlen ∧
    ∀ cmd, findCommandDescription code = some cmd → out.text = ascii (if isReply then "[<<" else "[>>") ++
      ascii cmd.name ++ renderArgs cmd.argFmt.toList args ++ ascii "]") ∨
  (ipcStringifyCmd grants (encode code args ++ r) isReply = some (-1, none) ∧ ∃ n, grants n = false)

/-- There is memory for the copy of an argument, and a number that the argument stands for is in it. -/
def Readable (type : Char) (arg : Text) : Prop :=
  (type = 'w' → grants arg.length = true ∧ 2 ≤ arg.length) ∧ (type = 'x' → grants (arg.length + 1) = true)

/-- The arguments are readable up to one whose text there is no memory for, behind `outlen` bytes. -/
def Refused (type : Char) : ℕ → List Text → Prop
  | _, [] => False
  | outlen, arg :: args =>
    let outlen := outlen + (renderArg type arg).length
    Readable grants type arg ∧ (grants outlen = false ∨ Refused type outlen args)

/-- The code has a description; its format needs one character at most, and the arguments that it
stands for are readable, unless the memory for the text is refused before. -/
def Loggable (code : ℕ) (args : List Text) : Prop :=
  ∃ cmd, findCommandDescription code = some cmd ∧ (grants ((ascii cmd.name).length + 5) = true →
    cmd.argFmt = "" ∨ ∃ type, cmd.argFmt.toList = [type] ∧
      (Refused grants type ((ascii cmd.name).length + 5) args ∨
        ((type = '*' ∨ args.length ≤ 1) ∧ ∀ arg ∈ args, Readable grants type arg)))

variable {grants} {buf r text : Text} {out out' : OutBuf} {type : Char} {args : List Text} {arg : Text}
  {code i left n : ℕ} {v : ℤ}

theorem numberLength_eq (h : v ≠ -2 ^ 31) : numberLength v = .ok (Decimal.ofInt v).length := by
  by_cases hv : v = 0
  · subst hv
    rfl
  · rw [numberLength, if_neg hv, if_neg h, Decimal.length_ofInt hv]

namespace OutBuf

def append (out : OutBuf) (t : Text) : OutBuf := ⟨out.outlen + t.length, out.text ++ t⟩

def grow (grants : ℕ → Bool) (out : OutBuf) (t : Text) : Except (Option ℤ) OutBuf :=
  if grants (out.outlen + t.length) then .ok (out.append t) else .error (some (-1))

/-- There is room for the closing bracket and the NUL. -/
structure Snug (grants : ℕ → Bool) (out : OutBuf) : Prop where
  granted : grants out.outlen = true
  outlen_eq : out.outlen = out.text.length + 2

theorem append_append (out : OutBuf) (t u : Text) : (out.append t).append u = out.append (t ++ u) := by
  simp only [append, List.length_append, List.append_assoc, Nat.add_assoc]

theorem append_nil (out : OutBuf) : out.append [] = out := by
  simp only [append, List.length_nil, Nat.add_zero, List.append_nil]

theorem grow_nil (h : out.Snug grants) : out.grow grants [] = .ok out := by
  rw [grow, List.length_nil, Nat.add_zero, if_pos h.granted, append_nil]

theorem Snug.append {t : Text} (h : out.Snug grants) (hgrants : grants (out.outlen + t.length) = true) :
    (out.append t).Snug grants where
  granted := hgrants
  outlen_eq := by
    have hlen := h.outlen_eq
    simp only [OutBuf.append, List.length_append]
    omega

/-- A text goes behind the others where the allocation leaves room for it. -/
theorem strcat_eq {t : Text} (h : out.text.length + t.length < out.outlen) :
    out.strcat t = .ok ⟨out.outlen, out.text ++ t⟩ := if_pos h

theorem numberToString_eq (hv : v ≠ -2 ^ 31) (h : out.text.length + (Decimal.ofInt v).length < out.outlen) :
    out.numberToString v = .ok ⟨out.outlen, out.text ++ Decimal.ofInt v⟩ := by
  rw [numberToString, numberLength_eq hv, bind_ok, List.take_length, strcat_eq h]

theorem realloc_bind {t : Text} {f : OutBuf → Except (Option ℤ) OutBuf}
    (h : f ⟨out.outlen + t.length, out.text⟩ = .ok (out.append t)) :
    (out.realloc grants t.length >>= f) = out.grow grants t := by
  rw [realloc, grow]
  by_cases hgrants : grants (out.outlen + t.length) = true
  · rw [if_pos hgrants, if_pos hgrants, bind_ok, h]
  · rw [if_neg hgrants, if_neg hgrants]
    rfl

end OutBuf

open OutBuf

theorem stringifyNumber_eq (hsnug : out.Snug grants) (hv : v ≠ -2 ^ 31) {label : Text}
    (hlabel : label.length = 2) :
    stringifyNumber grants label v out = out.grow grants (label ++ Decimal.ofInt v) := by
  have hlen : (Decimal.ofInt v).length + 2 = (label ++ Decimal.ofInt v).length := by
    rw [List.length_append, hlabel, Nat.add_comm]
  have hout := hsnug.outlen_eq
  rw [stringifyNumber, numberLength_eq hv, bind_ok, hlen]
  apply realloc_bind
  rw [← hlen, strcat_eq (by dsimp only; omega), bind_ok,
    numberToString_eq hv (by dsimp only; rw [List.length_append]; omega), OutBuf.append, hlen,
    List.append_assoc]

theorem stringifyString_eq (hsnug : out.Snug grants) (s : Text) :
    stringifyString grants s out = out.grow grants (ascii ":" ++ [quote] ++ s ++ [quote]) := by
  have hlen : s.length + 3 = (ascii ":" ++ [quote] ++ s ++ [quote]).length := by
    rw [List.length_append, List.length_append]
    change s.length + 3 = 2 + s.length + 1
    omega
  have hopen : (ascii ":" ++ [quote]).length = 2 := rfl
  have hclose : [quote].length = 1 := rfl
  have hout := hsnug.outlen_eq
  rw [stringifyString, hlen]
  apply realloc_bind
  rw [← hlen, strcat_eq (by dsimp only; omega), bind_ok,
    strcat_eq (by dsimp only; rw [List.length_append]; omega), bind_ok,
    strcat_eq (by dsimp only; rw [List.length_append, List.length_append]; omega), OutBuf.append, hlen]
  simp only [List.append_assoc]

theorem stringifyArg_short (h : Encodable code args) (hi : i < args.length) (hsnug : out.Snug grants)
    (hread : Readable grants 'w' args[i]) :
    stringifyArg grants (encode code args ++ r) i 'w' out = out.grow grants (renderArg 'w' args[i]) := by
  obtain ⟨hgrants, hwide⟩ := hread.1 rfl
  have hv : i16 (ofBigEndian (args[i].take 2)) ≠ -2 ^ 31 := by
    have hlo := (wrap_bounds 15 (ofBigEndian (args[i].take 2))).1
    change -2 ^ 15 ≤ i16 _ at hlo
    omega
  have hvalue : ipcCmdGetShortArg grants (encode code args ++ r) i =
      some (.ok (i16 (ofBigEndian (args[i].take 2)))) := by
    rw [ipcCmdGetShortArg, ipcCmdGetArg_encode h r hi hgrants]
    change (readNs (args[i] ++ []) 0).bind _ = _
    rw [List.append_nil, readNs, if_pos (by omega), List.drop_zero, Option.bind_some]
  rw [stringifyArg, if_pos rfl, hvalue, argValue, bind_ok, stringifyNumber_eq hsnug hv rfl]
  rfl

theorem stringifyArg_string (h : Encodable code args) (hi : i < args.length) (hsnug : out.Snug grants)
    (hread : Readable grants 'x' args[i]) :
    stringifyArg grants (encode code args ++ r) i 'x' out = out.grow grants (renderArg 'x' args[i]) := by
  have hvalue : ipcCmdGetStringArg grants (encode code args ++ r) i = some (.ok (args[i] ++ [0])) := by
    rw [ipcCmdGetStringArg, ipcCmdGetArg_encode h r hi (hread.2 rfl)]
    rfl
  have hout := hsnug.outlen_eq
  have hlen : (cString args[i]).length ≤ args[i].length := (List.takeWhile_prefix _).length_le
  have harg := h.arg_lt (List.getElem_mem hi)
  rw [stringifyArg, if_neg (by decide), if_neg (by decide), if_pos rfl, hvalue, argValue, bind_ok]
  rw [cString_append_zero]
  by_cases hshort : (cString args[i]).length ≤ stringifyMaxTextDisplayChars
  · have hrender : renderArg 'x' args[i] = ascii ":" ++ [quote] ++ cString args[i] ++ [quote] := by
      rw [renderArg, if_neg (by decide), if_neg (by decide), if_pos rfl, if_pos hshort]
    rw [if_pos hshort, hrender, stringifyString_eq hsnug]
  · have hrender : renderArg 'x' args[i] = ascii ":#" ++ Decimal.ofInt (cString args[i]).length := by
      rw [renderArg, if_neg (by decide), if_neg (by decide), if_pos rfl, if_neg hshort]
    rw [if_neg hshort, hrender, stringifyNumber_eq hsnug (by omega) rfl]

/-- The formats that are in use. -/
def formatChars : List Char := ['-', '*', 'w', 'x']

theorem stringifyArg_readable (h : Encodable code args) (hi : i < args.length) (hsnug : out.Snug grants)
    (htype : type ∈ formatChars) (hread : Readable grants type args[i]) :
    stringifyArg grants (encode code args ++ r) i type out = out.grow grants (renderArg type args[i]) := by
  simp only [formatChars, List.mem_cons, List.not_mem_nil, or_false] at htype
  rcases htype with rfl | rfl | rfl | rfl
  · exact (grow_nil hsnug).symm
  · exact (grow_nil hsnug).symm
  · exact stringifyArg_short h hi hsnug hread
  · exact stringifyArg_string h hi hsnug hread

/-- The variable for an argument that is refused or too short has no value. -/
theorem stringifyArg_of_not_readable (h : Encodable code args) (hi : i < args.length)
    (hread : ¬ Readable grants type args[i]) :
    stringifyArg grants (encode code args ++ r) i type out = .error none := by
  rw [Readable, not_and_or, Classical.not_imp, Classical.not_imp] at hread
  rcases hread with ⟨rfl, hread⟩ | ⟨rfl, hread⟩
  · rw [stringifyArg, if_pos rfl, ipcCmdGetShortArg]
    by_cases hgrants : grants args[i].length = true
    · have hshort : ¬ 0 + 2 ≤ args[i].length := fun hlen => hread ⟨hgrants, by omega⟩
      rw [ipcCmdGetArg_encode h r hi hgrants]
      change argValue ((readNs (args[i] ++ []) 0).bind _) >>= _ = _
      rw [List.append_nil, readNs, if_neg hshort]
      rfl
    · rw [ipcCmdGetArg_refused h hi (Bool.eq_false_iff.mpr hgrants)]
      rfl
  · rw [stringifyArg, if_neg (by decide), if_neg (by decide), if_pos rfl, ipcCmdGetStringArg,
      ipcCmdGetArg_refused h hi (Bool.eq_false_iff.mpr hread)]
    rfl

/-- How the loop over arguments of one type ends: the memory for a text is refused, or all of them are
rendered, or one cannot be read. -/
inductive Ends (grants : ℕ → Bool) (type : Char) (out : OutBuf) (args : List Text) :
    Except (Option ℤ) OutBuf → Prop
  | refused (hrefused : Refused grants type out.outlen args) : Ends grants type out args (.error (some (-1)))
  | rendered (hrefused : ¬ Refused grants type out.outlen args) (hread : ∀ arg ∈ args, Readable grants type arg)
      (hsnug : (out.append (args.flatMap (renderArg type))).Snug grants) :
      Ends grants type out args (.ok (out.append (args.flatMap (renderArg type))))
  | unreadable (hrefused : ¬ Refused grants type out.outlen args)
      (hread : ¬ ∀ arg ∈ args, Readable grants type arg) : Ends grants type out args (.error none)

theorem Ends.cons {result : Except (Option ℤ) OutBuf} (hread : Readable grants type arg)
    (hgrants : grants (out.outlen + (renderArg type arg).length) = true)
    (h : Ends grants type (out.append (renderArg type arg)) args result) :
    Ends grants type out (arg :: args) result := by
  have hrefused : Refused grants type out.outlen (arg :: args) ↔
      Refused grants type (out.append (renderArg type arg)).outlen args := by
    simp only [Refused, hread, hgrants, true_and, Bool.true_eq_false, false_or, OutBuf.append]
  have htext : (out.append (renderArg type arg)).append (args.flatMap (renderArg type)) =
      out.append ((arg :: args).flatMap (renderArg type)) := by
    rw [append_append, List.flatMap_cons]
  cases h with
  | refused h => exact .refused (hrefused.mpr h)
  | rendered h hall hsnug =>
    rw [htext] at hsnug ⊢
    exact .rendered (mt hrefused.mp h) (List.forall_mem_cons.mpr ⟨hread, hall⟩) hsnug
  | unreadable h hall =>
    exact .unreadable (mt hrefused.mp h) fun hcons => hall (List.forall_mem_cons.mp hcons).2

theorem stringifyArgs_ends (h : Encodable code args) (htype : type ∈ formatChars)
    (hi : i + left = args.length) (hsnug : out.Snug grants) :
    Ends grants type out (args.drop i) (stringifyArgs grants (encode code args ++ r) [type] left i out) := by
  induction left generalizing i out with
  | zero =>
    have hdrop : args.drop i = [] := List.drop_eq_nil_of_le (by omega)
    have htext : out.append (([] : List Text).flatMap (renderArg type)) = out := append_nil out
    have hends : Ends grants type out [] (.ok (out.append (([] : List Text).flatMap (renderArg type)))) :=
      .rendered id nofun (by rwa [htext])
    rwa [htext, ← hdrop] at hends
  | succ left ih =>
    have hlt : i < args.length := by omega
    have hround : stringifyArgs grants (encode code args ++ r) [type] (left + 1) i out =
        stringifyArg grants (encode code args ++ r) i type out >>=
          stringifyArgs grants (encode code args ++ r) [type] left (i + 1) := by
      rw [stringifyArgs, ipcCmdGetArgLen_encode h]
      rfl
    rw [List.drop_eq_getElem_cons hlt, hround]
    by_cases hread : Readable grants type args[i]
    · rw [stringifyArg_readable h hlt hsnug htype hread, grow]
      by_cases hgrants : grants (out.outlen + (renderArg type args[i]).length) = true
      · rw [if_pos hgrants, bind_ok]
        exact .cons hread hgrants (ih (by omega) (hsnug.append hgrants))
      · rw [if_neg hgrants]
        exact .refused ⟨hread, .inl (Bool.eq_false_iff.mpr hgrants)⟩
    · rw [stringifyArg_of_not_readable h hlt hread]
      exact .unreadable (fun hrefused => hread hrefused.1) fun hall => hread (hall _ (List.mem_cons_self ..))

theorem stringifyArgs_nil (hargs : args.length < 2 ^ 31) (hsnug : out.Snug grants) :
    stringifyArgs grants buf [] args.length i out = out.grow grants (renderArgs [] args) := by
  cases args with
  | nil => exact (grow_nil hsnug).symm
  | cons arg args =>
    have hout := hsnug.outlen_eq
    have hnumber : (args.length : ℤ) ≠ -2 ^ 31 := by omega
    rw [List.length_cons, stringifyArgs, List.getElem?_nil]
    dsimp only
    have hlen : (ascii ":!...").length + (Decimal.ofInt args.length).length =
        (ascii ":!..." ++ Decimal.ofInt args.length).length := List.length_append.symm
    rw [numberLength_eq hnumber, bind_ok, hlen, renderArgs]
    apply realloc_bind
    rw [← hlen, strcat_eq (by dsimp only; omega), bind_ok,
      numberToString_eq hnumber (by dsimp only; rw [List.length_append]; omega), OutBuf.append, hlen,
      List.append_assoc]

/-- A star stands for all arguments, and renders none of them. -/
theorem renderArgs_star (args : List Text) : renderArgs ['*'] args = args.flatMap (renderArg '*') := by
  induction args with
  | nil => rfl
  | cons arg args ih =>
    rw [renderArgs, if_pos rfl, ih]
    rfl

/-- Where an argument is rendered as something, its second byte is not that of the count of the rest. -/
theorem renderArg_getElem_one (htype : type ∈ formatChars) (arg : Text) :
    renderArg type arg = [] ∨ ∃ c ≠ (33 : UInt8), ∀ t, (renderArg type arg ++ t)[1]? = some c := by
  simp only [formatChars, List.mem_cons, List.not_mem_nil, or_false] at htype
  rcases htype with rfl | rfl | rfl | rfl
  · exact .inl rfl
  · exact .inl rfl
  · exact .inr ⟨115, by decide, fun t => rfl⟩
  · rw [renderArg, if_neg (by decide), if_neg (by decide), if_pos rfl]
    split_ifs
    · exact .inr ⟨quote, by decide, fun t => rfl⟩
    · exact .inr ⟨35, by decide, fun t => rfl⟩

theorem flatMap_renderArg_ne (htype : type ∈ formatChars) :
    args.flatMap (renderArg type) ≠ ascii ":!..." ++ text := by
  induction args with
  | nil => exact fun h => List.cons_ne_nil _ _ h.symm
  | cons arg args ih =>
    rw [List.flatMap_cons]
    rcases renderArg_getElem_one htype arg with hnil | ⟨c, hc, hone⟩
    · rwa [hnil, List.nil_append]
    · intro h
      have hsecond := hone (args.flatMap (renderArg type))
      rw [h] at hsecond
      exact hc (Option.some.inj hsecond).symm

/-- One character is enough for a row of arguments only if there is one of them, or if it is a star. -/
theorem flatMap_renderArg_iff (htype : type ∈ formatChars) :
    args.flatMap (renderArg type) = renderArgs [type] args ↔ type = '*' ∨ args.length ≤ 1 := by
  by_cases hstar : type = '*'
  · subst hstar
    exact iff_of_true (renderArgs_star args).symm (.inl rfl)
  rw [or_iff_right hstar]
  cases args with
  | nil => exact iff_of_true rfl (Nat.zero_le _)
  | cons arg args =>
    rw [List.flatMap_cons, renderArgs, if_neg hstar, List.append_cancel_left_eq]
    cases args with
    | nil => exact iff_of_true rfl le_rfl
    | cons arg' args =>
      refine iff_of_false ?_ (by simp)
      rw [renderArgs]
      exact flatMap_renderArg_ne htype

theorem argFmt_cases {cmd : CommandDescription} (h : findCommandDescription code = some cmd) :
    cmd.argFmt = "" ∨ ∃ type ∈ formatChars, cmd.argFmt.toList = [type] := by
  have htable : ∀ cmd ∈ ipcCommands, cmd.argFmt = "" ∨ ∃ type ∈ formatChars, cmd.argFmt.toList = [type] := by
    simp [ipcCommands, formatChars]
  exact htable cmd (List.mem_of_find?_eq_some h)

def heading (isReply : Bool) (cmd : CommandDescription) : OutBuf where
  outlen := (ascii cmd.name).length + 5
  text := ascii (if isReply then "[<<" else "[>>") ++ ascii cmd.name

theorem length_arrow (isReply : Bool) : (ascii (if isReply then "[<<" else "[>>")).length = 3 := by
  cases isReply <;> rfl

theorem heading_snug {isReply : Bool} {cmd : CommandDescription}
    (hgrants : grants ((ascii cmd.name).length + 5) = true) : (heading isReply cmd).Snug grants where
  granted := hgrants
  outlen_eq := by
    have htext : (heading isReply cmd).text.length = 3 + (ascii cmd.name).length := by
      rw [heading, List.length_append, length_arrow]
    have houtlen : (heading isReply cmd).outlen = (ascii cmd.name).length + 5 := rfl
    omega

theorem stringifyCmd_eq {isReply : Bool} {cmd : CommandDescription} (h : Encodable code args)
    (hcmd : findCommandDescription code = some cmd) (hgrants : grants ((ascii cmd.name).length + 5) = true) :
    stringifyCmd grants (encode code args ++ r) isReply =
      stringifyArgs grants (encode code args ++ r) cmd.argFmt.toList args.length 0 (heading isReply cmd) >>=
        fun out => out.strcat (ascii "]") := by
  have hlen := length_arrow isReply
  have hrealloc : OutBuf.realloc grants {} ((ascii cmd.name).length + 5) =
      .ok ⟨(ascii cmd.name).length + 5, []⟩ := by
    rw [OutBuf.realloc, Nat.zero_add, if_pos hgrants]
  rw [stringifyCmd, ipcCmdGet_encode h, orUndefined, bind_ok, hcmd, orUndefined, bind_ok, hrealloc, bind_ok,
    strcat_eq (by rw [hlen]; dsimp only [List.length_nil]; omega), bind_ok,
    strcat_eq (by rw [List.nil_append, hlen]; dsimp only; omega), bind_ok, ipcCmdNumArgs_encode h, orUndefined,
    bind_ok]
  rfl

theorem logs_iff_of_eq {isReply : Bool} {cmd : CommandDescription} {result : Except (Option ℤ) OutBuf}
    (h : Encodable code args) (hcmd : findCommandDescription code = some cmd)
    (hgrants : grants ((ascii cmd.name).length + 5) = true)
    (hresult : stringifyArgs grants (encode code args ++ r) cmd.argFmt.toList args.length 0
      (heading isReply cmd) = result) (hsnug : ∀ out, result = .ok out → out.Snug grants) :
    Logs grants isReply code args r ↔
      (∃ out, result = .ok out ∧ out.text = (heading isReply cmd).text ++ renderArgs cmd.argFmt.toList args) ∨
      (result = .error (some (-1)) ∧ ∃ n, grants n = false) := by
  cases result with
  | error e =>
    have hlogged : ipcStringifyCmd grants (encode code args ++ r) isReply = e.map fun rv => (rv, none) := by
      rw [ipcStringifyCmd, stringifyCmd_eq h hcmd hgrants, hresult]
      cases e <;> rfl
    rw [Logs, hlogged]
    cases e with
    | none => simp
    | some rv => simp
  | ok out =>
    have hout := (hsnug out rfl).outlen_eq
    have hbracket : (ascii "]").length = 1 := rfl
    have hlogged : ipcStringifyCmd grants (encode code args ++ r) isReply =
        some (1, some ⟨out.outlen, out.text ++ ascii "]"⟩) := by
      rw [ipcStringifyCmd, stringifyCmd_eq h hcmd hgrants, hresult, bind_ok, strcat_eq (by omega)]
    have hfits : (out.text ++ ascii "]").length < out.outlen := by
      rw [List.length_append]
      omega
    rw [Logs, hlogged]
    constructor
    · rintro (⟨out', hout', -, htext⟩ | ⟨hout', -⟩)
      · cases hout'
        exact .inl ⟨out, rfl, List.append_cancel_right (htext cmd hcmd)⟩
      · cases hout'
    · rintro (⟨out', hout', htext⟩ | ⟨hout', -⟩)
      · cases hout'
        refine .inl ⟨_, rfl, hfits, fun cmd' hcmd' => ?_⟩
        cases hcmd.symm.trans hcmd'
        exact congrArg (· ++ ascii "]") htext
      · cases hout'

theorem exists_of_refused {outlen : ℕ} (h : Refused grants type outlen args) : ∃ n, grants n = false := by
  induction args generalizing outlen with
  | nil => exact h.elim
  | cons arg args ih => exact h.2.elim (fun h => ⟨_, h⟩) ih

theorem logs_of_empty {cmd : CommandDescription} (isReply : Bool) (h : Encodable code args)
    (hcmd : findCommandDescription code = some cmd) (hgrants : grants ((ascii cmd.name).length + 5) = true)
    (hfmt : cmd.argFmt.toList = []) : Logs grants isReply code args r := by
  have hargs := h.args_le
  have hsnug : (heading isReply cmd).Snug grants := heading_snug hgrants
  have hresult : stringifyArgs grants (encode code args ++ r) cmd.argFmt.toList args.length 0
      (heading isReply cmd) = (heading isReply cmd).grow grants (renderArgs [] args) := by
    rw [hfmt]
    exact stringifyArgs_nil (by omega) hsnug
  by_cases hmemory : grants ((heading isReply cmd).outlen + (renderArgs [] args).length) = true
  · rw [grow, if_pos hmemory] at hresult
    apply (logs_iff_of_eq h hcmd hgrants hresult _).mpr
    · rw [hfmt]
      exact .inl ⟨_, rfl, rfl⟩
    · intro out hout
      cases hout
      exact hsnug.append hmemory
  · rw [grow, if_neg hmemory] at hresult
    exact (logs_iff_of_eq h hcmd hgrants hresult nofun).mpr (.inr ⟨rfl, _, Bool.eq_false_iff.mpr hmemory⟩)

theorem logs_iff_of_type {cmd : CommandDescription} (isReply : Bool) (h : Encodable code args)
    (hcmd : findCommandDescription code = some cmd) (hgrants : grants ((ascii cmd.name).length + 5) = true)
    (htype : type ∈ formatChars) (hfmt : cmd.argFmt.toList = [type]) :
    Logs grants isReply code args r ↔ Refused grants type ((ascii cmd.name).length + 5) args ∨
      ((type = '*' ∨ args.length ≤ 1) ∧ ∀ arg ∈ args, Readable grants type arg) := by
  have hsnug : (heading isReply cmd).Snug grants := heading_snug hgrants
  have hends := stringifyArgs_ends (r := r) h htype (Nat.zero_add args.length) hsnug
  rw [← hfmt, List.drop_zero] at hends
  generalize hresult : stringifyArgs grants (encode code args ++ r) cmd.argFmt.toList args.length 0
    (heading isReply cmd) = result at hends
  cases hends with
  | refused hrefused =>
    rw [logs_iff_of_eq h hcmd hgrants hresult nofun]
    exact iff_of_true (.inr ⟨rfl, exists_of_refused hrefused⟩) (.inl hrefused)
  | rendered hrefused hread hsnug' =>
    change ¬ Refused grants type ((ascii cmd.name).length + 5) args at hrefused
    have htext : (∃ out, Except.ok ((heading isReply cmd).append (args.flatMap (renderArg type))) =
          (Except.ok out : Except (Option ℤ) OutBuf) ∧
        out.text = (heading isReply cmd).text ++ renderArgs cmd.argFmt.toList args) ↔
          args.flatMap (renderArg type) = renderArgs [type] args := by
      rw [hfmt]
      simp only [Except.ok.injEq, exists_eq_left', OutBuf.append, List.append_cancel_left_eq]
    rw [logs_iff_of_eq h hcmd hgrants hresult fun out hout => by cases hout; exact hsnug', htext,
      flatMap_renderArg_iff htype, or_iff_right hrefused, and_iff_left hread, or_iff_left]
    rintro ⟨hout, -⟩
    cases hout
  | unreadable hrefused hread =>
    rw [logs_iff_of_eq h hcmd hgrants hresult nofun]
    exact iff_of_false (by simp) fun hlog => hlog.elim hrefused fun hlog => hread hlog.2

theorem loggable_iff_of_granted (hgrants : ∀ n, grants n = true) :
    Loggable grants code args ↔ ∃ cmd, findCommandDescription code = some cmd ∧
      (cmd.argFmt = "" ∨ ∃ type, cmd.argFmt.toList = [type] ∧ (type = '*' ∨ args.length ≤ 1) ∧
        (type = 'w' → ∀ arg ∈ args, 2 ≤ arg.length)) := by
  have hrefused : ∀ type outlen, ¬ Refused grants type outlen args := fun type outlen h => by
    obtain ⟨n, hn⟩ := exists_of_refused h
    rw [hgrants] at hn
    cases hn
  have hread : ∀ type, (∀ arg ∈ args, Readable grants type arg) ↔
      (type = 'w' → ∀ arg ∈ args, 2 ≤ arg.length) := by
    intro type
    simp only [Readable, hgrants, true_and, implies_true, and_true]
    exact ⟨fun h hw arg harg => h arg harg hw, fun h arg harg hw => h hw arg harg⟩
  simp only [Loggable, hgrants, forall_const, hrefused, false_or, hread]

/-- A command is logged, with each argument by its own format character, if and only if its code has a
description and one character is enough for arguments that can be read, unless the memory runs out before. -/
theorem logs_iff (isReply : Bool) (h : Encodable code args) :
    Logs grants isReply code args r ↔ Loggable grants code args := by
  cases hcmd : findCommandDescription code with
  | none =>
    have hnone : ipcStringifyCmd grants (encode code args ++ r) isReply = none := by
      rw [ipcStringifyCmd, stringifyCmd, ipcCmdGet_encode h, orUndefined, bind_ok, hcmd]
      rfl
    rw [Logs, Loggable, hnone, hcmd]
    simp
  | some cmd =>
    have hloggable : Loggable grants code args ↔ (grants ((ascii cmd.name).length + 5) = true →
        cmd.argFmt = "" ∨ ∃ type, cmd.argFmt.toList = [type] ∧
          (Refused grants type ((ascii cmd.name).length + 5) args ∨
            ((type = '*' ∨ args.length ≤ 1) ∧ ∀ arg ∈ args, Readable grants type arg))) := by
      rw [Loggable, hcmd]
      simp only [Option.some.injEq, exists_eq_left']
    rw [hloggable]
    by_cases hgrants : grants ((ascii cmd.name).length + 5) = true
    · rw [forall_prop_of_true hgrants]
      rcases argFmt_cases hcmd with hfmt | ⟨type, htype, hfmt⟩
      · exact iff_of_true (logs_of_empty isReply h hcmd hgrants (by rw [hfmt]; rfl)) (.inl hfmt)
      · have hne : cmd.argFmt ≠ "" := by
          rintro hempty
          rw [hempty] at hfmt
          cases hfmt
        simp only [hfmt, hne, false_or, List.cons.injEq, and_true, exists_eq_left']
        exact logs_iff_of_type isReply h hcmd hgrants htype hfmt
    · refine iff_of_true (.inr ⟨?_, _, Bool.eq_false_iff.mpr hgrants⟩) fun hgrants' => absurd hgrants' hgrants
      rw [ipcStringifyCmd, stringifyCmd, ipcCmdGet_encode h, orUndefined, bind_ok, hcmd, orUndefined, bind_ok,
        OutBuf.realloc, Nat.zero_add, if_neg hgrants]
      rfl

/-- The arguments that a message to change the temperature needs, and nothing else. -/
theorem logs_heatup : Logs (fun _ => true) false ipcCmdqHeatup [[0, 200]] [] := by
  have h : Encodable ipcCmdqHeatup [[0, 200]] := ⟨by decide, by decide, by decide⟩
  have hread : ∀ arg ∈ [([0, 200] : Text)], Readable (fun _ => true) 'w' arg := by
    intro arg harg
    rw [List.mem_singleton.mp harg]
    exact ⟨fun _ => ⟨rfl, le_rfl⟩, fun _ => rfl⟩
  apply (logs_iff false h).mpr
  exact ⟨⟨ipcCmdqHeatup, "heatup", "w"⟩, rfl, fun _ => .inr ⟨'w', rfl, .inr ⟨.inr le_rfl, hread⟩⟩⟩

/-- A code without a description. -/
theorem not_logs_unknown : Encodable 0x20 [] ∧ ¬ Logs (fun _ => true) false 0x20 [] [] := by
  refine ⟨⟨by decide, by decide, by decide⟩, ?_⟩
  have hnone : ipcStringifyCmd (fun _ => true) (encode 0x20 [] ++ []) false = none := by decide
  rw [Logs, hnone]
  simp

end Print3D
