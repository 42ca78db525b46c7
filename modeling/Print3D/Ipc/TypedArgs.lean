import Print3D.Ipc.Layout

/-! The readers of numeric arguments, with an index of type `int` and with the variable they write to. -/
namespace Print3D
open FixedWidth LengthPrefixed

variable (grants : ℕ → Bool) (buf : Text)

/-- The loop of `ipc_cmd_get_arg`. It counts in an `int`, so that there are `rounds` left at most. -/
def walkToArg (argidx : ℤ) : ℕ → ℤ → ℕ → Option (ℕ × ℕ)
  | 0, _, _ => none
  | rounds + 1, curridx, p => do
    let currarglen ← readNl buf p
    if curridx = argidx then some (p, currarglen)
    else walkToArg argidx rounds (curridx + 1) (p + (4 + currarglen) % 2 ^ 32)

def ipcCmdGetArgAt (argidx : ℤ) (addzero : Bool) : Option (Except ℤ Text) := do
  let count ← readNs buf 2
  if argidx ≥ count then some (.error (-2))
  else
    let (p, currarglen) ← walkToArg buf argidx (2 ^ 31) 0 4
    if grants ((currarglen + addzero.toNat) % 2 ^ 32) then do
      let arg ← readBytes buf (p + 4) currarglen
      some (.ok (arg ++ if addzero then [0] else []))
    else some (.error (-1))

/-- The return value, and what `*out` is then. -/
def getNumberArg (width : ℕ) (argidx out : ℤ) : Option (ℤ × ℤ) := do
  match ← ipcCmdGetArgAt grants buf argidx false with
  | .error rv => some (rv, out)
  | .ok argbuf => do
    let bytes ← readBytes argbuf 0 width
    some (0, wrap (8 * width) (ofBigEndian bytes))

def ipcCmdGetShortArgInto (argidx out : ℤ) : Option (ℤ × ℤ) := getNumberArg grants buf 2 argidx out

def ipcCmdGetLongArgInto (argidx out : ℤ) : Option (ℤ × ℤ) := getNumberArg grants buf 4 argidx out

/-- A reader returns. It gives the number that the argument begins with, if the argument has all its
bytes; else it reports an error, and leaves the variable as it is. -/
def RespectsWidth (width : ℕ) (args : List Text) (argidx : ℤ) (reader : ℤ → Option (ℤ × ℤ)) : Prop :=
  ∀ out, ∃ rv out', reader out = some (rv, out') ∧
    ((rv = 0 ∧ 0 ≤ argidx ∧ ∃ arg, args[argidx.toNat]? = some arg ∧ width ≤ arg.length ∧
        out' = wrap (8 * width) (ofBigEndian (arg.take width))) ∨
      (rv < 0 ∧ out' = out))

/-- The index is one, and the argument, if it is there and there is memory for it, is wide enough. -/
def HasWidth (width : ℕ) (args : List Text) (argidx : ℤ) : Prop :=
  0 ≤ argidx ∧ ∀ arg, args[argidx.toNat]? = some arg → grants arg.length = true → width ≤ arg.length

variable {grants buf} {argidx curridx : ℤ} {rounds p width code : ℕ} {args : List Text} {r : Text}

theorem walkToArg_of_lt (h : argidx < curridx) : walkToArg buf argidx rounds curridx p = none := by
  induction rounds generalizing curridx p with
  | zero => rfl
  | succ rounds ih =>
    rw [walkToArg]
    cases readNl buf p with
    | none => rfl
    | some currarglen =>
      rw [Option.bind_eq_bind, Option.bind_some, if_neg h.ne']
      exact ih (by omega)

theorem walkToArg_add (n : ℕ) (hrounds : n < rounds) (curridx : ℤ) (p : ℕ) :
    walkToArg buf (curridx + n) rounds curridx p = findArg buf n p := by
  induction n generalizing rounds curridx p with
  | zero =>
    obtain ⟨rounds, rfl⟩ := Nat.exists_eq_succ_of_ne_zero hrounds.ne'
    have hhere : curridx = curridx + (0 : ℕ) := (add_zero curridx).symm
    rw [walkToArg, findArg]
    cases readNl buf p with
    | none => rfl
    | some currarglen => exact if_pos hhere
  | succ n ih =>
    obtain ⟨rounds, rfl⟩ := Nat.exists_eq_succ_of_ne_zero (Nat.ne_zero_of_lt hrounds)
    have hne : curridx ≠ curridx + (n + 1 : ℕ) := by omega
    have hnext : curridx + (n + 1 : ℕ) = curridx + 1 + n := by
      push_cast
      ring
    rw [walkToArg, findArg]
    cases readNl buf p with
    | none => rfl
    | some currarglen =>
      rw [Option.bind_eq_bind, Option.bind_some, if_neg hne, hnext]
      exact ih (Nat.lt_of_succ_lt_succ hrounds) ..

theorem ipcCmdGetArgAt_natCast (h : Encodable code args) (i : ℕ) (addzero : Bool) :
    ipcCmdGetArgAt grants (encode code args ++ r) i addzero =
      ipcCmdGetArg grants (encode code args ++ r) i addzero := by
  have hargs := h.args_le
  rw [ipcCmdGetArgAt, ipcCmdGetArg, readNs_count h, Option.bind_eq_bind, Option.bind_some, Option.bind_eq_bind,
    Option.bind_some]
  by_cases hi : i ≥ args.length
  · rw [if_pos (Int.ofNat_le.mpr hi), if_pos hi]
  · have hwalk : walkToArg (encode code args ++ r) (0 + i) (2 ^ 31) 0 4 = findArg (encode code args ++ r) i 4 :=
      walkToArg_add i (by omega) 0 4
    rw [zero_add] at hwalk
    rw [if_neg fun h => hi (Int.ofNat_le.mp h), if_neg hi, hwalk]

/-- A negative index leads out of the message, or on until the count of the arguments overflows. -/
theorem ipcCmdGetArgAt_of_neg (h : Encodable code args) (hneg : argidx < 0) (addzero : Bool) :
    ipcCmdGetArgAt grants (encode code args ++ r) argidx addzero = none := by
  rw [ipcCmdGetArgAt, readNs_count h, Option.bind_eq_bind, Option.bind_some, if_neg (by omega),
    walkToArg_of_lt hneg]
  rfl

theorem ipcCmdGetArg_refused (h : Encodable code args) {i : ℕ} (hi : i < args.length) {addzero : Bool}
    (hgrants : grants (args[i].length + addzero.toNat) = false) :
    ipcCmdGetArg grants (encode code args ++ r) i addzero = some (.error (-1)) := by
  obtain ⟨p, hfind, -⟩ := findArg_encode h r hi
  have harg := h.arg_lt (List.getElem_mem hi)
  have hzero : addzero.toNat ≤ 1 := Bool.toNat_le addzero
  have hsize : (args[i].length + addzero.toNat) % 2 ^ 32 = args[i].length + addzero.toNat :=
    Nat.mod_eq_of_lt (by omega)
  have hrefused : ¬ grants ((args[i].length + addzero.toNat) % 2 ^ 32) = true := by
    rw [hsize, hgrants]
    exact Bool.false_ne_true
  rw [ipcCmdGetArg, readNs_count h, Option.bind_eq_bind, Option.bind_some, if_neg (not_le.mpr hi), hfind,
    Option.bind_eq_bind, Option.bind_some]
  exact if_neg hrefused

theorem readBytes_zero (arg : Text) (width : ℕ) :
    readBytes arg 0 width = if width ≤ arg.length then some (arg.take width) else none := by
  rw [readBytes, Nat.zero_add, List.drop_zero]

theorem getNumberArg_encode (h : Encodable code args) (i : ℕ) (out : ℤ) :
    getNumberArg grants (encode code args ++ r) width i out = match args[i]? with
      | none => some (-2, out)
      | some arg => if grants arg.length then
          if width ≤ arg.length then some (0, wrap (8 * width) (ofBigEndian (arg.take width))) else none
        else some (-1, out) := by
  rw [getNumberArg, ipcCmdGetArgAt_natCast h]
  by_cases hi : i < args.length
  · rw [List.getElem?_eq_getElem hi]
    dsimp only
    by_cases hgrants : grants args[i].length = true
    · rw [if_pos hgrants, ipcCmdGetArg_encode h r hi hgrants]
      change (readBytes (args[i] ++ []) 0 width).bind _ = _
      rw [List.append_nil, readBytes_zero]
      split_ifs <;> rfl
    · rw [if_neg hgrants, ipcCmdGetArg_refused h hi (by simpa using hgrants)]
      rfl
  · rw [List.getElem?_eq_none (not_lt.mp hi), ipcCmdGetArg_beyond h r (not_lt.mp hi)]
    rfl

/-- Its results as those of the reader with a natural number for an index. -/
theorem ipcCmdGetShortArgInto_natCast (h : Encodable code args) (i : ℕ) (out : ℤ) :
    ipcCmdGetShortArgInto grants (encode code args ++ r) i out =
      (ipcCmdGetShortArg grants (encode code args ++ r) i).map fun
        | .ok v => (0, v)
        | .error rv => (rv, out) := by
  rw [ipcCmdGetShortArgInto, getNumberArg, ipcCmdGetArgAt_natCast h, ipcCmdGetShortArg]
  cases ipcCmdGetArg grants (encode code args ++ r) i false with
  | none => rfl
  | some result =>
    cases result with
    | error rv => rfl
    | ok argbuf =>
      change (readBytes argbuf 0 2).bind _ = ((readNs argbuf 0).bind _).map _
      rw [readBytes, readNs]
      split_ifs <;> rfl

theorem ipcCmdGetLongArgInto_natCast (h : Encodable code args) (i : ℕ) (out : ℤ) :
    ipcCmdGetLongArgInto grants (encode code args ++ r) i out =
      (ipcCmdGetLongArg grants (encode code args ++ r) i).map fun
        | .ok v => (0, v)
        | .error rv => (rv, out) := by
  rw [ipcCmdGetLongArgInto, getNumberArg, ipcCmdGetArgAt_natCast h, ipcCmdGetLongArg]
  cases ipcCmdGetArg grants (encode code args ++ r) i false with
  | none => rfl
  | some result =>
    cases result with
    | error rv => rfl
    | ok argbuf =>
      change (readBytes argbuf 0 4).bind _ = ((readNl argbuf 0).bind _).map _
      rw [readBytes, readNl]
      split_ifs <;> rfl

/-- A reader stays in an argument if and only if the argument is wide enough. -/
theorem respectsWidth_iff (h : Encodable code args) :
    RespectsWidth width args argidx (getNumberArg grants (encode code args ++ r) width argidx) ↔
      HasWidth grants width args argidx := by
  unfold RespectsWidth HasWidth
  rcases lt_or_ge argidx 0 with hneg | hnonneg
  · have hnone : ∀ out, getNumberArg grants (encode code args ++ r) width argidx out = none := fun out => by
      rw [getNumberArg, ipcCmdGetArgAt_of_neg h hneg]
      rfl
    refine iff_of_false (fun hrespects => ?_) fun hwidth => absurd hwidth.1 (not_le.mpr hneg)
    obtain ⟨rv, out', hreader, -⟩ := hrespects 0
    rw [hnone] at hreader
    cases hreader
  obtain ⟨i, rfl⟩ := Int.eq_ofNat_of_zero_le hnonneg
  rw [and_iff_right hnonneg, Int.toNat_natCast]
  simp only [getNumberArg_encode h]
  cases hi : args[i]? with
  | none => exact iff_of_true (fun out => ⟨-2, out, rfl, .inr ⟨by decide, rfl⟩⟩) nofun
  | some arg =>
    simp only [Option.some.injEq, forall_eq']
    by_cases hgrants : grants arg.length = true
    · simp only [hgrants, if_true, forall_const]
      by_cases hwide : width ≤ arg.length
      · rw [if_pos hwide]
        refine iff_of_true (fun out => ⟨0, _, rfl, .inl ?_⟩) hwide
        exact ⟨rfl, hnonneg, arg, rfl, hwide, rfl⟩
      · rw [if_neg hwide]
        refine iff_of_false (fun hrespects => ?_) hwide
        obtain ⟨rv, out', hreader, -⟩ := hrespects 0
        cases hreader
    · refine iff_of_true (fun out => ⟨-1, out, if_neg hgrants, .inr ⟨by decide, rfl⟩⟩) fun h => ?_
      exact absurd h hgrants

end Print3D
