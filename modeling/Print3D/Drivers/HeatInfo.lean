import Print3D.Drivers.Cleanup
import Print3D.Drivers.AbstractDriver
import Print3D.Library.Decimal
import Print3D.Library.Occurrences

/-! The target temperatures the drivers take from the gcode that passes through them, against what
the commands of the gcode say. -/
namespace Print3D
open Lines Occurrences

def blank : UInt8 := 32

def heatCommands : List Text := [ascii "M109", ascii "M190"]

theorem rfindText_eq (pattern s : Text) : rfindText pattern s = last pattern s := rfl

/-! ### Reading a number -/

/-- What is taken for a number at the front of `s`: the line, and the last line up to a blank. -/
def numeral (s : Text) : Text := if newline ∈ s then s.takeWhile (· ≠ newline) else s.takeWhile (· ≠ blank)

theorem findNumber_append (atof : Text → Int32) (a s : Text) :
    AbstractDriver.findNumber atof (a ++ s) a.length = some (atof (cString (numeral s))).toInt := by
  have h32 : (32 : UInt8) = blank := rfl
  unfold AbstractDriver.findNumber
  rw [if_neg (by simp), find_append, find_append, List.drop_left, h32]
  unfold numeral
  cases hn : find newline 0 s with
  | some i =>
    have hmem : newline ∈ s := by
      obtain ⟨t, r, rfl, -⟩ := find_eq_some hn
      simp
    rw [if_pos hmem, ← take_find hn]
    simp
  | none =>
    rw [if_neg (find_eq_none.mp hn)]
    cases hb : find blank 0 s with
    | some i =>
      rw [← take_find hb]
      simp
    | none =>
      rw [takeWhile_ne (find_eq_none.mp hb)]
      rfl

theorem findNumber_of_lt (atof : Text → Int32) {s : Text} {i : ℕ} (h : s.length < i) :
    AbstractDriver.findNumber atof s i = none := if_pos h

/-- The search lands two characters behind the last occurrence, where the text is that long. -/
theorem numberAt_of_isLast (atof : Text → Int32) {c gcode a b : Text} (hc : c.length = 4)
    (h : IsLast c gcode a b) :
    AbstractDriver.numberAt atof gcode ((rfindText c gcode).map (· + 6)) =
      if 2 ≤ b.length then some (some (atof (cString (numeral (b.drop 2)))).toInt) else none := by
  rw [rfindText_eq, h.last_eq]
  unfold AbstractDriver.numberAt
  dsimp only [Option.map_some]
  split_ifs with hb
  · have hsplit : gcode = (a ++ c ++ b.take 2) ++ b.drop 2 := by
      rw [List.append_assoc, List.take_append_drop, List.append_assoc]
      exact h.1
    have hlen : a.length + 6 = (a ++ c ++ b.take 2).length := by
      simp only [List.length_append, List.length_take_of_le hb]
      omega
    rw [hlen, hsplit, findNumber_append]
    rfl
  · have hlen := congrArg List.length h.1
    simp only [List.length_append] at hlen
    rw [findNumber_of_lt atof (by omega)]
    rfl

theorem numberAt_of_not_isInfix (atof : Text → Int32) {c gcode : Text} (h : ¬ c <:+: gcode) :
    AbstractDriver.numberAt atof gcode ((rfindText c gcode).map (· + 6)) = some none := by
  rw [rfindText_eq, last_eq_none.mpr h]
  rfl

theorem length_of_mem_heatCommands {c : Text} (h : c ∈ heatCommands) : c.length = 4 := by
  revert c
  decide

/-- Whether each heat command in the text, wherever it stands, has two more characters behind it. -/
def ParametersFit (gcode : Text) : Prop := ∀ c ∈ heatCommands, ∀ t, c ++ t <:+ gcode → 2 ≤ t.length

private theorem numberAt_isSome_iff (atof : Text → Int32) {c gcode : Text} (hc : c.length = 4) :
    (AbstractDriver.numberAt atof gcode ((rfindText c gcode).map (· + 6))).isSome ↔
      ∀ t, c ++ t <:+ gcode → 2 ≤ t.length := by
  by_cases hin : c <:+: gcode
  · obtain ⟨a, b, h⟩ := exists_isLast hin
    have hfit : (∀ t, c ++ t <:+ gcode → 2 ≤ t.length) ↔ 2 ≤ b.length := by
      constructor
      · intro hall
        exact hall b ⟨a, h.1.symm⟩
      · rintro hb t ⟨a', ha'⟩
        exact hb.trans (h.2 a' t ha'.symm)
    rw [hfit, numberAt_of_isLast atof hc h]
    split_ifs with hb <;> simp [hb]
  · rw [numberAt_of_not_isInfix atof hin]
    simp only [Option.isSome_some, true_iff]
    exact fun t ht => absurd ((List.prefix_append c t).isInfix.trans ht.isInfix) hin

/-- The numbers at the two commands are all that can fail. -/
private theorem extractGCodeInfo_eq_some (atof : Text → Int32) (d d' : AbstractDriver) (gcode : Text) :
    d.extractGCodeInfo atof gcode = some d' ↔
      ∃ t bt, AbstractDriver.numberAt atof gcode ((rfindText (ascii "M109") gcode).map (· + 6)) = some t ∧
        AbstractDriver.numberAt atof gcode ((rfindText (ascii "M190") gcode).map (· + 6)) = some bt ∧
        { d with
          targetTemperature := (t.map u16).getD d.targetTemperature
          targetBedTemperature := (bt.map u16).getD d.targetBedTemperature } = d' := by
  simp [AbstractDriver.extractGCodeInfo, Option.bind_eq_some_iff]

namespace AbstractDriver

/-- The targets can be read from exactly the texts that do not end too soon behind a heat command. -/
theorem extractGCodeInfo_completes_iff (atof : Text → Int32) (d : AbstractDriver) (gcode : Text) :
    (d.extractGCodeInfo atof gcode).isSome ↔ ParametersFit gcode := by
  have hiff : (d.extractGCodeInfo atof gcode).isSome ↔
      ∀ c ∈ heatCommands, (numberAt atof gcode ((rfindText c gcode).map (· + 6))).isSome := by
    simp only [Option.isSome_iff_exists, extractGCodeInfo_eq_some, heatCommands, List.forall_mem_cons,
      List.not_mem_nil, false_imp_iff, implies_true, and_true]
    constructor
    · rintro ⟨-, t, bt, ht, hbt, -⟩
      exact ⟨⟨t, ht⟩, bt, hbt⟩
    · rintro ⟨⟨t, ht⟩, bt, hbt⟩
      exact ⟨_, t, bt, ht, hbt, rfl⟩
  rw [hiff]
  exact forall₂_congr fun c hc => numberAt_isSome_iff atof (length_of_mem_heatCommands hc)

/-- A bare heat command that ends a program, with its line ended. -/
theorem extractGCodeInfo_bare : ¬ ∀ (atof : Text → Int32) (d : AbstractDriver) (gcode : Text),
    (d.extractGCodeInfo atof gcode).isSome := by
  intro h
  have := h (fun _ => 0) {} (ascii "G28\nM109\n")
  revert this
  decide

end AbstractDriver

/-! ### What the gcode says -/

def isLetter (c : UInt8) : Bool := 65 ≤ c && c ≤ 90

/-- The words of a line: each capital letter, with everything behind it. -/
def words : Text → List (UInt8 × Text)
  | [] => []
  | c :: s => if isLetter c then (c, s) :: words s else words s

def isLineNumber (w : UInt8 × Text) : Bool := w.1 = 78

/-- `S` or `R` with a number. -/
def isTarget (w : UInt8 × Text) : Bool := (w.1 = 83 || w.1 = 82) && Decimal.hasNumber w.2

def lineTarget (command line : Text) : Option ℤ :=
  match (words (cutComment false line)).dropWhile isLineNumber with
  | [] => none
  | (c, s) :: ws =>
    if c :: s.takeWhile Decimal.isDigit = command then (ws.find? isTarget).map (Decimal.integerPart ·.2)
    else none

def heatTarget (command gcode : Text) : Option ℤ :=
  (((gcode.map GCodeBuffer.crToNewline).splitOn newline).filterMap (lineTarget command)).getLast?

private theorem suffix_of_mem_words {w : UInt8 × Text} {s : Text} (h : w ∈ words s) : w.1 :: w.2 <:+ s := by
  induction s with
  | nil => cases h
  | cons c s ih =>
    rw [words] at h
    split_ifs at h
    · rcases List.mem_cons.mp h with rfl | h
      · exact List.suffix_refl _
      · exact (ih h).trans (List.suffix_cons c s)
    · exact (ih h).trans (List.suffix_cons c s)

private theorem isInfix_of_lineTarget {command line : Text} {e : ℤ} (h : lineTarget command line = some e) :
    command <:+: line := by
  unfold lineTarget at h
  split at h
  · cases h
  · next c s ws hw =>
    split_ifs at h with hc
    have hmem : (c, s) ∈ words (cutComment false line) := by
      apply (List.dropWhile_suffix isLineNumber).subset
      rw [hw]
      exact List.mem_cons_self ..
    have hcommand : command <+: c :: s := by
      rw [← hc]
      exact List.cons_prefix_cons.mpr ⟨rfl, List.takeWhile_prefix _⟩
    have hword := hcommand.isInfix.trans (suffix_of_mem_words hmem).isInfix
    exact hword.trans (cutComment_isPrefix false line).isInfix

private theorem newline_notMem_of_mem_heatCommands {c : Text} (h : c ∈ heatCommands) : newline ∉ c := by
  revert c
  decide

private theorem isInfix_of_isInfix_map {c s : Text} (hc : newline ∉ c)
    (h : c <:+: s.map GCodeBuffer.crToNewline) : c <:+: s := by
  obtain ⟨l, hl, rfl⟩ := List.infix_map_iff.mp h
  rw [map_crToNewline]
  · exact hl
  · intro hcr
    exact hc (List.mem_map.mpr ⟨carriageReturn, hcr, rfl⟩)

/-- No line of a text in which the name of the command does not occur sets a target. -/
private theorem filterMap_lineTarget {c s : Text} (hc : c ∈ heatCommands) (hn : ¬ c <:+: s) {ls : List Text}
    (hls : ls ⊆ (s.map GCodeBuffer.crToNewline).splitOn newline) : ls.filterMap (lineTarget c) = [] := by
  rw [List.filterMap_eq_nil_iff]
  intro l hl
  by_contra hne
  obtain ⟨e, he⟩ := Option.ne_none_iff_exists'.mp hne
  have hline := (isInfix_of_lineTarget he).trans (isInfix_of_mem_splitOn (hls hl))
  exact hn (isInfix_of_isInfix_map (newline_notMem_of_mem_heatCommands hc) hline)

theorem heatTarget_of_not_isInfix {c gcode : Text} (hc : c ∈ heatCommands) (hn : ¬ c <:+: gcode) :
    heatTarget c gcode = none := by
  unfold heatTarget
  rw [filterMap_lineTarget hc hn (List.Subset.refl _)]
  rfl

private theorem stripComments_subset (keep : Bool) (inside : Bool) (s : Text) :
    stripComments keep inside s ⊆ s := by
  induction s generalizing inside with
  | nil => simp [stripComments]
  | cons c s ih =>
    have hskip : ∀ inside, stripComments keep inside s ⊆ c :: s := fun inside =>
      List.Subset.trans (ih inside) (List.subset_cons_self c s)
    cases inside with
    | true =>
      rw [stripComments]
      split_ifs with hc
      · rw [hc]
        exact List.cons_subset_cons newline (ih false)
      · exact hskip true
    | false =>
      rw [stripComments]
      split_ifs
      · exact hskip true
      · exact List.cons_subset_cons c (ih false)

private theorem semicolon_notMem_cutComment (l : Text) : semicolon ∉ cutComment false l := by
  induction l with
  | nil => simp [cutComment]
  | cons c l ih =>
    rw [cutComment]
    split_ifs with hc
    · simp
    · have hne : semicolon ≠ c := fun h => hc ⟨h.symm, rfl⟩
      simp [hne, ih]

/-- The gcode without its comments sets the same targets. -/
theorem heatTarget_stripComments (command gcode : Text) :
    heatTarget command (stripComments false false (gcode.map GCodeBuffer.crToNewline)) =
      heatTarget command gcode := by
  have hline : ∀ l, lineTarget command (cutComment false l) = lineTarget command l := fun l => by
    unfold lineTarget
    rw [cutComment_of_notMem (semicolon_notMem_cutComment l)]
  have hcr : carriageReturn ∉ stripComments false false (gcode.map GCodeBuffer.crToNewline) := by
    intro h
    obtain ⟨c, -, hc⟩ := List.mem_map.mp (stripComments_subset _ _ _ h)
    unfold GCodeBuffer.crToNewline at hc
    split_ifs at hc with hcr
    · exact absurd hc (by decide)
    · exact hcr hc
  unfold heatTarget
  rw [map_crToNewline hcr, (splitOn_stripComments false _).1, List.filterMap_map]
  congr 2
  funext l
  exact hline l

example : heatTarget (ascii "M109") (ascii "N7 M109 T0 R60.5*20\nM109 ;S9") = some 60 := by decide

/-! ### Where the search finds it -/

/-- The text ends where a line begins. -/
def AtLineStart (s : Text) : Prop := ∀ c ∈ s.getLast?, GCodeBuffer.crToNewline c = newline

/-- A part of a line with no words but line numbers, and no comment. -/
def OnlyNumbered (l : Text) : Prop :=
  ∀ c ∈ l, c ≠ newline ∧ c ≠ carriageReturn ∧ c ≠ semicolon ∧ (isLetter c = true → c = 78)

/-- The name of the command occurs last as the command of a line, and a blank, `S` or `R` and a number of 16
bits follow directly. -/
def Aligned (command gcode : Text) : Prop :=
  ∃ (a l : Text) (p : UInt8) (n : Decimal.Number) (t : Text),
    IsLast command gcode (a ++ l) (blank :: p :: (n.text ++ t)) ∧ AtLineStart a ∧ OnlyNumbered l ∧
      (p = 83 ∨ p = 82) ∧ Decimal.EndsDigits t ∧ 0 ≤ n.trunc ∧ n.trunc < 2 ^ 16

/-- `atof` reads numbers, and one that fits an `int` becomes that `int`. -/
def ReadsNumbers (atof : Text → Int32) : Prop :=
  ∀ s, IsInt32 (Decimal.integerPart s) → (atof s).toInt = Decimal.integerPart s

/-- The number two characters behind the last occurrence of the command's name fits an `int`, and is in its
last 16 bits the target that the last command of this kind sets. -/
def LandsOnTarget (command gcode : Text) : Prop :=
  ∃ a b e, IsLast command gcode a b ∧ 2 ≤ b.length ∧ heatTarget command gcode = some e ∧
    IsInt32 (Decimal.integerPart (cString (numeral (b.drop 2)))) ∧
    (u16 (Decimal.integerPart (cString (numeral (b.drop 2)))) : ℤ) = e

private theorem dropWhile_words {l : Text} (h : OnlyNumbered l) (s : Text) :
    (words (l ++ s)).dropWhile isLineNumber = (words s).dropWhile isLineNumber := by
  induction l with
  | nil => rfl
  | cons c l ih =>
    have htail : OnlyNumbered l := fun x hx => h x (List.mem_cons_of_mem _ hx)
    rw [List.cons_append, words]
    split_ifs with hc
    · have hN : c = 78 := (h c (List.mem_cons_self ..)).2.2.2 hc
      rw [List.dropWhile_cons_of_pos (by simp [isLineNumber, hN]), ih htail]
    · exact ih htail

/-- A number is read up to its end, whatever follows it. -/
theorem integerPart_numeral (n : Decimal.Number) {t : Text} (ht : Decimal.EndsDigits t) :
    Decimal.integerPart (cString (numeral (n.text ++ t))) = n.trunc := by
  have hnumeral : ∃ t', t' <+: t ∧ numeral (n.text ++ t) = n.text ++ t' := by
    unfold numeral
    split_ifs
    · exact ⟨_, List.takeWhile_prefix _, takeWhile_ne_append (n.notMem_text rfl) t⟩
    · exact ⟨_, List.takeWhile_prefix _, takeWhile_ne_append (n.notMem_text rfl) t⟩
  obtain ⟨t', ht', hf⟩ := hnumeral
  have hcut : cString (n.text ++ t') = n.text ++ cString t' :=
    takeWhile_ne_append (n.notMem_text rfl) t'
  rw [hf, hcut]
  exact n.integerPart_text_append ((ht.of_isPrefix ht').of_isPrefix (List.takeWhile_prefix _))

/-- A heat command is an `M` with digits. -/
private theorem exists_digits_of_mem_heatCommands {c : Text} (h : c ∈ heatCommands) :
    ∃ ds, c = 77 :: ds ∧ ∀ x ∈ ds, Decimal.isDigit x = true ∧ isLetter x = false := by
  revert c
  simp only [heatCommands, List.forall_mem_cons, List.not_mem_nil, false_imp_iff, implies_true, and_true]
  constructor
  · exact ⟨[49, 48, 57], rfl, by simp [Decimal.isDigit, isLetter]⟩
  · exact ⟨[49, 57, 48], rfl, by simp [Decimal.isDigit, isLetter]⟩

private theorem words_append {a : Text} (h : ∀ x ∈ a, isLetter x = false) (s : Text) :
    words (a ++ s) = words s := by
  induction a with
  | nil => rfl
  | cons c a ih =>
    rw [List.forall_mem_cons] at h
    rw [List.cons_append, words, h.1, if_neg (by simp), ih h.2]

/-- Nothing in front of the number ends the line or its code. -/
private theorem notMem_front {c l : Text} {p x : UInt8} (hc : c ∈ heatCommands) (hl : OnlyNumbered l)
    (hp : p = 83 ∨ p = 82) (hx : x = newline ∨ x = carriageReturn ∨ x = semicolon) :
    x ∉ l ++ (c ++ [blank, p]) := by
  have hxl : x ∉ l := fun h => by
    obtain ⟨hn, hr, hs, -⟩ := hl x h
    rcases hx with rfl | rfl | rfl <;> contradiction
  have hxc : x ∉ c := by
    revert c
    rcases hx with rfl | rfl | rfl <;> decide
  have hxp : x ∉ [blank, p] := by
    rcases hx with rfl | rfl | rfl <;> rcases hp with rfl | rfl <;> decide
  simp only [List.mem_append, not_or]
  exact ⟨hxl, hxc, hxp⟩

private theorem lineTarget_aligned {c l u : Text} (hc : c ∈ heatCommands) (hl : OnlyNumbered l) {p : UInt8}
    (hp : p = 83 ∨ p = 82) (hu : Decimal.hasNumber (cutComment false u) = true) :
    lineTarget c (l ++ (c ++ [blank, p]) ++ u) = some (Decimal.integerPart (cutComment false u)) := by
  have hcut := @cutComment_append false _ (notMem_front hc hl hp (.inr (.inr rfl))) u
  obtain ⟨ds, rfl, hds⟩ := exists_digits_of_mem_heatCommands hc
  have hsplit : l ++ (77 :: ds ++ [blank, p]) ++ cutComment false u =
      l ++ (77 :: (ds ++ blank :: p :: cutComment false u)) := by simp
  have hwords : words (77 :: (ds ++ blank :: p :: cutComment false u)) =
      (77, ds ++ blank :: p :: cutComment false u) :: (p, cutComment false u) ::
        words (cutComment false u) := by
    have hblank : isLetter blank = false := by decide
    have hletter : isLetter p = true := by rcases hp with rfl | rfl <;> decide
    rw [words, if_pos (by decide), words_append fun x hx => (hds x hx).2, words, hblank, if_neg (by simp),
      words, if_pos hletter]
  have htake : (ds ++ blank :: p :: cutComment false u).takeWhile Decimal.isDigit = ds := by
    rw [List.takeWhile_append_of_pos fun x hx => (hds x hx).1, List.takeWhile_cons_of_neg (by decide),
      List.append_nil]
  have htarget : isTarget (p, cutComment false u) = true := by
    rcases hp with rfl | rfl <;> simp [isTarget, hu]
  unfold lineTarget
  rw [hcut, hsplit, dropWhile_words hl, hwords, List.dropWhile_cons_of_neg (by simp [isLineNumber])]
  dsimp only
  rw [htake, if_pos rfl, List.find?_cons_of_pos htarget]
  rfl

private theorem endsDigits_map {t : Text} (ht : Decimal.EndsDigits t) :
    Decimal.EndsDigits (t.map GCodeBuffer.crToNewline) := by
  cases t with
  | nil => exact ht
  | cons c t =>
    rw [List.map_cons, Decimal.endsDigits_cons]
    unfold GCodeBuffer.crToNewline
    split_ifs
    · decide
    · exact Decimal.endsDigits_cons.mp ht

private theorem splitOn_atLineStart {a : Text} (ha : AtLineStart a) :
    ∃ ls : List Text, ∀ s : Text,
      (a.map GCodeBuffer.crToNewline ++ s).splitOn newline = ls ++ s.splitOn newline := by
  rcases List.eq_nil_or_concat a with rfl | ⟨b, c, rfl⟩
  · exact ⟨[], fun s => rfl⟩
  · have hc : GCodeBuffer.crToNewline c = newline := ha c (by simp)
    refine ⟨(b.map GCodeBuffer.crToNewline).splitOn newline, fun s => ?_⟩
    rw [List.concat_eq_append, List.map_append, List.map_singleton, hc, List.append_assoc,
      List.singleton_append, List.splitOn_append_cons_self]

theorem heatTarget_of_aligned {c gcode a l t : Text} {p : UInt8} {n : Decimal.Number} (hc : c ∈ heatCommands)
    (hlast : IsLast c gcode (a ++ l) (blank :: p :: (n.text ++ t))) (ha : AtLineStart a)
    (hl : OnlyNumbered l) (hp : p = 83 ∨ p = 82) (ht : Decimal.EndsDigits t) :
    heatTarget c gcode = some n.trunc := by
  have hfront := fun {x} => @notMem_front c l p x hc hl hp
  have htext : ∀ {x}, x = newline ∨ x = carriageReturn ∨ x = semicolon → x ∉ n.text := by
    rintro x (rfl | rfl | rfl)
    all_goals exact n.notMem_text rfl
  obtain ⟨h, ls, hs⟩ := exists_splitOn (t.map GCodeBuffer.crToNewline)
  have hmap : gcode.map GCodeBuffer.crToNewline = a.map GCodeBuffer.crToNewline ++
      (l ++ (c ++ [blank, p]) ++ (n.text ++ t.map GCodeBuffer.crToNewline)) := by
    have hsplit : gcode = a ++ (l ++ (c ++ [blank, p]) ++ (n.text ++ t)) := by
      rw [hlast.1]
      simp
    rw [hsplit, List.map_append, List.map_append, map_crToNewline (hfront (.inr (.inl rfl))),
      List.map_append, map_crToNewline (htext (.inr (.inl rfl)))]
  obtain ⟨before, hbefore⟩ := splitOn_atLineStart ha
  have hline : lineTarget c (l ++ (c ++ [blank, p]) ++ (n.text ++ h)) = some n.trunc := by
    have hcut := @cutComment_append false _ (htext (.inr (.inr rfl))) h
    have hnum : Decimal.hasNumber (cutComment false (n.text ++ h)) = true := by
      rw [hcut]
      exact n.hasNumber_text
    rw [lineTarget_aligned hc hl hp hnum, hcut]
    have hends := (endsDigits_map ht).of_isPrefix (prefix_of_splitOn hs)
    rw [n.integerPart_text_append (hends.of_isPrefix (cutComment_isPrefix false h))]
  have hnone : ¬ c <:+: t := fun hin => by
    have hrest : t <:+ blank :: p :: (n.text ++ t) := ⟨blank :: p :: n.text, by simp⟩
    have hne : c ≠ [] := List.ne_nil_of_length_pos (by rw [length_of_mem_heatCommands hc]; norm_num)
    exact hlast.not_isInfix hne (hin.trans hrest.isInfix)
  have hafter : ls.filterMap (lineTarget c) = [] := by
    apply filterMap_lineTarget hc hnone
    rw [hs]
    exact List.subset_cons_self h ls
  unfold heatTarget
  rw [hmap, hbefore, splitOn_append (hfront (.inl rfl)) (splitOn_append (htext (.inl rfl)) hs),
    List.filterMap_append, List.filterMap_cons_some hline, hafter, List.getLast?_append]
  rfl

theorem u16_eq {n : ℤ} (h0 : 0 ≤ n) (h : n < 2 ^ 16) : (u16 n : ℤ) = n := by
  unfold u16
  omega

theorem Aligned.landsOnTarget {c gcode : Text} (hc : c ∈ heatCommands) (h : Aligned c gcode) :
    LandsOnTarget c gcode := by
  obtain ⟨a, l, p, n, t, hlast, ha, hl, hp, ht, h0, h16⟩ := h
  have hdrop : (blank :: p :: (n.text ++ t)).drop 2 = n.text ++ t := rfl
  refine ⟨_, _, n.trunc, hlast, by simp, heatTarget_of_aligned hc hlast ha hl hp ht, ?_⟩
  rw [hdrop, integerPart_numeral n ht]
  exact ⟨⟨by omega, by omega⟩, u16_eq h0 h16⟩

/-- Whether the targets become those of the last commands that set one, and stay without any. -/
def FollowsHeat (gcode : Text) : Prop :=
  ∀ atof, ReadsNumbers atof → ∀ d : AbstractDriver, ∃ t bt : ℕ,
    d.extractGCodeInfo atof gcode = some { d with targetTemperature := t, targetBedTemperature := bt } ∧
      (t : ℤ) = (heatTarget (ascii "M109") gcode).getD d.targetTemperature ∧
      (bt : ℤ) = (heatTarget (ascii "M190") gcode).getD d.targetBedTemperature

def FollowsCommand (command gcode : Text) : Prop :=
  ∀ atof, ReadsNumbers atof → ∃ t,
    AbstractDriver.numberAt atof gcode ((rfindText command gcode).map (· + 6)) = some t ∧
      ∀ old : ℕ, (((t.map u16).getD old : ℕ) : ℤ) = (heatTarget command gcode).getD old

private theorem followsHeat_iff_each (gcode : Text) :
    FollowsHeat gcode ↔ ∀ c ∈ heatCommands, FollowsCommand c gcode := by
  simp only [heatCommands, List.forall_mem_cons, List.not_mem_nil, false_imp_iff, implies_true, and_true]
  constructor
  · intro h
    -- what is read does not depend on the targets that the driver had
    have heach : ∀ atof, ReadsNumbers atof → ∃ t bt,
        AbstractDriver.numberAt atof gcode ((rfindText (ascii "M109") gcode).map (· + 6)) = some t ∧
        AbstractDriver.numberAt atof gcode ((rfindText (ascii "M190") gcode).map (· + 6)) = some bt ∧
        (∀ old : ℕ, (((t.map u16).getD old : ℕ) : ℤ) = (heatTarget (ascii "M109") gcode).getD old) ∧
        ∀ old : ℕ, (((bt.map u16).getD old : ℕ) : ℤ) = (heatTarget (ascii "M190") gcode).getD old := by
      intro atof hatof
      obtain ⟨_, _, hread, -⟩ := h atof hatof {}
      obtain ⟨t, bt, ht, hbt, -⟩ := (extractGCodeInfo_eq_some ..).mp hread
      refine ⟨t, bt, ht, hbt, fun old => ?_, fun old => ?_⟩
      · obtain ⟨t₁, bt₁, hread, ht₁, -⟩ := h atof hatof { targetTemperature := old }
        obtain ⟨t', bt', ht', hbt', he⟩ := (extractGCodeInfo_eq_some ..).mp hread
        cases ht.symm.trans ht'
        have htarget : (t.map u16).getD old = t₁ := congrArg AbstractDriver.targetTemperature he
        rw [htarget]
        exact ht₁
      · obtain ⟨t₁, bt₁, hread, -, hbt₁⟩ := h atof hatof { targetBedTemperature := old }
        obtain ⟨t', bt', ht', hbt', he⟩ := (extractGCodeInfo_eq_some ..).mp hread
        cases hbt.symm.trans hbt'
        have htarget : (bt.map u16).getD old = bt₁ := congrArg AbstractDriver.targetBedTemperature he
        rw [htarget]
        exact hbt₁
    constructor
    · intro atof hatof
      obtain ⟨t, -, ht, -, htarget, -⟩ := heach atof hatof
      exact ⟨t, ht, htarget⟩
    · intro atof hatof
      obtain ⟨-, bt, -, hbt, -, htarget⟩ := heach atof hatof
      exact ⟨bt, hbt, htarget⟩
  · rintro ⟨hhotend, hbed⟩ atof hatof d
    obtain ⟨t, ht, htarget⟩ := hhotend atof hatof
    obtain ⟨bt, hbt, hbedTarget⟩ := hbed atof hatof
    exact ⟨_, _, (extractGCodeInfo_eq_some ..).mpr ⟨t, bt, ht, hbt, rfl⟩, htarget _, hbedTarget _⟩

/-- A reading of numbers that makes `w` of those that do not fit. -/
def reading (w : Int32) (s : Text) : Int32 :=
  if IsInt32 (Decimal.integerPart s) then Int32.ofInt (Decimal.integerPart s) else w

theorem readsNumbers_reading (w : Int32) : ReadsNumbers (reading w) := by
  intro s h
  rw [reading, if_pos h]
  exact Int32.toInt_ofInt_of_le h.1 h.2

/-- A number that is right whatever becomes of those that do not fit an `int` fits one. -/
theorem isInt32_of_reads {s : Text} {e : ℤ} (h : ∀ atof, ReadsNumbers atof → (u16 (atof s).toInt : ℤ) = e) :
    IsInt32 (Decimal.integerPart s) := by
  by_contra hfit
  have hvalue : ∀ w : Int32, (u16 w.toInt : ℤ) = e := fun w => by
    have he := h (reading w) (readsNumbers_reading w)
    rwa [reading, if_neg hfit] at he
  have hne := (hvalue 0).trans (hvalue 1).symm
  revert hne
  decide

private theorem follows_iff {c gcode : Text} (hc : c ∈ heatCommands) :
    FollowsCommand c gcode ↔ ¬ c <:+: gcode ∨ LandsOnTarget c gcode := by
  unfold FollowsCommand
  by_cases hin : c <:+: gcode
  · obtain ⟨a, b, hlast⟩ := exists_isLast hin
    simp only [numberAt_of_isLast _ (length_of_mem_heatCommands hc) hlast]
    constructor
    · intro h
      obtain ⟨t, ht, -⟩ := h (reading 0) (readsNumbers_reading 0)
      split_ifs at ht with hb
      have hread : ∀ atof, ReadsNumbers atof → ∀ old : ℕ,
          (u16 (atof (cString (numeral (b.drop 2)))).toInt : ℤ) = (heatTarget c gcode).getD old := by
        intro atof hatof
        obtain ⟨t, ht, htarget⟩ := h atof hatof
        rw [if_pos hb] at ht
        cases ht
        exact htarget
      cases he : heatTarget c gcode with
      | none =>
        have h0 := hread _ (readsNumbers_reading 0) 0
        have h1 := hread _ (readsNumbers_reading 0) 1
        rw [h0, he] at h1
        cases h1
      | some e =>
        have hvalue : ∀ atof, ReadsNumbers atof →
            (u16 (atof (cString (numeral (b.drop 2)))).toInt : ℤ) = e := fun atof hatof => by
          rw [hread atof hatof 0, he, Option.getD_some]
        have hfit := isInt32_of_reads hvalue
        refine .inr ⟨a, b, e, hlast, hb, he, hfit, ?_⟩
        rw [← readsNumbers_reading 0 _ hfit]
        exact hvalue _ (readsNumbers_reading 0)
    · rintro (hn | ⟨a', b', e, hlast', hb, he, hfit, hu⟩)
      · exact absurd hin hn
      · obtain ⟨rfl, rfl⟩ := hlast.unique hlast'
        intro atof hatof
        rw [if_pos hb, he]
        refine ⟨_, rfl, fun old => ?_⟩
        rw [hatof _ hfit]
        exact hu
  · refine iff_of_true (fun atof _ => ?_) (.inl hin)
    rw [numberAt_of_not_isInfix _ hin, heatTarget_of_not_isInfix hc hin]
    exact ⟨none, rfl, fun _ => rfl⟩

/-- The targets follow the commands of a text if each name of a heat command occurs nowhere in it, or
the search for the last occurrence lands on the right number, as it does where that occurrence is
itself the last such command, in its plain form. -/
theorem followsHeat_iff (gcode : Text) :
    (FollowsHeat gcode ↔ ∀ c ∈ heatCommands, ¬ c <:+: gcode ∨ LandsOnTarget c gcode) ∧
      ∀ c ∈ heatCommands, Aligned c gcode → LandsOnTarget c gcode := by
  constructor
  · rw [followsHeat_iff_each]
    exact forall₂_congr fun c hc => follows_iff hc
  · exact fun c hc h => h.landsOnTarget hc

/-- A command in a comment sets the target. -/
theorem not_followsHeat_comment : ¬ ∀ gcode, FollowsHeat gcode := by
  intro h
  obtain ⟨t, bt, hread, htarget, -⟩ :=
    h (ascii "M109 S200 ;M109 S0") (reading 0) (readsNumbers_reading 0) {}
  have htwo : heatTarget (ascii "M109") (ascii "M109 S200 ;M109 S0") = some 200 := by decide
  rw [htwo, Option.getD_some] at htarget
  have hzero : (({} : AbstractDriver).extractGCodeInfo (reading 0) (ascii "M109 S200 ;M109 S0")).map
      (·.targetTemperature) = some 0 := by decide
  rw [hread] at hzero
  cases hzero
  cases htarget

end Print3D
