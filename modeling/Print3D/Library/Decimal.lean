import Mathlib.Tactic
import Mathlib.Data.List.TakeWhile

/-! Decimal numbers in texts of bytes: how they are written, and the integer part of the number at
the front of a text. -/
namespace Decimal

def isDigit (c : UInt8) : Bool := 48 ≤ c && c ≤ 57

/-- Blank, tabulators and line ends. -/
def isSpace (c : UInt8) : Bool := c = 32 || (9 ≤ c && c ≤ 13)

def minus : UInt8 := 45
def plus : UInt8 := 43
def point : UInt8 := 46

def value (ds : List UInt8) : ℕ := ds.foldl (fun n c => 10 * n + (c.toNat - 48)) 0

def digits (n : ℕ) : List UInt8 :=
  if n = 0 then [48] else (Nat.digits 10 n).reverse.map fun d => 48 + UInt8.ofNat d

/-- An integer as it is printed. -/
def ofInt (n : ℤ) : List UInt8 := (if n < 0 then [minus] else []) ++ digits n.natAbs

/-- The value of the digits in front. -/
def leading (s : List UInt8) : ℕ := value (s.takeWhile isDigit)

/-- The integer part of the decimal number at the front of a text, which may follow white space and
have a sign; 0 if there is no number. -/
def integerPart (s : List UInt8) : ℤ :=
  match s.dropWhile isSpace with
  | [] => 0
  | c :: t => if c = minus then -leading t else if c = plus then leading t else leading (c :: t)

/-- Whether a decimal number without sign is at the front. -/
def startsUnsigned : List UInt8 → Bool
  | [] => false
  | c :: t => isDigit c || (c = point && t.head?.any isDigit)

/-- Whether `integerPart` finds a number. -/
def hasNumber (s : List UInt8) : Bool :=
  match s.dropWhile isSpace with
  | [] => false
  | c :: t => if c = minus ∨ c = plus then startsUnsigned t else startsUnsigned (c :: t)

/-- The text does not go on with a digit. -/
def EndsDigits (t : List UInt8) : Prop := ∀ c, t.head? = some c → isDigit c = false

variable {s t u : List UInt8} {c : UInt8}

theorem length_ofInt {n : ℤ} (h : n ≠ 0) :
    (ofInt n).length = (if n < 0 then 1 else 0) + (Nat.log 10 n.natAbs + 1) := by
  have hne : n.natAbs ≠ 0 := Int.natAbs_ne_zero.mpr h
  rw [ofInt, digits, if_neg hne, List.length_append, List.length_map, List.length_reverse,
    Nat.length_digits 10 _ (by norm_num) hne]
  split_ifs <;> rfl

theorem endsDigits_nil : EndsDigits [] := nofun

theorem endsDigits_cons : EndsDigits (c :: t) ↔ isDigit c = false := by
  simp [EndsDigits]

theorem EndsDigits.of_isPrefix (h : EndsDigits t) (hs : s <+: t) : EndsDigits s := by
  intro c hc
  obtain ⟨r, rfl⟩ := hs
  apply h c
  rw [List.head?_append, hc]
  rfl

theorem leading_append (ht : EndsDigits t) : leading (u ++ t) = leading u := by
  have hnil : t.takeWhile isDigit = [] := by
    cases t with
    | nil => rfl
    | cons c t => rw [List.takeWhile_cons_of_neg (by simp [endsDigits_cons.mp ht])]
  unfold leading
  rw [List.takeWhile_append, hnil, List.append_nil]
  split_ifs with hlen
  · rw [(List.takeWhile_prefix isDigit).eq_of_length hlen]
  · rfl

/-- A decimal number as it is written. -/
structure Number where
  negative : Bool
  whole : List UInt8
  fraction : Option (List UInt8)
  digits : ∀ c ∈ whole ++ fraction.getD [], isDigit c = true
  ne_nil : whole ++ fraction.getD [] ≠ []

namespace Number

/-- A number without sign and fraction. -/
def ofDigits (ds : List UInt8) (h : ds.all isDigit = true) (hne : ds ≠ []) : Number where
  negative := false
  whole := ds
  fraction := none
  digits := by
    rw [Option.getD_none, List.append_nil]
    exact List.all_eq_true.mp h
  ne_nil := by rwa [Option.getD_none, List.append_nil]

variable (n : Number)

def unsigned : List UInt8 := n.whole ++ n.fraction.elim [] fun ds => point :: ds

def text : List UInt8 := (if n.negative then [minus] else []) ++ n.unsigned

def trunc : ℤ := if n.negative then -value n.whole else value n.whole

theorem mem_unsigned (h : c ∈ n.unsigned) : isDigit c = true ∨ c = point := by
  rcases List.mem_append.mp h with h | h
  · exact .inl (n.digits c (List.mem_append_left _ h))
  · cases hf : n.fraction with
    | none => simp [hf] at h
    | some ds =>
      rw [hf, Option.elim_some, List.mem_cons] at h
      refine h.elim .inr fun h => .inl (n.digits c (List.mem_append_right _ ?_))
      rwa [hf]

theorem unsigned_ne_nil : n.unsigned ≠ [] := by
  intro h
  obtain ⟨hwhole, hfraction⟩ := List.append_eq_nil_iff.mp h
  apply n.ne_nil
  cases hf : n.fraction with
  | none => simp [hwhole]
  | some ds => simp [hf] at hfraction

theorem mem_text (h : c ∈ n.text) : isDigit c = true ∨ c = minus ∨ c = point := by
  rcases List.mem_append.mp h with h | h
  · split_ifs at h
    · exact .inr (.inl (List.mem_singleton.mp h))
    · cases h
  · exact (n.mem_unsigned h).imp_right .inr

theorem text_ne_nil : n.text ≠ [] := fun h => n.unsigned_ne_nil (List.append_eq_nil_iff.mp h).2

theorem isSpace_of_mem_text (h : c ∈ n.text) : isSpace c = false := by
  rcases n.mem_text h with h | rfl | rfl
  · simp only [isDigit, Bool.and_eq_true, decide_eq_true_eq, UInt8.le_iff_toNat_le] at h
    simp only [isSpace, ← UInt8.toNat_inj, UInt8.le_iff_toNat_le]
    have h48 : (48 : UInt8).toNat = 48 := rfl
    have h32 : (32 : UInt8).toNat = 32 := rfl
    have h13 : (13 : UInt8).toNat = 13 := rfl
    simp only [Bool.or_eq_false_iff, Bool.and_eq_false_iff, decide_eq_false_iff_not]
    omega
  · decide
  · decide

theorem leading_unsigned : leading n.unsigned = value n.whole := by
  have hends : EndsDigits (n.fraction.elim [] fun ds => point :: ds) := by
    cases n.fraction with
    | none => exact endsDigits_nil
    | some ds => exact endsDigits_cons.mpr (by decide)
  have hwhole : n.whole.takeWhile isDigit = n.whole := by
    rw [List.takeWhile_eq_self_iff]
    exact fun c hc => n.digits c (List.mem_append_left _ hc)
  rw [unsigned, leading_append hends, leading, hwhole]

theorem notMem_text (h : (isDigit c || c = minus || c = point) = false) : c ∉ n.text := by
  intro hmem
  simp only [Bool.or_eq_false_iff, decide_eq_false_iff_not] at h
  obtain ⟨⟨hdigit, hminus⟩, hpoint⟩ := h
  rcases n.mem_text hmem with hc | hc | hc
  · rw [hdigit] at hc
    cases hc
  · exact hminus hc
  · exact hpoint hc

theorem exists_unsigned_eq_cons : ∃ c u, n.unsigned = c :: u ∧ c ≠ minus ∧ c ≠ plus := by
  obtain ⟨c, u, hcu⟩ := List.exists_cons_of_ne_nil n.unsigned_ne_nil
  have hmem : c ∈ n.unsigned := by
    rw [hcu]
    exact List.mem_cons_self ..
  refine ⟨c, u, hcu, ?_, ?_⟩
  all_goals
    rintro rfl
    exact absurd (n.mem_unsigned hmem) (by decide)

theorem dropWhile_isSpace_text : (n.text ++ t).dropWhile isSpace = n.text ++ t := by
  obtain ⟨c, u, hcu⟩ := List.exists_cons_of_ne_nil n.text_ne_nil
  have hspace : isSpace c = false := n.isSpace_of_mem_text (by rw [hcu]; exact List.mem_cons_self ..)
  rw [hcu, List.cons_append, List.dropWhile_cons_of_neg (by simp [hspace])]

/-- Reading gives the integer part of the number written in front. -/
theorem integerPart_text_append (ht : EndsDigits t) : integerPart (n.text ++ t) = n.trunc := by
  have hval : leading (n.unsigned ++ t) = value n.whole := by rw [leading_append ht, leading_unsigned]
  unfold integerPart
  rw [dropWhile_isSpace_text, text, trunc]
  cases n.negative with
  | true =>
    simp only [if_true, List.cons_append, List.nil_append]
    rw [hval]
  | false =>
    obtain ⟨c, u, hcu, hm, hp⟩ := n.exists_unsigned_eq_cons
    simp only [Bool.false_eq_true, if_false, List.nil_append]
    rw [hcu, List.cons_append] at hval ⊢
    simp only [if_neg hm, if_neg hp]
    rw [hval]

theorem startsUnsigned_unsigned : startsUnsigned (n.unsigned ++ t) = true := by
  unfold unsigned
  cases hw : n.whole with
  | cons c u =>
    have hc : isDigit c = true := n.digits c (by simp [hw])
    simp [startsUnsigned, hc]
  | nil =>
    cases hf : n.fraction with
    | none => exact absurd (by simp [hw, hf]) n.ne_nil
    | some ds =>
      cases ds with
      | nil => exact absurd (by simp [hw, hf]) n.ne_nil
      | cons c ds =>
        have hc : isDigit c = true := n.digits c (by simp [hf])
        simp [startsUnsigned, hc]

theorem hasNumber_text : hasNumber (n.text ++ t) = true := by
  unfold hasNumber
  rw [dropWhile_isSpace_text, text]
  cases n.negative with
  | true =>
    simp only [if_true, List.cons_append, List.nil_append, true_or]
    exact n.startsUnsigned_unsigned
  | false =>
    obtain ⟨c, u, hcu, hm, hp⟩ := n.exists_unsigned_eq_cons
    have hstart := n.startsUnsigned_unsigned (t := t)
    simp only [Bool.false_eq_true, if_false, List.nil_append]
    rw [hcu, List.cons_append] at hstart ⊢
    simp only [hm, hp, or_self, if_false]
    exact hstart

end Number
end Decimal
