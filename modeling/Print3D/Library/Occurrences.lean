import Mathlib.Tactic
import Mathlib.Data.List.Infix

/-! Where a pattern occurs in a list: the first place from some index on, and the last one. -/
namespace Occurrences

variable {α : Type*} [DecidableEq α]

/-- The first index from `start` on at which `p` occurs. -/
def firstFrom (p : List α) (start : ℕ) (s : List α) : Option ℕ :=
  (List.range (s.length + 1)).find? fun i => start ≤ i ∧ p <+: s.drop i

def last (p s : List α) : Option ℕ := (List.range (s.length + 1)).reverse.find? fun i => p <+: s.drop i

variable {p s a b : List α} {c : α} {i j : ℕ}

omit [DecidableEq α] in
theorem isInfix_iff : p <:+: s ↔ ∃ i ≤ s.length, p <+: s.drop i := by
  constructor
  · rintro ⟨a, b, rfl⟩
    refine ⟨a.length, by simp, ?_⟩
    rw [List.append_assoc, List.drop_left]
    exact List.prefix_append p b
  · rintro ⟨i, -, h⟩
    exact h.isInfix.trans (List.drop_suffix i s).isInfix

theorem firstFrom_eq_none : firstFrom p 0 s = none ↔ ¬ p <:+: s := by
  rw [isInfix_iff]
  simp [firstFrom]

/-- An occurrence with none in front of it is the first one. -/
theorem firstFrom_append (h : ∀ i < a.length, ¬ p <+: (a ++ (p ++ b)).drop i) :
    firstFrom p 0 (a ++ (p ++ b)) = some a.length := by
  rw [firstFrom, List.find?_range_eq_some]
  refine ⟨?_, ?_, fun i hi => ?_⟩
  · simp
  · simp
  · simpa using h i hi

/-- A pattern does not begin within a part that does not have its first element. -/
theorem firstFrom_append_cons (h : c ∉ a) :
    firstFrom (c :: p) 0 (a ++ (c :: p ++ b)) = some a.length := by
  apply firstFrom_append
  intro i hi hpre
  rw [List.drop_append_of_le_length hi.le] at hpre
  obtain ⟨d, t, hd⟩ := List.exists_cons_of_length_pos (l := a.drop i) (by rw [List.length_drop]; omega)
  rw [hd, List.cons_append, List.cons_prefix_cons] at hpre
  apply h
  apply List.drop_subset i a
  rw [hd, hpre.1]
  exact List.mem_cons_self ..

omit [DecidableEq α] in
theorem isInfix_append_of_notMem (h : c ∉ a) : c :: p <:+: a ++ s ↔ c :: p <:+: s := by
  induction a with
  | nil => rfl
  | cons d a ih =>
    rw [List.mem_cons, not_or] at h
    rw [List.cons_append, List.infix_cons_iff, ih h.2, List.cons_prefix_cons, or_iff_right fun hd => h.1 hd.1]

private theorem find?_reverse_range (f : ℕ → Bool) (n : ℕ) :
    (List.range n).reverse.find? f = some i ↔ i < n ∧ f i = true ∧ ∀ j < n, f j = true → j ≤ i := by
  induction n with
  | zero => simp
  | succ n ih =>
    rw [List.range_succ, List.reverse_append, List.reverse_singleton, List.singleton_append]
    by_cases hn : f n = true
    · rw [List.find?_cons_of_pos hn, Option.some.injEq]
      constructor
      · rintro rfl
        exact ⟨Nat.lt_succ_self _, hn, fun j hj _ => Nat.lt_succ_iff.mp hj⟩
      · rintro ⟨hi, -, hmax⟩
        have := hmax n (Nat.lt_succ_self n) hn
        omega
    · rw [List.find?_cons_of_neg hn, ih]
      constructor
      · rintro ⟨hi, hf, hmax⟩
        refine ⟨by omega, hf, fun j hj hfj => ?_⟩
        rcases Nat.lt_succ_iff_lt_or_eq.mp hj with hj | rfl
        · exact hmax j hj hfj
        · exact absurd hfj hn
      · rintro ⟨hi, hf, hmax⟩
        have hne : i ≠ n := fun h => hn (h ▸ hf)
        exact ⟨by omega, hf, fun j hj => hmax j (by omega)⟩

theorem last_eq_none : last p s = none ↔ ¬ p <:+: s := by
  rw [isInfix_iff]
  simp [last]

theorem last_eq_some_iff : last p s = some i ↔
    i ≤ s.length ∧ p <+: s.drop i ∧ ∀ j ≤ s.length, p <+: s.drop j → j ≤ i := by
  simp [last, find?_reverse_range]

/-- `s` is `a`, the last occurrence of `p` and `b`. -/
def IsLast (p s a b : List α) : Prop := s = a ++ (p ++ b) ∧ ∀ a' b', s = a' ++ (p ++ b') → b.length ≤ b'.length

theorem last_eq_some (h : last p s = some i) : ∃ a b, IsLast p s a b := by
  obtain ⟨hi, ⟨b, hb⟩, hmax⟩ := last_eq_some_iff.mp h
  have hs : s = s.take i ++ (p ++ b) := by rw [hb, List.take_append_drop]
  refine ⟨s.take i, b, hs, fun a' b' h' => ?_⟩
  have hle := hmax a'.length (by rw [h', List.length_append]; omega) (by
    rw [h', List.drop_left]
    exact List.prefix_append p b')
  have hlen := congrArg List.length hs
  have hlen' := congrArg List.length h'
  simp only [List.length_append, List.length_take_of_le hi] at hlen hlen'
  omega

omit [DecidableEq α] in
theorem IsLast.unique {a' b' : List α} (h : IsLast p s a b) (h' : IsLast p s a' b') : a = a' ∧ b = b' := by
  have hlen : b.length = b'.length := Nat.le_antisymm (h.2 a' b' h'.1) (h'.2 a b h.1)
  have heq := h.1.symm.trans h'.1
  rw [← List.append_assoc, ← List.append_assoc] at heq
  obtain ⟨hap, hb⟩ := List.append_inj' heq hlen
  exact ⟨List.append_cancel_right hap, hb⟩

theorem IsLast.last_eq (h : IsLast p s a b) : last p s = some a.length := by
  refine last_eq_some_iff.mpr ⟨?_, ?_, fun j hj hpre => ?_⟩
  · rw [h.1, List.length_append]
    omega
  · rw [h.1, List.drop_left]
    exact List.prefix_append p b
  · obtain ⟨b', hb'⟩ := hpre
    have hs : s = s.take j ++ (p ++ b') := by rw [hb', List.take_append_drop]
    have hle := h.2 _ _ hs
    have hlen := congrArg List.length h.1
    have hlen' := congrArg List.length hs
    simp only [List.length_append, List.length_take_of_le hj] at hlen hlen'
    omega

theorem exists_isLast (h : p <:+: s) : ∃ a b, IsLast p s a b := by
  cases hl : last p s with
  | none => exact absurd h (last_eq_none.mp hl)
  | some i => exact last_eq_some hl

omit [DecidableEq α] in
theorem IsLast.not_isInfix (h : IsLast p s a b) (hp : p ≠ []) : ¬ p <:+: b := by
  rintro ⟨u, v, huv⟩
  have hle := h.2 (a ++ p ++ u) v (by rw [h.1, ← huv]; simp)
  have hlen := congrArg List.length huv
  have hpos := List.length_pos_iff.mpr hp
  simp only [List.length_append] at hlen
  omega

end Occurrences
