import Mathlib.Tactic

/-! Lists whose elements can open and can close a segment. An element is in the segment that
starts at the latest one before it that opens one or follows one that closes one. -/
namespace Segments

variable {α : Type*} (first last : α → Bool) {l : List α} {a : α} {i : ℕ}

/-- Whether a segment starts at position `i`. -/
def Opens (l : List α) (i : ℕ) : Prop := l[i]?.any first = true ∨ 0 < i ∧ l[i - 1]?.any last = true

instance (l : List α) : DecidablePred (Opens first last l) := fun _ => inferInstanceAs (Decidable (_ ∨ _))

/-- Where the segment of the last element starts. -/
def start (l : List α) : ℕ := Nat.findGreatest (Opens first last l) (l.length - 1)

/-- The segment of the last element, up to this element. -/
def segment (l : List α) : List α := l.drop (start first last l)

/-- What the next element finds in its segment if it does not open one. -/
def pending (l : List α) : List α := if l.getLast?.any last then [] else segment first last l

theorem opens_append_of_lt (h : i < l.length) : Opens first last (l ++ [a]) i ↔ Opens first last l i := by
  unfold Opens
  rw [List.getElem?_append_left h, List.getElem?_append_left (by omega)]

theorem opens_append_length :
    Opens first last (l ++ [a]) l.length ↔ first a = true ∨ l.getLast?.any last = true := by
  unfold Opens
  rw [List.getElem?_append_right le_rfl, Nat.sub_self, List.getLast?_eq_getElem?]
  rcases Nat.eq_zero_or_pos l.length with h | h
  · simp [List.eq_nil_of_length_eq_zero h]
  · rw [List.getElem?_append_left (by omega)]
    simp [h]

theorem start_append : start first last (l ++ [a]) =
    if first a ∨ l.getLast?.any last then l.length else start first last l := by
  unfold start
  rw [List.length_append, List.length_singleton, Nat.add_sub_cancel]
  cases hn : l.length with
  | zero => simp [List.eq_nil_of_length_eq_zero hn]
  | succ n =>
    have hopens := opens_append_length first last (l := l) (a := a)
    rw [hn] at hopens
    rw [Nat.findGreatest_succ, Nat.add_sub_cancel]
    by_cases h : first a ∨ l.getLast?.any last
    · rw [if_pos (hopens.mpr h), if_pos h]
    · rw [if_neg (mt hopens.mp h), if_neg h]
      -- no position before the last one sees the new element
      have hbefore : ∀ m ≤ n, Nat.findGreatest (Opens first last (l ++ [a])) m =
          Nat.findGreatest (Opens first last l) m := by
        intro m hm
        induction m with
        | zero => rfl
        | succ m ih =>
          rw [Nat.findGreatest_succ, Nat.findGreatest_succ, ih (by omega)]
          exact if_congr (opens_append_of_lt first last (by omega)) rfl rfl
      exact hbefore n le_rfl

theorem start_le_length (l : List α) : start first last l ≤ l.length :=
  (Nat.findGreatest_le _).trans (Nat.sub_le ..)

/-- An element goes behind what is open, or starts anew. -/
theorem segment_append (l : List α) (a : α) : segment first last (l ++ [a]) =
    (if first a then [] else pending first last l) ++ [a] := by
  unfold segment pending
  rw [start_append]
  by_cases hfirst : first a = true
  · rw [if_pos (.inl hfirst), if_pos hfirst, List.drop_left, List.nil_append]
  · by_cases hlast : l.getLast?.any last = true
    · rw [if_pos (.inr hlast), if_neg hfirst, if_pos hlast, List.drop_left, List.nil_append]
    · rw [if_neg (not_or.mpr ⟨hfirst, hlast⟩), if_neg hfirst, if_neg hlast,
        List.drop_append_of_le_length (start_le_length first last l)]
      rfl

theorem pending_append (l : List α) (a : α) : pending first last (l ++ [a]) =
    if last a then [] else segment first last (l ++ [a]) := by
  rw [pending, List.getLast?_append, List.getLast?_singleton]
  rfl

end Segments
