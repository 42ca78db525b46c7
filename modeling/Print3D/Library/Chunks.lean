import Mathlib.Tactic

/-! Cutting a text into packets of at most `m` elements, each at the last separator that fits. -/
namespace Chunks

variable {α : Type*} [DecidableEq α] {sep : α} {s t p l : List α} {m n : ℕ}

/-- The lines of a text, with their separators; the last one can be without. -/
def pieces (sep : α) : List α → List (List α)
  | [] => []
  | c :: s =>
    if c = sep then [c] :: pieces sep s
    else match pieces sep s with
      | [] => [[c]]
      | l :: ls => (c :: l) :: ls

/-- Every line fits in a packet. -/
def Fits (m : ℕ) (sep : α) (s : List α) : Prop := ∀ l ∈ pieces sep s, l.length ≤ m

instance : Decidable (Fits m sep s) := inferInstanceAs (Decidable (∀ l ∈ pieces sep s, l.length ≤ m))

/-- How many of the first `n` elements there are up to the last separator among them. -/
def lastBreak (sep : α) (s : List α) : ℕ → ℕ
  | 0 => 0
  | n + 1 => if s[n]? = some sep then n + 1 else lastBreak sep s n

/-! ### Lines -/

theorem pieces_flatten (s : List α) : (pieces sep s).flatten = s := by
  induction s with
  | nil => rfl
  | cons c s ih =>
    unfold pieces
    split_ifs with hc
    · rw [List.flatten_cons, ih]
      rfl
    · cases hs : pieces sep s with
      | nil =>
        rw [hs] at ih
        rw [← ih]
        rfl
      | cons l ls =>
        rw [hs, List.flatten_cons] at ih
        change c :: (l ++ ls.flatten) = c :: s
        rw [ih]

theorem ne_nil_of_mem_pieces (h : l ∈ pieces sep s) : l ≠ [] := by
  induction s generalizing l with
  | nil => cases h
  | cons c s ih =>
    unfold pieces at h
    split_ifs at h with hc
    · rcases List.mem_cons.mp h with rfl | h
      · exact List.cons_ne_nil c []
      · exact ih h
    · cases hs : pieces sep s with
      | nil =>
        rw [hs] at h
        rw [List.mem_singleton.mp h]
        exact List.cons_ne_nil c []
      | cons l' ls =>
        rw [hs] at h ih
        rcases List.mem_cons.mp h with rfl | h
        · exact List.cons_ne_nil c l'
        · exact ih (List.mem_cons_of_mem _ h)

theorem pieces_append_of_notMem (hp : sep ∉ p) (ht : t ≠ []) :
    ∃ l ls, pieces sep t = l :: ls ∧ pieces sep (p ++ t) = (p ++ l) :: ls := by
  induction p with
  | nil =>
    cases hpieces : pieces sep t with
    | nil =>
      have hflat : (pieces sep t).flatten = t := pieces_flatten t
      rw [hpieces] at hflat
      exact absurd hflat.symm ht
    | cons l ls => exact ⟨l, ls, rfl, hpieces⟩
  | cons c p ih =>
    rw [List.mem_cons, not_or] at hp
    obtain ⟨l, ls, ht, hpt⟩ := ih hp.2
    refine ⟨l, ls, ht, ?_⟩
    rw [List.cons_append, pieces, if_neg (Ne.symm hp.1), hpt]
    rfl

theorem pieces_append_cons (s t : List α) :
    pieces sep (s ++ sep :: t) = pieces sep (s ++ [sep]) ++ pieces sep t := by
  induction s with
  | nil => simp [pieces]
  | cons c s ih =>
    rw [List.cons_append, List.cons_append, pieces, pieces, ih]
    split_ifs with hc
    · rfl
    · cases hs : pieces sep (s ++ [sep]) with
      | nil =>
        have hflat : (pieces sep (s ++ [sep])).flatten = s ++ [sep] := pieces_flatten (s ++ [sep])
        rw [hs] at hflat
        exact absurd hflat.symm (by simp)
      | cons l ls => rfl

/-! ### Packets -/

theorem length_le_of_mem_pieces (h : l ∈ pieces sep s) : l.length ≤ s.length := by
  have hle := (List.sublist_flatten_of_mem h).length_le
  rwa [pieces_flatten] at hle

theorem fits_of_length_le (h : s.length ≤ m) : Fits m sep s :=
  fun _ hl => (length_le_of_mem_pieces hl).trans h

theorem fits_append_cons : Fits m sep (s ++ sep :: t) ↔ Fits m sep (s ++ [sep]) ∧ Fits m sep t := by
  unfold Fits
  rw [pieces_append_cons]
  exact List.forall_mem_append

theorem lastBreak_le (s : List α) (n : ℕ) : lastBreak sep s n ≤ n := by
  induction n with
  | zero => exact le_rfl
  | succ n ih =>
    unfold lastBreak
    split_ifs
    · exact le_rfl
    · exact ih.trans (Nat.le_succ n)

theorem notMem_of_lastBreak_eq_zero (h : lastBreak sep s n = 0) : sep ∉ s.take n := by
  induction n with
  | zero => simp
  | succ n ih =>
    unfold lastBreak at h
    split_ifs at h with hn
    rw [List.take_add_one, List.mem_append, not_or]
    exact ⟨ih h, fun hmem => hn (Option.mem_toList.mp hmem)⟩

theorem lastBreak_split (h : 0 < lastBreak sep s n) :
    ∃ p, p.length + 1 = lastBreak sep s n ∧ s = p ++ sep :: s.drop (lastBreak sep s n) := by
  induction n with
  | zero => exact absurd h (lt_irrefl 0)
  | succ n ih =>
    unfold lastBreak at h ⊢
    split_ifs at h ⊢ with hn
    · obtain ⟨hlt, hsep⟩ := List.getElem?_eq_some_iff.mp hn
      refine ⟨s.take n, by rw [List.length_take_of_le hlt.le], ?_⟩
      rw [← hsep, ← List.drop_eq_getElem_cons hlt, List.take_append_drop]
    · exact ih h

/-- A text that is too long, without a separator where it could be cut, has a line that is too long. -/
theorem not_fits_of_lastBreak_eq_zero (hlen : m < s.length) (h : lastBreak sep s m = 0) : ¬ Fits m sep s := by
  have hdrop : s.drop m ≠ [] := fun hnil => by
    have := List.drop_eq_nil_iff.mp hnil
    omega
  obtain ⟨l, ls, hl, hs⟩ := pieces_append_of_notMem (notMem_of_lastBreak_eq_zero h) hdrop
  rw [List.take_append_drop] at hs
  have hpos := List.length_pos_of_ne_nil (ne_nil_of_mem_pieces (hl ▸ List.mem_cons_self ..))
  intro hfits
  have hle := hfits _ (hs ▸ List.mem_cons_self ..)
  rw [List.length_append, List.length_take_of_le hlen.le] at hle
  omega

/-- Cutting a packet off does not change whether all lines fit. -/
theorem fits_drop_lastBreak (h : 0 < lastBreak sep s m) :
    Fits m sep (s.drop (lastBreak sep s m)) ↔ Fits m sep s := by
  obtain ⟨p, hp, hs⟩ := lastBreak_split h
  have hpacket : Fits m sep (p ++ [sep]) := by
    apply fits_of_length_le
    rw [List.length_append, List.length_singleton, hp]
    exact lastBreak_le s m
  have hiff : Fits m sep s ↔ _ := hs ▸ fits_append_cons
  exact ⟨fun hrest => hiff.mpr ⟨hpacket, hrest⟩, fun hfits => (hiff.mp hfits).2⟩

end Chunks
