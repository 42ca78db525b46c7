import Mathlib.Tactic
import Mathlib.Data.List.TakeWhile

/-! Texts as lists of lines over any alphabet: searching and editing at an index,
and the correspondence between a text and its lines, each ended by a separator. -/
namespace Lines

variable {α : Type*} [DecidableEq α]

/-- The first index from `start` on that holds `c`. -/
def find (c : α) (start : ℕ) (s : List α) : Option ℕ :=
  ((s.drop start).findIdx? (· = c)).map (start + ·)

/-- The first index from `start` on that holds `c` and is followed by `d`. -/
def findPair (c d : α) : ℕ → List α → Option ℕ
  | _, [] => none
  | start, x :: s =>
    if start = 0 ∧ x = c ∧ s.head? = some d then some 0
    else (findPair c d (start - 1) s).map (1 + ·)

/-- `s` without its `n` elements from `pos` on. -/
def erase (pos n : ℕ) (s : List α) : List α := s.take pos ++ s.drop (pos + n)

/-- The text of the lines `ls`, each ended by `sep`. -/
def unlines (sep : α) (ls : List (List α)) : List α := ls.flatMap (· ++ [sep])

/-- A line of a text: not empty and without separator. -/
def IsLine (sep : α) (l : List α) : Prop := l ≠ [] ∧ sep ∉ l

instance (sep : α) (l : List α) : Decidable (IsLine sep l) := by
  unfold IsLine
  infer_instance

variable {sep c d : α} {s t : List α} {ls ms : List (List α)}

omit [DecidableEq α] in
@[simp] theorem unlines_nil : unlines sep [] = [] := rfl

omit [DecidableEq α] in
@[simp] theorem unlines_cons (l : List α) : unlines sep (l :: ls) = l ++ sep :: unlines sep ls := by
  simp [unlines]

omit [DecidableEq α] in
@[simp] theorem unlines_append : unlines sep (ls ++ ms) = unlines sep ls ++ unlines sep ms := by
  simp [unlines]

omit [DecidableEq α] in
theorem unlines_flatten (lss : List (List (List α))) :
    unlines sep lss.flatten = (lss.map (unlines sep)).flatten := by
  induction lss with
  | nil => rfl
  | cons ls lss ih => simp [ih]

omit [DecidableEq α] in
@[simp] theorem unlines_eq_nil : unlines sep ls = [] ↔ ls = [] := by
  cases ls <;> simp

omit [DecidableEq α] in
theorem getLast?_unlines (h : ls ≠ []) : (unlines sep ls).getLast? = some sep := by
  obtain ⟨ms, l, rfl⟩ := (List.eq_nil_or_concat ls).resolve_left h
  simp

theorem count_unlines (h : ∀ l ∈ ls, sep ∉ l) : (unlines sep ls).count sep = ls.length := by
  induction ls with
  | nil => rfl
  | cons l ls ih =>
    have hl : l.count sep = 0 := List.count_eq_zero.mpr (h l (by simp))
    have ht := ih fun m hm => h m (by simp [hm])
    simp [hl, ht]

omit [DecidableEq α] in
/-- Shortening lines and leaving out the empty ones shortens the text, unless it changes nothing. -/
theorem length_unlines_filter {f : List α → List α} (hf : ∀ l ∈ ls, f l <+: l) :
    (unlines sep ((ls.map f).filter (· ≠ []))).length ≤ (unlines sep ls).length ∧
      ((unlines sep ((ls.map f).filter (· ≠ []))).length = (unlines sep ls).length ↔
        ∀ l ∈ ls, l ≠ [] ∧ f l = l) := by
  induction ls with
  | nil => simp
  | cons l ls ih =>
    obtain ⟨hle, heq⟩ := ih fun m hm => hf m (List.mem_cons_of_mem _ hm)
    have hl := hf l (List.mem_cons_self ..)
    have hlen := hl.length_le
    have hsame : (f l).length = l.length ↔ f l = l := ⟨fun h => hl.eq_of_length h, fun h => by rw [h]⟩
    rw [List.map_cons, List.forall_mem_cons, ← heq, ← hsame]
    by_cases hnil : f l = []
    · have hne : ¬ (l ≠ [] ∧ (f l).length = l.length) := by
        rintro ⟨hne, he⟩
        rw [hnil, List.length_nil] at he
        exact hne (List.length_eq_zero_iff.mp he.symm)
      rw [List.filter_cons_of_neg (by simpa using hnil), unlines_cons]
      rw [iff_false_right fun h => hne h.1]
      simp only [List.length_append, List.length_cons]
      constructor <;> omega
    · have hne : l ≠ [] := fun h => hnil (by rw [h] at hl ⊢; exact List.prefix_nil.mp hl)
      rw [List.filter_cons_of_pos (by simpa using hnil), unlines_cons, unlines_cons]
      rw [and_iff_right hne]
      simp only [List.length_append, List.length_cons]
      constructor
      · omega
      · constructor <;> omega

/-- What does not contain the character is taken whole, and the taking goes on behind it. -/
theorem takeWhile_ne_append (h : c ∉ s) (t : List α) :
    (s ++ t).takeWhile (· ≠ c) = s ++ t.takeWhile (· ≠ c) := by
  apply List.takeWhile_append_of_pos
  intro x hx
  have hne : x ≠ c := fun hxc => h (hxc ▸ hx)
  simpa using hne

theorem takeWhile_ne (h : c ∉ s) : s.takeWhile (· ≠ c) = s := by
  have happ := takeWhile_ne_append h []
  rwa [List.append_nil, List.takeWhile_nil, List.append_nil] at happ

theorem takeWhile_ne_append_cons (h : c ∉ s) (t : List α) : (s ++ c :: t).takeWhile (· ≠ c) = s := by
  rw [takeWhile_ne_append h, List.takeWhile_cons_of_neg (by simp), List.append_nil]

theorem find_eq_none : find c 0 s = none ↔ c ∉ s := by
  simp only [find, List.drop_zero, Option.map_eq_none_iff, List.findIdx?_eq_none_iff,
    decide_eq_false_iff_not]
  exact ⟨fun h hc => h c hc rfl, fun h x hx hxc => h (hxc ▸ hx)⟩

/-- A search from the end of a prefix is a search in the rest. -/
theorem find_append (p : List α) : find c p.length (p ++ s) = (find c 0 s).map (p.length + ·) := by
  simp [find]

theorem find_append_cons (h : c ∉ t) : find c 0 (t ++ c :: s) = some t.length := by
  have hn : t.findIdx? (fun x => decide (x = c)) = none := by
    simp only [List.findIdx?_eq_none_iff, decide_eq_false_iff_not]
    exact fun x hx hxc => h (hxc ▸ hx)
  simp [find, List.findIdx?_append, List.findIdx?_cons, hn]

theorem find_cons_eq_zero {x : α} : find c 0 (x :: s) = some 0 ↔ x = c := by
  by_cases h : x = c <;> simp [find, List.findIdx?_cons, h]

/-- What a successful search says about the text. -/
theorem find_eq_some {i : ℕ} (h : find c 0 s = some i) :
    ∃ t r, s = t ++ c :: r ∧ c ∉ t ∧ t.length = i := by
  simp only [find, List.drop_zero, zero_add, Option.map_id_fun', id_eq] at h
  obtain ⟨hi, hc, hb⟩ := List.findIdx?_eq_some_iff_getElem.mp h
  refine ⟨s.take i, s.drop (i + 1), ?_, ?_, by simp; omega⟩
  · have hci : s[i] = c := by simpa using hc
    rw [← hci, ← List.drop_eq_getElem_cons hi, List.take_append_drop]
  · intro hm
    obtain ⟨j, hj, he⟩ := List.mem_take_iff_getElem.mp hm
    have := hb j (by omega)
    simp [he] at this

theorem take_find {i : ℕ} (h : find c 0 s = some i) : s.take i = s.takeWhile (· ≠ c) := by
  obtain ⟨t, r, rfl, ht, rfl⟩ := find_eq_some h
  rw [List.take_left, takeWhile_ne_append_cons ht]

/-- A search that starts further on finds the character there. -/
theorem drop_find {start i : ℕ} (h : find c start s = some i) :
    start ≤ i ∧ ∃ r, s.drop i = c :: r := by
  rw [find, Option.map_eq_some_iff] at h
  obtain ⟨j, hj, rfl⟩ := h
  obtain ⟨hlt, hc, -⟩ := List.findIdx?_eq_some_iff_getElem.mp hj
  refine ⟨Nat.le_add_right .., s.drop (start + j + 1), ?_⟩
  have hlen : start + j < s.length := by
    rw [List.length_drop] at hlt
    omega
  have hget : s[start + j] = c := by simpa using hc
  rw [← hget]
  exact List.drop_eq_getElem_cons hlen

theorem find_unlines_append (h : ∀ l ∈ ms, sep ∉ l) :
    find sep (unlines sep ls).length (unlines sep (ls ++ ms)) =
      ms.head?.map fun l => (unlines sep ls).length + l.length := by
  rw [unlines_append, find_append]
  cases ms with
  | nil => simp [find]
  | cons l ms => simp [find_append_cons (h l (List.mem_cons_self ..))]

/-! ### The lines of a text -/

theorem exists_splitOn (s : List α) : ∃ h ls, s.splitOn sep = h :: ls :=
  List.exists_cons_of_ne_nil (List.splitOn_ne_nil sep s)

theorem splitOn_sep (s : List α) : (sep :: s).splitOn sep = [] :: s.splitOn sep :=
  List.splitOn_append_cons_self [] s

theorem splitOn_cons {h : List α} (hc : c ≠ sep) (hs : s.splitOn sep = h :: ls) :
    (c :: s).splitOn sep = (c :: h) :: ls := by
  rw [List.splitOn_cons_eq_if_modifyHead, if_neg (by simpa using hc), hs, List.modifyHead_cons]

/-- The first line of a text goes on where the text is put behind something without separator. -/
theorem splitOn_append {h : List α} (ht : sep ∉ t) (hs : s.splitOn sep = h :: ls) :
    (t ++ s).splitOn sep = (t ++ h) :: ls := by
  induction t with
  | nil => exact hs
  | cons c t ih =>
    rw [List.mem_cons, not_or] at ht
    exact splitOn_cons (Ne.symm ht.1) (ih ht.2)

theorem unlines_splitOn (s : List α) : unlines sep (s.splitOn sep) = s ++ [sep] := by
  induction s with
  | nil => rfl
  | cons c s ih =>
    by_cases hc : c = sep
    · rw [hc, splitOn_sep, unlines_cons, ih]
      rfl
    · obtain ⟨h, ls, hs⟩ := @exists_splitOn _ _ sep s
      rw [splitOn_cons hc hs, unlines_cons, List.cons_append, ← unlines_cons, ← hs, ih]
      rfl

theorem prefix_of_splitOn {h : List α} (hs : s.splitOn sep = h :: ls) : h <+: s := by
  induction s generalizing h ls with
  | nil =>
    rw [List.splitOn_nil] at hs
    rw [← (List.cons.inj hs).1]
  | cons c s ih =>
    by_cases hc : c = sep
    · rw [hc, splitOn_sep] at hs
      rw [← (List.cons.inj hs).1]
      exact List.nil_prefix
    · obtain ⟨h', ls', hs'⟩ := @exists_splitOn _ _ sep s
      rw [splitOn_cons hc hs'] at hs
      rw [← (List.cons.inj hs).1]
      exact List.cons_prefix_cons.mpr ⟨rfl, ih hs'⟩

theorem isInfix_of_mem_splitOn {l : List α} (h : l ∈ s.splitOn sep) : l <:+: s := by
  obtain ⟨ks, ms, hl⟩ := List.append_of_mem h
  have hs := @unlines_splitOn _ _ sep s
  rw [hl, unlines_append, unlines_cons] at hs
  have hlast := congrArg List.dropLast hs
  rw [List.dropLast_concat, ← List.append_assoc, List.dropLast_append_of_ne_nil (by simp)] at hlast
  exact ⟨_, _, hlast⟩

theorem notMem_of_mem_splitOn {l : List α} (h : l ∈ s.splitOn sep) : sep ∉ l := by
  induction s generalizing l with
  | nil =>
    rw [List.splitOn_nil] at h
    simp [List.mem_singleton.mp h]
  | cons c s ih =>
    by_cases hc : c = sep
    · rw [hc, splitOn_sep] at h
      rcases List.mem_cons.mp h with rfl | h
      · simp
      · exact ih h
    · obtain ⟨h', ls, hs⟩ := @exists_splitOn _ _ sep s
      rw [splitOn_cons hc hs] at h
      rw [hs] at ih
      rcases List.mem_cons.mp h with rfl | h
      · have := ih (List.mem_cons_self ..)
        simp [Ne.symm hc, this]
      · exact ih (List.mem_cons_of_mem _ h)

/-! ### A text that goes on -/

/-- The lines of a text that are ended by a separator. -/
def complete (sep : α) (s : List α) : List (List α) := (s.splitOn sep).dropLast

/-- What follows the last separator. -/
def unfinished (sep : α) (s : List α) : List α := (s.splitOn sep).getLastD []

theorem splitOn_unlines_append (h : ∀ l ∈ ls, sep ∉ l) (s : List α) :
    (unlines sep ls ++ s).splitOn sep = ls ++ s.splitOn sep := by
  induction ls with
  | nil => rfl
  | cons l ls ih =>
    have hrest := ih fun m hm => h m (List.mem_cons_of_mem _ hm)
    rw [unlines_cons, List.append_assoc, List.cons_append,
      List.splitOn_append_cons_self_of_not_mem (h l (List.mem_cons_self ..)), hrest, List.cons_append]

theorem splitOn_eq (s : List α) : s.splitOn sep = complete sep s ++ [unfinished sep s] := by
  rw [complete, unfinished, List.getLastD_eq_getLast?,
    List.getLast?_eq_some_getLast (List.splitOn_ne_nil sep s)]
  exact (List.dropLast_append_getLast (List.splitOn_ne_nil sep s)).symm

theorem notMem_of_mem_complete {l : List α} (h : l ∈ complete sep s) : sep ∉ l :=
  notMem_of_mem_splitOn (List.dropLast_subset _ h)

theorem notMem_unfinished (s : List α) : sep ∉ unfinished sep s := by
  apply notMem_of_mem_splitOn (s := s)
  rw [splitOn_eq]
  exact List.mem_append_right _ (List.mem_singleton.mpr rfl)

theorem unlines_complete_append (s : List α) : unlines sep (complete sep s) ++ unfinished sep s = s := by
  have hs : unlines sep (s.splitOn sep) = s ++ [sep] := unlines_splitOn s
  rw [splitOn_eq, unlines_append, unlines_cons, unlines_nil, ← List.append_assoc] at hs
  exact List.append_cancel_right hs

theorem complete_unlines_append (h : ∀ l ∈ ls, sep ∉ l) (s : List α) :
    complete sep (unlines sep ls ++ s) = ls ++ complete sep s := by
  rw [complete, splitOn_unlines_append h, List.dropLast_append_of_ne_nil (List.splitOn_ne_nil sep s)]
  rfl

theorem complete_of_notMem (h : sep ∉ s) : complete sep s = [] ∧ unfinished sep s = s := by
  rw [complete, unfinished, List.splitOn_eq_singleton h]
  exact ⟨rfl, rfl⟩

/-- A text is continued behind what is unfinished. -/
theorem complete_append (s t : List α) :
    complete sep (s ++ t) = complete sep s ++ complete sep (unfinished sep s ++ t) ∧
      unfinished sep (s ++ t) = unfinished sep (unfinished sep s ++ t) := by
  have hsplit := splitOn_unlines_append (fun l (hl : l ∈ complete sep s) => notMem_of_mem_complete hl)
    (unfinished sep s ++ t)
  rw [← List.append_assoc, unlines_complete_append, splitOn_eq (s ++ t), splitOn_eq (unfinished sep s ++ t),
    ← List.append_assoc] at hsplit
  obtain ⟨hcomplete, hunfinished⟩ := List.append_inj' hsplit rfl
  exact ⟨hcomplete, List.singleton_inj.mp hunfinished⟩

end Lines
