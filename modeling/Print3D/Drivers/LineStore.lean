import Print3D.Drivers.Cleanup

/-! The gcode buffer as a store of lines: the buckets hold whole lines only, a chunk
adds its cleaned lines at the end, and erasing takes lines off the front. -/
namespace Print3D
open Lines GCodeBuffer

/-- Lines by bucket. Only the last bucket may be without lines. -/
structure LineStore where
  buckets : List (List Text)
  isLine : ∀ ls ∈ buckets, ∀ l ∈ ls, IsLine newline l
  ne_nil : ∀ ls ∈ buckets.dropLast, ls ≠ []

namespace LineStore

/-- Whether a bucket with these lines takes no more text. -/
def full (ls : List Text) : Bool := maxBucketSize ≤ (unlines newline ls).length

/-- The buckets the next chunk leaves alone, and the lines of the one it goes to. -/
def closed (bs : List (List Text)) : List (List Text) := if full (bs.getLastD []) then bs else bs.dropLast

def current (bs : List (List Text)) : List Text :=
  if full (bs.getLastD []) then [] else bs.getLastD []

theorem not_full_nil : full [] = false := by decide

theorem full_ne_nil {ls : List Text} (h : full ls = true) : ls ≠ [] := by
  rintro rfl
  rw [not_full_nil] at h
  cases h

theorem eq_closed_or (bs : List (List Text)) :
    (bs = [] ∧ closed bs = [] ∧ current bs = []) ∨
      (bs = closed bs ∧ current bs = [] ∧ full (bs.getLastD []) = true) ∨
      bs = closed bs ++ [current bs] := by
  rcases List.eq_nil_or_concat bs with rfl | ⟨bs, b, rfl⟩
  · exact .inl ⟨rfl, by simp [closed], by simp [current]⟩
  · by_cases hf : full b = true <;> simp [closed, current, hf]

variable (s : LineStore)

def lines : List Text := s.buckets.flatten

def size : ℕ := (unlines newline s.lines).length

theorem isLine_of_mem_lines {l : Text} (h : l ∈ s.lines) : IsLine newline l := by
  obtain ⟨ls, hls, hl⟩ := List.mem_flatten.mp h
  exact s.isLine ls hls l hl

def empty : LineStore := ⟨[], by simp, by simp⟩

theorem closed_append_current (bs : List (List Text)) :
    (closed bs).flatten ++ current bs = bs.flatten := by
  obtain ⟨h, h1, h2⟩ | ⟨h, h1, -⟩ | h := eq_closed_or bs
  · rw [h1, h2, h]
    rfl
  · rw [h1, ← h, List.append_nil]
  · conv_rhs => rw [h]
    simp

/-- Adds lines to the last bucket, or to a new one if that is full. -/
def put (ls : List Text) (h : ∀ l ∈ ls, IsLine newline l) : LineStore where
  buckets := closed s.buckets ++ [current s.buckets ++ ls]
  isLine := by
    have hmem : ∀ l ∈ (closed s.buckets).flatten ++ current s.buckets, IsLine newline l := by
      rw [closed_append_current]
      exact fun l hl => s.isLine_of_mem_lines hl
    intro ms hms l hl
    rcases List.mem_append.mp hms with hms | hms
    · exact hmem l (List.mem_append_left _ (List.mem_flatten.mpr ⟨ms, hms, hl⟩))
    · rw [List.mem_singleton] at hms
      rcases List.mem_append.mp (hms ▸ hl) with hl | hl
      · exact hmem l (List.mem_append_right _ hl)
      · exact h l hl
  ne_nil := by
    rw [List.dropLast_concat]
    intro ms hms
    unfold closed at hms
    split_ifs at hms with hf
    · rcases List.eq_nil_or_concat s.buckets with hb | ⟨bs, b, hb⟩
      · simp [hb] at hms
      · have hne := s.ne_nil
        rw [hb] at hf hms hne
        rw [List.concat_eq_append] at hf hms hne
        rw [List.dropLast_concat] at hne
        rw [List.getLastD_concat] at hf
        rcases List.mem_append.mp hms with hms | hms
        · exact hne ms hms
        · rw [List.mem_singleton.mp hms]
          exact full_ne_nil hf
    · exact s.ne_nil ms hms

@[simp] theorem lines_put (ls : List Text) (h : ∀ l ∈ ls, IsLine newline l) :
    (s.put ls h).lines = s.lines ++ ls := by
  simp only [lines, put, List.flatten_append, List.flatten_singleton, ← List.append_assoc,
    closed_append_current]

def front : List Text := s.buckets.headD []

/-- Takes `k` lines off the first bucket, which goes when it has none left. -/
def dropFront (k : ℕ) : List (List Text) → List (List Text)
  | [] => []
  | ls :: rest => if ls.drop k = [] then rest else ls.drop k :: rest

theorem mem_dropFront {k : ℕ} {bs : List (List Text)} {ms : List Text} (h : ms ∈ dropFront k bs) :
    ∃ ls ∈ bs, ms ⊆ ls := by
  cases bs with
  | nil => cases h
  | cons ls rest =>
    have hrest : ms ∈ rest → ∃ ls' ∈ ls :: rest, ms ⊆ ls' := fun h =>
      ⟨ms, List.mem_cons_of_mem _ h, List.Subset.refl _⟩
    rw [dropFront] at h
    split_ifs at h
    · exact hrest h
    · rcases List.mem_cons.mp h with rfl | h
      · exact ⟨ls, List.mem_cons_self .., List.drop_subset k ls⟩
      · exact hrest h

theorem dropFront_ne_nil {k : ℕ} {bs : List (List Text)} (h : ∀ ls ∈ bs.dropLast, ls ≠ []) :
    ∀ ls ∈ (dropFront k bs).dropLast, ls ≠ [] := by
  rcases bs with - | ⟨ls, - | ⟨ms, rest⟩⟩
  · simp [dropFront]
  · rw [dropFront]
    split_ifs <;> simp
  · rw [List.dropLast_cons_cons] at h
    have hrest := fun l hl => h l (List.mem_cons_of_mem _ hl)
    rw [dropFront]
    split_ifs with hd
    · exact hrest
    · rw [List.dropLast_cons_cons]
      intro l hl
      rcases List.mem_cons.mp hl with rfl | hl
      · exact hd
      · exact hrest l hl

def erase (k : ℕ) : LineStore where
  buckets := dropFront k s.buckets
  isLine ms hms l hl := by
    obtain ⟨ls, hls, hsub⟩ := mem_dropFront hms
    exact s.isLine ls hls l (hsub hl)
  ne_nil := dropFront_ne_nil s.ne_nil

theorem lines_erase {k : ℕ} (hk : k ≤ s.front.length) : (s.erase k).lines = s.lines.drop k := by
  change (dropFront k s.buckets).flatten = s.buckets.flatten.drop k
  unfold front at hk
  cases hb : s.buckets with
  | nil => simp [dropFront]
  | cons ls rest =>
    rw [hb, List.headD_cons] at hk
    simp only [dropFront, List.flatten_cons, List.drop_append_of_le_length hk]
    split_ifs with hd
    · rw [hd, List.nil_append]
    · rfl

theorem lines_eq_nil_of_front (h : s.front = []) : s.lines = [] := by
  have hne := s.ne_nil
  unfold front at h
  unfold lines
  cases hb : s.buckets with
  | nil => rfl
  | cons ls rest =>
    rw [hb] at h hne
    have hls : ls = [] := h
    cases rest with
    | nil => simp [hls]
    | cons m rest => exact absurd hls (hne ls (by simp))

theorem front_prefix : s.front <+: s.lines := by
  unfold front lines
  cases s.buckets with
  | nil => simp
  | cons ls rest => exact List.prefix_append _ _

end LineStore
end Print3D
