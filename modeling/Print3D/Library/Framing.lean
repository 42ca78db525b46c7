import Mathlib.Tactic

/-! Self-delimiting frames in a byte stream. A framer says how long the frame at
the head of a buffer is, or that it is not all there yet; cutting a buffer into
frames then gives one answer only, whatever pieces the buffer arrived in. -/
namespace Framing

/-- `size b` is the length of the frame at the head of `b`, and `0` while it is incomplete. -/
structure Framer (α : Type*) where
  size : List α → ℕ
  size_le : ∀ b, size b ≤ b.length
  size_append : ∀ b r, 0 < size b → size (b ++ r) = size b

variable {α : Type*} (F : Framer α)

/-- Exactly one complete frame. -/
def Framer.IsFrame (f : List α) : Prop := 0 < F.size f ∧ F.size f = f.length

/-- `b` is the frames `fs` followed by a rest with no complete frame at its head. -/
structure Framer.Cuts (b : List α) (fs : List (List α)) (rest : List α) : Prop where
  frames : ∀ f ∈ fs, F.IsFrame f
  text : b = fs.flatten ++ rest
  incomplete : F.size rest = 0

variable {F}

theorem Framer.IsFrame.size_append {f : List α} (h : F.IsFrame f) (r : List α) :
    F.size (f ++ r) = f.length :=
  (F.size_append f r h.1).trans h.2

theorem Framer.IsFrame.ne_nil {f : List α} (h : F.IsFrame f) : f ≠ [] := by
  rintro rfl
  have h0 := h.1
  rw [h.2] at h0
  simp at h0

theorem Framer.size_take_of_lt {b : List α} {k : ℕ} (hk : k < F.size b) :
    F.size (b.take k) = 0 := by
  by_contra h
  have hpos : 0 < F.size (b.take k) := Nat.pos_of_ne_zero h
  have hs := F.size_append (b.take k) (b.drop k) hpos
  rw [List.take_append_drop] at hs
  have hle := F.size_le (b.take k)
  rw [List.length_take] at hle
  omega

theorem Framer.Cuts.nil {r : List α} (h : F.size r = 0) : F.Cuts r [] r :=
  ⟨by simp, by simp, h⟩

theorem Framer.Cuts.cons {f b rest : List α} {fs : List (List α)} (hf : F.IsFrame f)
    (h : F.Cuts b fs rest) : F.Cuts (f ++ b) (f :: fs) rest := by
  refine ⟨?_, by simp [h.text], h.incomplete⟩
  intro g hg
  rcases List.mem_cons.mp hg with rfl | hg
  · exact hf
  · exact h.frames g hg

/-- Cutting what is left over together with the next piece continues the cut. -/
theorem Framer.Cuts.append {b c rest rest' : List α} {fs gs : List (List α)}
    (h : F.Cuts b fs rest) (h' : F.Cuts (rest ++ c) gs rest') :
    F.Cuts (b ++ c) (fs ++ gs) rest' := by
  refine ⟨?_, ?_, h'.incomplete⟩
  · intro f hf
    rcases List.mem_append.mp hf with hf | hf
    · exact h.frames f hf
    · exact h'.frames f hf
  · rw [h.text, List.append_assoc, h'.text, List.flatten_append, List.append_assoc]

/-- A buffer has one cut. -/
theorem Framer.Cuts.unique {b rest rest' : List α} {fs gs : List (List α)}
    (h : F.Cuts b fs rest) (h' : F.Cuts b gs rest') : fs = gs ∧ rest = rest' := by
  induction fs generalizing b gs with
  | nil =>
    have hb : b = rest := by simpa using h.text
    cases gs with
    | nil => exact ⟨rfl, hb ▸ by simpa using h'.text⟩
    | cons g gs =>
      have hg := h'.frames g (by simp)
      have hs := hg.size_append (gs.flatten ++ rest')
      have ht : b = g ++ (gs.flatten ++ rest') := by simpa using h'.text
      rw [← ht, hb, h.incomplete] at hs
      exact absurd (List.length_eq_zero_iff.mp hs.symm) hg.ne_nil
  | cons f fs ih =>
    have hf := h.frames f (by simp)
    have ht : b = f ++ (fs.flatten ++ rest) := by simpa using h.text
    have hs := hf.size_append (fs.flatten ++ rest)
    rw [← ht] at hs
    cases gs with
    | nil =>
      have hb : b = rest' := by simpa using h'.text
      rw [hb, h'.incomplete] at hs
      exact absurd (List.length_eq_zero_iff.mp hs.symm) hf.ne_nil
    | cons g gs =>
      have hg := h'.frames g (by simp)
      have ht' : b = g ++ (gs.flatten ++ rest') := by simpa using h'.text
      have hs' := hg.size_append (gs.flatten ++ rest')
      rw [← ht'] at hs'
      obtain ⟨rfl, hrest⟩ := List.append_inj (ht.symm.trans ht') (by omega)
      obtain ⟨rfl, rfl⟩ := ih
        (b := fs.flatten ++ rest) ⟨fun x hx => h.frames x (by simp [hx]), rfl, h.incomplete⟩
        ⟨fun x hx => h'.frames x (by simp [hx]), hrest, h'.incomplete⟩
      exact ⟨rfl, rfl⟩

/-- What is incomplete has no complete start. -/
theorem Framer.size_take_eq_zero {q : List α} (h : F.size q = 0) (k : ℕ) : F.size (q.take k) = 0 := by
  by_contra hne
  have hs := F.size_append (q.take k) (q.drop k) (Nat.pos_of_ne_zero hne)
  rw [List.take_append_drop, h] at hs
  exact hne hs.symm

/-- A start of a buffer is cut into the first of its frames. -/
theorem Framer.Cuts.of_append {b r rest : List α} {fs : List (List α)} (h : F.Cuts (b ++ r) fs rest) :
    ∃ gs hs q, fs = gs ++ hs ∧ F.Cuts b gs q ∧ F.Cuts (q ++ r) hs rest := by
  induction fs generalizing b with
  | nil =>
    have hb : b ++ r = rest := by simpa using h.text
    have hsize : F.size b = 0 := by
      have h0 := Framer.size_take_eq_zero h.incomplete b.length
      rwa [← hb, List.take_left] at h0
    exact ⟨[], [], b, rfl, .nil hsize, h⟩
  | cons f fs ih =>
    have hf := h.frames f (List.mem_cons_self ..)
    have htext : b ++ r = f ++ (fs.flatten ++ rest) := by simpa using h.text
    have hrest : F.Cuts (fs.flatten ++ rest) fs rest :=
      ⟨fun g hg => h.frames g (List.mem_cons_of_mem _ hg), rfl, h.incomplete⟩
    by_cases hlen : f.length ≤ b.length
    · obtain ⟨b', rfl⟩ : f <+: b :=
        List.prefix_of_prefix_length_le (List.prefix_append f _) (htext ▸ List.prefix_append b r) hlen
      rw [List.append_assoc] at htext
      rw [← List.append_cancel_left htext] at hrest
      obtain ⟨gs, hs, q, rfl, hg, hq⟩ := ih hrest
      exact ⟨f :: gs, hs, q, rfl, .cons hf hg, hq⟩
    · have hb : b = f.take b.length := by
        have h := congrArg (List.take b.length) htext
        rwa [List.take_left, List.take_append_of_le_length (by omega)] at h
      have hsize : F.size b = 0 := by
        rw [hb]
        exact Framer.size_take_of_lt (by rw [hf.2]; omega)
      exact ⟨[], f :: fs, b, rfl, .nil hsize, h⟩

/-- What is left of the pieces in front of each, together with it, fits. -/
def Framer.EachFits (F : Framer α) (fits : List α → Prop) (b : List α) (ds : List (List α)) : Prop :=
  ∀ pre d post, ds = pre ++ d :: post → ∀ fs q, F.Cuts (b ++ pre.flatten) fs q → fits (q ++ d)

variable {fits : List α → Prop} {b d : List α} {ds : List (List α)}

theorem Framer.EachFits.head (h : F.EachFits fits b (d :: ds)) (hb : F.size b = 0) : fits (b ++ d) :=
  h [] d ds rfl [] b ((List.append_nil b).symm ▸ .nil hb)

theorem Framer.EachFits.tail (h : F.EachFits fits b (d :: ds)) {gs : List (List α)} {q : List α}
    (hd : F.Cuts (b ++ d) gs q) : F.EachFits fits q ds := by
  rintro pre d' post rfl fs q' hq
  refine h (d :: pre) d' post rfl (gs ++ fs) q' ?_
  rw [List.flatten_cons, ← List.append_assoc]
  exact hd.append hq

theorem Framer.eachFits_of_length (h : ∀ x : List α, x.length ≤ (b ++ ds.flatten).length → fits x) :
    F.EachFits fits b ds := by
  rintro pre d post rfl fs q hq
  refine h _ ?_
  have hlen := congrArg List.length hq.text
  simp only [List.length_append, List.flatten_append, List.flatten_cons] at hlen ⊢
  omega

/-- Hands a buffer to readers piece by piece, each to its own; a reader returns the frames it has cut off,
and what it keeps for the next piece. -/
def feed {ι : Type*} (run : ι → List α → Option (List (List α) × List α)) :
    List (ι × List α) → List α → Option (List (List α) × List α)
  | [], b => some ([], b)
  | d :: ds, b => do
    let (fs, b) ← run d.1 (b ++ d.2)
    let (gs, b) ← feed run ds b
    some (fs ++ gs, b)

/-- Readers that cut every buffer that fits do so in whatever pieces the buffer arrives. -/
theorem feed_eq {ι : Type*} {run : ι → List α → Option (List (List α) × List α)} {ds : List (ι × List α)}
    (hrun : ∀ d ∈ ds, ∀ b fs q, fits b → F.Cuts b fs q → run d.1 b = some (fs, q)) {rest : List α}
    {fs : List (List α)} (hb : F.size b = 0) (hfits : F.EachFits fits b (ds.map (·.2)))
    (h : F.Cuts (b ++ (ds.map (·.2)).flatten) fs rest) : feed run ds b = some (fs, rest) := by
  induction ds generalizing b fs with
  | nil =>
    rw [List.map_nil, List.flatten_nil, List.append_nil] at h
    obtain ⟨rfl, rfl⟩ := h.unique (.nil hb)
    rfl
  | cons d ds ih =>
    rw [List.map_cons] at hfits
    rw [List.map_cons, List.flatten_cons, ← List.append_assoc] at h
    obtain ⟨gs, hs, q, rfl, hg, hq⟩ := h.of_append
    have hrest := ih (fun d' hd' => hrun d' (List.mem_cons_of_mem _ hd')) hg.incomplete (hfits.tail hg) hq
    simp only [feed, hrun d (List.mem_cons_self ..) _ _ _ (hfits.head hb) hg, Option.bind_eq_bind,
      Option.bind_some, hrest]

/-- The frames at the head of a buffer, for some rounds. -/
def Framer.framesWithin (F : Framer α) : ℕ → List α → List (List α)
  | 0, _ => []
  | fuel + 1, b => if F.size b = 0 then [] else b.take (F.size b) :: F.framesWithin fuel (b.drop (F.size b))

/-- A buffer has no more frames than elements. -/
def Framer.frames (F : Framer α) (b : List α) : List (List α) := F.framesWithin b.length b

theorem Framer.Cuts.framesWithin_eq {fs : List (List α)} {rest : List α} {fuel : ℕ} (h : F.Cuts b fs rest)
    (hfuel : fs.length ≤ fuel) : F.framesWithin fuel b = fs := by
  induction fs generalizing b fuel with
  | nil =>
    have hb : F.size b = 0 := by
      rw [show b = rest by simpa using h.text]
      exact h.incomplete
    cases fuel with
    | zero => rfl
    | succ fuel => exact if_pos hb
  | cons f fs ih =>
    obtain ⟨fuel, rfl⟩ := Nat.exists_eq_succ_of_ne_zero (Nat.ne_zero_of_lt hfuel)
    have hf := h.frames f (List.mem_cons_self ..)
    have htext : b = f ++ (fs.flatten ++ rest) := by simpa using h.text
    have hsize : F.size b = f.length := by rw [htext, hf.size_append]
    have hpos : 0 < f.length := hf.2 ▸ hf.1
    have hrest : F.Cuts (fs.flatten ++ rest) fs rest :=
      ⟨fun g hg => h.frames g (List.mem_cons_of_mem _ hg), rfl, h.incomplete⟩
    rw [framesWithin, if_neg (by omega), hsize, htext, List.take_left, List.drop_left,
      ih hrest (Nat.le_of_succ_le_succ hfuel)]

theorem Framer.Cuts.length_le {fs : List (List α)} {rest : List α} (h : F.Cuts b fs rest) :
    fs.length ≤ b.length := by
  induction fs generalizing b with
  | nil => exact Nat.zero_le _
  | cons f fs ih =>
    have hf := h.frames f (List.mem_cons_self ..)
    have hpos : 0 < f.length := hf.2 ▸ hf.1
    have htext : b = f ++ (fs.flatten ++ rest) := by simpa using h.text
    have hrest := ih ⟨fun g hg => h.frames g (List.mem_cons_of_mem _ hg), rfl, h.incomplete⟩
    rw [htext, List.length_append, List.length_cons]
    omega

theorem Framer.Cuts.frames_eq {fs : List (List α)} {rest : List α} (h : F.Cuts b fs rest) : F.frames b = fs :=
  h.framesWithin_eq h.length_le

end Framing
