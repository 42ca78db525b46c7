import Print3D.Drivers.BufferRuns

/-! The byte counter of the gcode buffer against the stored bytes. It is exact until the
early return of cleanup is taken: then the bytes of a comment that was thrown away stay
counted until the next clear. -/
namespace Print3D
open Lines GCodeBuffer

namespace LineStore

variable (s : LineStore)

def lastLength : ℕ := (unlines newline (s.buckets.getLastD [])).length

theorem current_eq_nil : current s.buckets = [] ↔ s.lastLength = 0 ∨ maxBucketSize ≤ s.lastLength := by
  unfold current lastLength
  generalize s.buckets.getLastD [] = ls
  by_cases hf : maxBucketSize ≤ (unlines newline ls).length <;> simp [full, hf]

theorem lastLength_put (ls : List Text) (h : ∀ l ∈ ls, IsLine newline l) :
    (s.put ls h).lastLength =
      (if maxBucketSize ≤ s.lastLength then 0 else s.lastLength) + (unlines newline ls).length := by
  unfold lastLength put current
  rw [List.getLastD_concat]
  generalize s.buckets.getLastD [] = ms
  by_cases hf : maxBucketSize ≤ (unlines newline ms).length <;> simp [full, hf]

theorem size_put (ls : List Text) (h : ∀ l ∈ ls, IsLine newline l) :
    (s.put ls h).size = s.size + (unlines newline ls).length := by
  rw [size, lines_put, unlines_append, List.length_append, size]

theorem size_erase {k : ℕ} (hk : k ≤ s.front.length) :
    (s.erase k).size + (unlines newline (s.front.take k)).length = s.size := by
  obtain ⟨rest, hrest⟩ := s.front_prefix
  have htake : s.front.take k = s.lines.take k := by
    rw [← hrest, List.take_append_of_le_length hk]
  rw [size, size, s.lines_erase hk, htake, Nat.add_comm, ← List.length_append, ← unlines_append,
    List.take_append_drop]

end LineStore

namespace GCodeBuffer

variable {g g' : GCodeBuffer} {s : LineStore} {d : ℕ}

/-- The length of the last bucket after a chunk, `n` before it. -/
def lengthAfter (keep : Bool) (n : ℕ) (chunk : Text) : ℕ :=
  (if maxBucketSize ≤ n then 0 else n) + (norm keep chunk).length

/-- Some chunk is a bare comment and goes to an empty bucket; `n` is the length of the last
bucket, 0 if there is none. Only the last chunk of a text can be a bare comment. -/
def Overcounts (keep : Bool) : ℕ → List Text → Prop
  | _, [] => False
  | n, c :: cs => (BareComment keep (c.map crToNewline) ∧ (n = 0 ∨ maxBucketSize ≤ n)) ∨
      Overcounts keep (lengthAfter keep n c) cs

instance decidableOvercounts (keep : Bool) : (n : ℕ) → (cs : List Text) → Decidable (Overcounts keep n cs)
  | _, [] => isFalse id
  | n, c :: cs =>
    have := decidableOvercounts keep (lengthAfter keep n c) cs
    inferInstanceAs (Decidable (_ ∨ _))

/-- `bufferSize_` counts `d` bytes more than the lines of `s` have. -/
structure Counts (g : GCodeBuffer) (s : LineStore) (d : ℕ) : Prop where
  stores : g.Stores s
  size : g.bufferSize = s.size + d

/-- A bare comment that goes to an empty bucket is counted, and nothing else is. -/
theorem Counts.appendChunk (h : g.Counts s d) (chunk : Text)
    (hfits : s.size + d + chunk.length + 1 < 2 ^ 31) :
    (g.appendChunk chunk).Counts
      (s.put (normLines g.keepGpxMacroComments chunk) fun _ => isLine_of_mem_normLines)
      (d + if BareComment g.keepGpxMacroComments (chunk.map crToNewline) ∧
        (s.lastLength = 0 ∨ maxBucketSize ≤ s.lastLength) then chunk.length else 0) := by
  have hnorm := norm_length_le g.keepGpxMacroComments chunk
  refine ⟨by rw [appendChunk_eq h.stores]; rfl, ?_⟩
  rw [appendChunk_eq h.stores, LineStore.size_put]
  change i32 (g.bufferSize + _) = _
  rw [h.size, accounted]
  simp only [LineStore.current_eq_nil]
  by_cases hb : BareComment g.keepGpxMacroComments (chunk.map crToNewline) ∧
      (s.lastLength = 0 ∨ maxBucketSize ≤ s.lastLength)
  · have hnil := norm_of_bareComment hb.1
    rw [if_pos hb, if_pos hb.symm, i32_eq ⟨by omega, by omega⟩]
    change _ = ((s.size + (norm g.keepGpxMacroComments chunk).length : ℕ) : ℤ) + _
    rw [hnil, List.length_nil]
    push_cast
    ring
  · rw [if_neg hb, if_neg fun h => hb h.symm, i32_eq ⟨by omega, by omega⟩]
    change _ = ((s.size + (norm g.keepGpxMacroComments chunk).length : ℕ) : ℤ) + _
    push_cast
    ring

/-- A chunk that ends with a newline is no bare comment and is not longer cleaned. -/
theorem inner_chunk {keep : Bool} {c : Text} (h : c.getLast? = some newline) :
    ¬ BareComment keep (c.map crToNewline) ∧ (norm keep c).length ≤ c.length := by
  obtain ⟨a, rfl⟩ := List.getLast?_eq_some_iff.mp h
  constructor
  · rintro ⟨-, hn⟩
    exact hn (by simp [crToNewline])
  · have hnorm := norm_length_le keep a
    rw [norm, normLines_append_newline, List.length_append, List.length_singleton]
    exact hnorm

theorem norm_append {keep : Bool} {c : Text} (h : c.getLast? = some newline) (t : Text) :
    norm keep (c ++ t) = norm keep c ++ norm keep t := by
  obtain ⟨a, rfl⟩ := List.getLast?_eq_some_iff.mp h
  simp only [norm, List.append_assoc, List.singleton_append, normLines_append keep a t, unlines_append]

/-- What a text does to the counter. It grows by more than the text is long only where cleaning
makes the text longer. -/
theorem Counts.foldl_appendChunk {cs : List Text} (hcs : Chunked cs) (h : g.Counts s d)
    (hfits : s.size + d + cs.flatten.length + 1 < 2 ^ 31) :
    ∃ s' d', (cs.foldl GCodeBuffer.appendChunk g).Counts s' d' ∧
      s'.size + d' ≤ s.size + d + cs.flatten.length + 1 ∧
      (s'.size + d' = s.size + d + cs.flatten.length + 1 ↔
        (norm g.keepGpxMacroComments cs.flatten).length = cs.flatten.length + 1) ∧
      (d' = d ↔ ¬ Overcounts g.keepGpxMacroComments s.lastLength cs) := by
  induction cs generalizing g s d with
  | nil => exact ⟨s, d, h, by omega, by simp [norm, normLines, cutComment], by simp [Overcounts]⟩
  | cons c cs ih =>
    rw [List.flatten_cons, List.length_append] at hfits ⊢
    have hstep := h.appendChunk c (by omega)
    have hkeep := appendChunk_keepGpxMacroComments h.stores c
    have hsize := s.size_put (normLines g.keepGpxMacroComments c) fun _ => isLine_of_mem_normLines
    have hlast := s.lastLength_put (normLines g.keepGpxMacroComments c) fun _ => isLine_of_mem_normLines
    change _ = _ + (norm g.keepGpxMacroComments c).length at hsize
    change _ = lengthAfter g.keepGpxMacroComments s.lastLength c at hlast
    by_cases hnil : cs = []
    · subst hnil
      have hnorm := norm_length_le g.keepGpxMacroComments c
      rw [List.flatten_nil, List.append_nil, List.length_nil, Nat.add_zero]
      refine ⟨_, _, hstep, ?_, ?_, ?_⟩
      · rw [hsize]
        split_ifs with hb
        · rw [norm_of_bareComment hb.1]
          simp
          omega
        · omega
      · rw [hsize]
        split_ifs with hb
        · rw [norm_of_bareComment hb.1, List.length_nil]
          omega
        · omega
      · simp only [Overcounts, or_false, Nat.add_eq_left, ite_eq_right_iff]
        refine ⟨fun hlen hb => ?_, fun hb h => absurd h hb⟩
        have hempty := hb.1.1
        rw [List.length_eq_zero_iff.mp (hlen hb)] at hempty
        cases hempty
    · have hend : c.getLast? = some newline :=
        hcs c (by rw [List.dropLast_cons_of_ne_nil hnil]; exact List.mem_cons_self ..)
      obtain ⟨hbare, hnorm⟩ : ¬ BareComment g.keepGpxMacroComments (c.map crToNewline) ∧
          (norm g.keepGpxMacroComments c).length ≤ c.length := inner_chunk hend
      simp only [hbare, false_and, if_false, Nat.add_zero] at hstep
      obtain ⟨s', d', h', hle, heq, hiff⟩ := ih hcs.tail hstep (by omega)
      rw [hkeep, hlast] at hiff
      rw [hkeep, hsize] at heq
      have hrest := norm_length_le g.keepGpxMacroComments cs.flatten
      refine ⟨s', d', h', by omega, ?_, ?_⟩
      · rw [norm_append hend, List.length_append]
        omega
      · simpa only [Overcounts, hbare, false_and, false_or] using hiff

theorem Counts.eraseLine (h : g.Counts s d) (hfits : s.size + d < 2 ^ 31) {amount : ℕ} {n : ℤ}
    (he : g.eraseLine amount = some (n, g')) : ∃ s', g'.Counts s' d ∧ s'.size ≤ s.size := by
  by_cases hf : s.front = []
  · unfold LineStore.front at hf
    cases hb : s.buckets with
    | nil =>
      rw [GCodeBuffer.eraseLine, h.stores, hb] at he
      cases he
      exact ⟨s, h, le_rfl⟩
    | cons b rest =>
      rw [hb, List.headD_cons] at hf
      have hsize : (s.erase 0).size = s.size := s.size_erase (Nat.zero_le _)
      have hcons : g.buckets = [] :: rest.map (unlines newline) := by
        rw [h.stores, hb, hf]
        rfl
      rw [GCodeBuffer.eraseLine, hcons] at he
      obtain ⟨⟨pos, counter⟩, hend, he⟩ := Option.map_eq_some_iff.mp he
      rw [eraseEnd_nil] at hend
      split_ifs at hend
      cases hend
      cases he
      refine ⟨s.erase 0, ⟨?_, ?_⟩, hsize.le⟩
      · simp [Stores, LineStore.erase, LineStore.dropFront, hb, hf, eraseThrough]
      · rw [hsize, ← h.size]
        have hint : IsInt32 g.bufferSize := by
          rw [h.size]
          exact ⟨by omega, by omega⟩
        simpa [eraseThrough] using i32_eq hint
  · have heq := eraseLine_eq h.stores hf amount
    rw [he, Option.some.injEq, Prod.mk.injEq] at heq
    have hk : taken amount s.front.length ≤ s.front.length := min_le_right ..
    have hsize := s.size_erase hk
    refine ⟨s.erase (taken amount s.front.length), ⟨by rw [heq.2]; rfl, ?_⟩, by omega⟩
    rw [heq.2]
    change i32 (g.bufferSize - _) = _
    rw [h.size, i32_eq ⟨by omega, by omega⟩]
    omega

end GCodeBuffer

namespace BufferCall

variable {g g' : GCodeBuffer} {c : BufferCall}

def Step (g : GCodeBuffer) (c : BufferCall) (g' : GCodeBuffer) : Prop := c.exec g = some g'

theorem step_unique {g₁ g₂ : GCodeBuffer} (h₁ : Step g c g₁) (h₂ : Step g c g₂) : g₁ = g₂ :=
  Option.some.inj (h₁.symm.trans h₂)

/-- An accepted text does not end in a bare comment that goes to an empty bucket. -/
def CountsExactly (g : GCodeBuffer) : BufferCall → Prop
  | set gcode _ metaData => g.clear.Accepts gcode metaData →
      ¬ Overcounts g.keepGpxMacroComments 0 (chunks gcode)
  | append gcode _ metaData => g.Accepts gcode metaData →
      ¬ Overcounts g.keepGpxMacroComments (g.buckets.getLastD []).length (chunks gcode)
  | _ => True

/-- The counter is `d` too high, and in range. -/
def Excess (d : ℕ) (g : GCodeBuffer) : Prop :=
  ∃ s : LineStore, g.Counts s d ∧ s.size + d ≤ maxBufferSize + 1

theorem excess_clear (g : GCodeBuffer) : Excess 0 g.clear :=
  ⟨.empty, ⟨stores_clear g, rfl⟩, by decide⟩

theorem excess_eq_zero {d : ℕ} (h : Excess d g) : d = 0 ↔ g.getBufferSize = g.storedBytes := by
  obtain ⟨s, hs, -⟩ := h
  rw [getBufferSize, hs.size, hs.stores.storedBytes_eq]
  omega

theorem lastLength_eq {s : LineStore} (h : g.Stores s) :
    s.lastLength = (g.buckets.getLastD []).length := by
  rw [h, LineStore.lastLength]
  rcases List.eq_nil_or_concat s.buckets with hb | ⟨bs, b, hb⟩ <;> simp [hb]

theorem excess_append {d : ℕ} (h : Excess d g) {gcode : Text} {totalLines : ℤ}
    {metaData : Option MetaData} {r : GcodeSetResult}
    (ha : g.append gcode totalLines metaData = some (r, g')) :
    ∃ d', Excess d' g' ∧ (d' = d ↔ CountsExactly g (.append gcode totalLines metaData)) := by
  obtain ⟨s, hs, hle⟩ := h
  have hmax : maxBufferSize = 3145728 := by decide
  rcases append_cases ha with ⟨-, hacc, rfl⟩ | ⟨-, hacc, rfl⟩
  · have hsize : sizeT g.bufferSize = s.size + d := by
      rw [sizeT, hs.size]
      omega
    have hfits := hacc.2
    have hflat := flatten_chunks gcode
    have hs' : (g.housekeeping totalLines metaData).Counts s d :=
      ⟨(housekeeping_buckets ..).trans hs.stores, (housekeeping_bufferSize ..).trans hs.size⟩
    obtain ⟨s', d', h', hle', -, hiff⟩ := hs'.foldl_appendChunk (chunked_chunks gcode) (by
      rw [hflat]
      omega)
    rw [hflat] at hle'
    rw [housekeeping_keepGpxMacroComments, lastLength_eq hs.stores] at hiff
    exact ⟨d', ⟨s', h', by omega⟩, hiff.trans ⟨fun h _ => h, fun h => h hacc⟩⟩
  · exact ⟨d, ⟨s, hs, hle⟩, iff_of_true rfl fun h => absurd h hacc⟩

theorem excess_step {d : ℕ} (h : Excess d g) (hstep : Step g c g') :
    ∃ d', Excess d' g' ∧ (d = 0 → (d' = 0 ↔ c.CountsExactly g)) := by
  cases c with
  | set gcode totalLines metaData =>
    obtain ⟨r, ha⟩ := exec_set.mp hstep
    obtain ⟨d', h', hiff⟩ := excess_append (excess_clear g) ha
    exact ⟨d', h', fun _ => hiff⟩
  | append gcode totalLines metaData =>
    obtain ⟨r, ha⟩ := exec_append.mp hstep
    obtain ⟨d', h', hiff⟩ := excess_append h ha
    exact ⟨d', h', fun h0 => h0 ▸ hiff⟩
  | clear =>
    cases hstep
    exact ⟨0, excess_clear g, fun _ => iff_of_true rfl trivial⟩
  | setCurrentLine line =>
    cases hstep
    obtain ⟨s, hs, hle⟩ := h
    exact ⟨d, ⟨s, ⟨hs.stores, hs.size⟩, hle⟩, fun h0 => iff_of_true h0 trivial⟩
  | setKeepGpxMacroComments keep =>
    cases hstep
    obtain ⟨s, hs, hle⟩ := h
    exact ⟨d, ⟨s, ⟨hs.stores, hs.size⟩, hle⟩, fun h0 => iff_of_true h0 trivial⟩
  | eraseLine amount =>
    obtain ⟨n, he⟩ := exec_eraseLine.mp hstep
    obtain ⟨s, hs, hle⟩ := h
    have hmax : maxBufferSize = 3145728 := by decide
    obtain ⟨s', h', hle'⟩ := hs.eraseLine (by omega) he
    exact ⟨d, ⟨s', h', by omega⟩, fun h0 => iff_of_true h0 trivial⟩

theorem exists_excess_step (h : ∃ d, Excess d g) (hstep : Step g c g') : ∃ d, Excess d g' := by
  obtain ⟨d, hd⟩ := h
  obtain ⟨d', h', -⟩ := excess_step hd hstep
  exact ⟨d', h'⟩

/-- The byte counter can exceed the stored bytes: a lone comment is thrown away but counted. -/
theorem bufferSize_drifts :
    ¬ ∀ (keep : Bool) (calls : List BufferCall) (g : GCodeBuffer),
      Transition.Run Step { keepGpxMacroComments := keep } calls g → g.getBufferSize = g.storedBytes := by
  intro h
  have hstep : Step {} (.append (ascii "; pure comment") (-1) none)
      { buckets := [[]], bufferSize := 14 } := by
    unfold Step
    decide
  have hsize := h false _ _ (.cons hstep (.nil _))
  exact absurd hsize (by decide)

/-- The byte counter is exact in all states of a run if and only if no call of the run
puts a bare comment at the end of an accepted text into an empty bucket. -/
theorem bufferSize_eq_storedBytes_iff {keep : Bool} {calls : List BufferCall}
    (hrun : Transition.Run Step { keepGpxMacroComments := keep } calls g) :
    (∀ pre g₁, pre <+: calls → Transition.Run Step { keepGpxMacroComments := keep } pre g₁ →
        g₁.getBufferSize = g₁.storedBytes) ↔
      ∀ pre c g₁, pre ++ [c] <+: calls →
        Transition.Run Step { keepGpxMacroComments := keep } pre g₁ → c.CountsExactly g₁ := by
  refine hrun.throughout_iff (fun g => ∃ d, Excess d g) (fun _ _ _ _ => step_unique)
    (fun _ _ _ => exists_excess_step) ?_ ⟨0, excess_clear { keepGpxMacroComments := keep }⟩ rfl
  rintro g₁ c g₂ ⟨d, hd⟩ h0 hstep
  obtain ⟨d', hd', hiff⟩ := excess_step hd hstep
  rw [← excess_eq_zero hd']
  exact hiff ((excess_eq_zero hd).mpr h0)

theorem bufferSize_eq_storedBytes_iff_line :
    (∀ pre g₁, pre <+: [.append (ascii "G1;a") (-1) none] → Transition.Run Step {} pre g₁ →
        g₁.getBufferSize = g₁.storedBytes) ↔
      ∀ pre c g₁, pre ++ [c] <+: [.append (ascii "G1;a") (-1) none] →
        Transition.Run Step {} pre g₁ → c.CountsExactly g₁ := by
  have hstep : Step {} (.append (ascii "G1;a") (-1) none)
      { buckets := [ascii "G1\n"], bufferedLines := 1, totalLinesSent := 1, bufferSize := 3 } := by
    unfold Step
    decide
  exact bufferSize_eq_storedBytes_iff (.cons hstep (.nil _))

end BufferCall
end Print3D
