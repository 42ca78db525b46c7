import Print3D.Drivers.Accounting
import Print3D.Drivers.Sequence

/-! The texts that the gcode buffer takes without being changed by them. -/
namespace Print3D
open Lines Transition

namespace LineStore

variable {s : LineStore} {b : List Text}

theorem put_nil (hlast : s.buckets.getLast? = some b) (hroom : full b = false) {ls : List Text} (hls : ls = [])
    (h : ∀ l ∈ ls, IsLine newline l) : (s.put ls h).buckets = s.buckets := by
  subst hls
  obtain ⟨bs, hbs⟩ := List.getLast?_eq_some_iff.mp hlast
  change closed s.buckets ++ [current s.buckets ++ []] = s.buckets
  unfold closed current
  rw [hbs, List.getLastD_concat, List.dropLast_concat, hroom, List.append_nil]
  rfl

end LineStore

namespace GCodeBuffer

variable {g g' : GCodeBuffer} {s : LineStore} {d : ℕ} {gcode : Text} {totalLines : ℤ}
  {metaData : Option MetaData}

@[simp] theorem housekeeping_currentLine (totalLines : ℤ) (metaData : Option MetaData) :
    (g.housekeeping totalLines metaData).currentLine = g.currentLine := by
  unfold housekeeping
  cases metaData <;> dsimp only <;> split_ifs <;> rfl

/-! ### The buffers there are -/

def Reachable (g : GCodeBuffer) : Prop :=
  ∃ keep calls, Run BufferCall.Step { keepGpxMacroComments := keep } calls g

/-- The counters of lines are in range, and the current line is none behind the last one. -/
structure StatsFit (g : GCodeBuffer) : Prop where
  buffered : IsInt32 g.bufferedLines
  total : IsInt32 g.totalLinesSent
  current : g.currentLine ≤ g.totalLinesSent

theorem statsFit_init (keep : Bool) : StatsFit { keepGpxMacroComments := keep } := by
  have hzero : IsInt32 0 := ⟨by decide, by decide⟩
  exact ⟨hzero, hzero, le_rfl⟩

theorem statsFit_updateStats (g : GCodeBuffer) (buffer : Text) (pos : ℕ) :
    (g.updateStats buffer pos).StatsFit := by
  refine ⟨isInt32_i32 _, isInt32_i32 _, ?_⟩
  unfold updateStats
  dsimp only
  split_ifs <;> omega

theorem StatsFit.foldl_appendChunk (h : g.StatsFit) (cs : List Text) : (cs.foldl appendChunk g).StatsFit := by
  induction cs generalizing g with
  | nil => exact h
  | cons c cs ih => exact ih (statsFit_updateStats _ _ _)

theorem StatsFit.append (h : g.StatsFit) {r : GcodeSetResult}
    (ha : g.append gcode totalLines metaData = some (r, g')) : g'.StatsFit := by
  rcases append_cases ha with ⟨-, -, rfl⟩ | ⟨-, -, rfl⟩
  · refine StatsFit.foldl_appendChunk ⟨?_, ?_, ?_⟩ _
    · rw [housekeeping_bufferedLines]
      exact h.buffered
    · rw [housekeeping_totalLinesSent]
      exact h.total
    · rw [housekeeping_totalLinesSent, housekeeping_currentLine]
      exact h.current
  · exact h

theorem statsFit_step (g : GCodeBuffer) (c : BufferCall) (g' : GCodeBuffer) (h : g.StatsFit)
    (hstep : BufferCall.Step g c g') : g'.StatsFit := by
  cases c with
  | set gcode totalLines metaData =>
    obtain ⟨r, ha⟩ := BufferCall.exec_set.mp hstep
    exact (statsFit_init g.keepGpxMacroComments).append ha
  | append gcode totalLines metaData =>
    obtain ⟨r, ha⟩ := BufferCall.exec_append.mp hstep
    exact h.append ha
  | clear =>
    cases hstep
    exact statsFit_init g.keepGpxMacroComments
  | setCurrentLine line =>
    cases hstep
    exact ⟨h.buffered, h.total, min_le_right ..⟩
  | setKeepGpxMacroComments keep =>
    cases hstep
    exact ⟨h.buffered, h.total, h.current⟩
  | eraseLine amount =>
    obtain ⟨n, he⟩ := BufferCall.exec_eraseLine.mp hstep
    unfold GCodeBuffer.eraseLine at he
    split at he
    · cases he
      exact h
    · obtain ⟨⟨pos, counter⟩, -, he⟩ := Option.map_eq_some_iff.mp he
      cases he
      exact ⟨isInt32_i32 _, h.total, h.current⟩

theorem Reachable.statsFit (h : g.Reachable) : g.StatsFit := by
  obtain ⟨keep, calls, hrun⟩ := h
  exact hrun.invariant StatsFit statsFit_step (statsFit_init keep)

theorem Reachable.excess (h : g.Reachable) : ∃ d, BufferCall.Excess d g := by
  obtain ⟨keep, calls, hrun⟩ := h
  exact hrun.invariant (fun g => ∃ d, BufferCall.Excess d g) (fun _ _ _ => BufferCall.exists_excess_step)
    ⟨0, BufferCall.excess_clear { keepGpxMacroComments := keep }⟩

/-! ### What a text adds -/

theorem Stores.foldl_appendChunk (h : g.Stores s) (cs : List Text) :
    ∃ s', (cs.foldl GCodeBuffer.appendChunk g).Stores s' ∧
      s'.lines = s.lines ++ (cs.map (normLines g.keepGpxMacroComments)).flatten := by
  induction cs generalizing g s with
  | nil => exact ⟨s, h, by simp⟩
  | cons c cs ih =>
    have hnext : (g.appendChunk c).Stores (s.put (normLines g.keepGpxMacroComments c)
        fun _ => isLine_of_mem_normLines) := by
      rw [appendChunk_eq h]
      rfl
    obtain ⟨s', h', hlines⟩ := ih hnext
    rw [appendChunk_keepGpxMacroComments h, LineStore.lines_put, List.append_assoc] at hlines
    exact ⟨s', h', hlines⟩

theorem Reachable.append (h : g.Reachable) (ha : g.append gcode totalLines metaData = some (.ok, g')) :
    g'.buckets.flatten = g.buckets.flatten ++ norm g.keepGpxMacroComments gcode := by
  obtain ⟨d, s, hcounts, -⟩ := h.excess
  rcases append_cases ha with ⟨-, -, rfl⟩ | ⟨hr, -⟩
  · have hstores : (g.housekeeping totalLines metaData).Stores s :=
      (housekeeping_buckets ..).trans hcounts.stores
    obtain ⟨s', h', hlines⟩ := hstores.foldl_appendChunk (chunks gcode)
    rw [housekeeping_keepGpxMacroComments, ← normLines_flatten _ (chunked_chunks gcode),
      flatten_chunks] at hlines
    rw [h'.flatten_buckets, hcounts.stores.flatten_buckets, hlines, unlines_append, norm]
  · exact absurd rfl hr

/-! ### Nothing -/

/-- The text leaves no line, the last bucket has room for what it leaves, and it does not end in a bare comment
that goes to an empty bucket; the total and the metadata, as far as they are recorded, are those that are
there. -/
structure Ignores (g : GCodeBuffer) (gcode : Text) (totalLines : ℤ) (metaData : Option MetaData) : Prop where
  totalLines : totalLines < 0 ∨ g.explicitTotalLines = totalLines
  metaData : ∀ m, metaData = some m →
    m.seqNumber = g.md.seqNumber ∧ m.seqTotal = g.md.seqTotal ∧ (g.md.source = none → m.source = none)
  text : gcode = [] ∨ norm g.keepGpxMacroComments gcode = [] ∧ ∃ b, g.buckets.getLast? = some b ∧
    b.length < maxBucketSize ∧ ¬ Overcounts g.keepGpxMacroComments b.length (chunks gcode)

theorem appendChunk_explicitTotalLines (g : GCodeBuffer) (chunk : Text) :
    (g.appendChunk chunk).explicitTotalLines = g.explicitTotalLines := by
  unfold appendChunk updateStats
  dsimp only
  unfold cleanupGCode
  dsimp only
  split <;> rfl

theorem foldl_appendChunk_explicitTotalLines (g : GCodeBuffer) (cs : List Text) :
    (cs.foldl appendChunk g).explicitTotalLines = g.explicitTotalLines := by
  induction cs generalizing g with
  | nil => rfl
  | cons c cs ih => rw [List.foldl_cons, ih, appendChunk_explicitTotalLines]

theorem housekeeping_eq_self_iff : g.housekeeping totalLines metaData = g ↔
    (totalLines < 0 ∨ g.explicitTotalLines = totalLines) ∧ ∀ m, metaData = some m →
      m.seqNumber = g.md.seqNumber ∧ m.seqTotal = g.md.seqTotal ∧ (g.md.source = none → m.source = none) := by
  obtain ⟨buckets, currentLine, bufferedLines, totalLinesSent, explicitTotalLines, bufferSize,
    ⟨seqNumber, seqTotal, source⟩, keep⟩ := g
  unfold housekeeping
  cases metaData with
  | none =>
    dsimp only
    split_ifs with htotal
    · simp only [GCodeBuffer.mk.injEq]
      grind
    · simp only [false_implies, implies_true, and_true, true_iff]
      omega
  | some m =>
    cases source <;> split_ifs with htotal <;> simp only [GCodeBuffer.mk.injEq, MetaData.mk.injEq] <;> grind

theorem housekeeping_eq (g : GCodeBuffer) (totalLines : ℤ) (metaData : Option MetaData) :
    g.housekeeping totalLines metaData = { g with
      explicitTotalLines := (g.housekeeping totalLines metaData).explicitTotalLines
      md := (g.housekeeping totalLines metaData).md } := by
  unfold housekeeping
  cases metaData <;> dsimp only <;> split_ifs <;> rfl

/-- Appending takes no bucket away, and adds one where there is no room. -/
theorem length_appendChunk (g : GCodeBuffer) (chunk : Text) :
    (g.appendChunk chunk).buckets.length = (openBucket g.buckets).length := by
  have hbuckets : (g.appendChunk chunk).buckets = (openBucket g.buckets).dropLast ++
      [(g.cleanupGCode ((openBucket g.buckets).getLastD [] ++ chunk)
        ((openBucket g.buckets).getLastD []).length).2] := rfl
  have hpos : 0 < (openBucket g.buckets).length := by
    unfold openBucket
    dsimp only
    split_ifs <;> simp_all [List.length_pos_iff]
  rw [hbuckets, List.length_append, List.length_dropLast, List.length_singleton]
  omega

theorem length_le_openBucket (buckets : List Text) : buckets.length ≤ (openBucket buckets).length := by
  unfold openBucket
  dsimp only
  split_ifs <;> simp

theorem exists_room {buckets : List Text} (h : (openBucket buckets).length ≤ buckets.length) :
    ∃ b, buckets.getLast? = some b ∧ b.length < maxBucketSize := by
  rcases List.eq_nil_or_concat buckets with rfl | ⟨bs, b, hb⟩
  · exact absurd h (by decide)
  · rw [List.concat_eq_append] at hb
    subst hb
    refine ⟨b, List.getLast?_concat, ?_⟩
    by_contra hfull
    unfold openBucket at h
    simp [not_lt.mp hfull] at h

theorem length_le_foldl_appendChunk (g : GCodeBuffer) (cs : List Text) :
    g.buckets.length ≤ (cs.foldl appendChunk g).buckets.length := by
  induction cs generalizing g with
  | nil => exact le_rfl
  | cons c cs ih =>
    have hstep := length_appendChunk g c
    have hopen := length_le_openBucket g.buckets
    exact (hopen.trans hstep.ge).trans (ih _)

theorem appendChunk_eq_self (hcounts : g.Counts s d) (hfits : s.size + d < 2 ^ 31) (hstats : g.StatsFit)
    {b : List Text} (hlast : s.buckets.getLast? = some b) (hroom : LineStore.full b = false) {chunk : Text}
    (hnorm : norm g.keepGpxMacroComments chunk = [])
    (hbare : ¬ (BareComment g.keepGpxMacroComments (chunk.map crToNewline) ∧
      (s.lastLength = 0 ∨ maxBucketSize ≤ s.lastLength))) : g.appendChunk chunk = g := by
  have hlines : normLines g.keepGpxMacroComments chunk = [] := unlines_eq_nil.mp hnorm
  have haccounted : accounted g.keepGpxMacroComments (LineStore.current s.buckets) chunk = 0 := by
    rw [accounted, if_neg fun h => hbare ⟨h.2, LineStore.current_eq_nil s |>.mp h.1⟩, hnorm, List.length_nil]
  have hsize : i32 g.bufferSize = g.bufferSize := by
    rw [hcounts.size]
    exact i32_eq ⟨by omega, by omega⟩
  have hbuckets : s.buckets.map (unlines newline) = g.buckets := hcounts.stores.symm
  rw [appendChunk_eq hcounts.stores, LineStore.put_nil hlast hroom hlines, haccounted, hlines, hbuckets]
  simp only [List.length_nil, Nat.cast_zero, add_zero, hsize, i32_eq hstats.buffered, i32_eq hstats.total,
    min_eq_left hstats.current]

theorem foldl_appendChunk_eq_self (hcounts : g.Counts s d) (hfits : s.size + d < 2 ^ 31) (hstats : g.StatsFit)
    {b : List Text} (hlast : s.buckets.getLast? = some b) (hroom : LineStore.full b = false) {cs : List Text}
    (hnorm : ∀ c ∈ cs, norm g.keepGpxMacroComments c = [])
    (hexact : ¬ Overcounts g.keepGpxMacroComments s.lastLength cs) : cs.foldl appendChunk g = g := by
  induction cs with
  | nil => rfl
  | cons c cs ih =>
    obtain ⟨hbare, hexact⟩ := not_or.mp hexact
    have hnil := hnorm c (List.mem_cons_self ..)
    have hlength : lengthAfter g.keepGpxMacroComments s.lastLength c = s.lastLength := by
      have hless : s.lastLength < maxBucketSize := by
        obtain ⟨bs, hbs⟩ := List.getLast?_eq_some_iff.mp hlast
        rw [LineStore.lastLength, hbs, List.getLastD_concat]
        simpa [LineStore.full] using hroom
      rw [lengthAfter, if_neg (not_le.mpr hless), hnil, List.length_nil, Nat.add_zero]
    rw [hlength] at hexact
    rw [List.foldl_cons, appendChunk_eq_self hcounts hfits hstats hlast hroom hnil hbare]
    exact ih (fun c' hc' => hnorm c' (List.mem_cons_of_mem _ hc')) hexact

theorem Counts.lastLength_of_getLast? (hcounts : g.Counts s d) {b : Text}
    (hlast : g.buckets.getLast? = some b) :
    s.lastLength = b.length := by
  rw [BufferCall.lastLength_eq hcounts.stores, List.getLastD_eq_getLast?, hlast]
  rfl

theorem housekeeping_of_append_eq_self (hacc : g.Accepts gcode metaData)
    (happend : g.append gcode totalLines metaData = some (.ok, g)) :
    g.housekeeping totalLines metaData = g := by
  rw [append_of_accepts hacc, Option.some.injEq, Prod.mk.injEq] at happend
  have hexplicit := congrArg explicitTotalLines happend.2
  have hmd := congrArg md happend.2
  rw [foldl_appendChunk_explicitTotalLines] at hexplicit
  rw [foldl_appendChunk_md] at hmd
  rw [housekeeping_eq, hexplicit, hmd]

theorem exists_room_of_append_eq_self (hne : gcode ≠ []) (hfold : (chunks gcode).foldl appendChunk g = g) :
    ∃ b, g.buckets.getLast? = some b ∧ b.length < maxBucketSize := by
  apply exists_room
  obtain ⟨c, cs, hcs⟩ : ∃ c cs, chunks gcode = c :: cs := by
    cases hchunks : chunks gcode with
    | nil => exact absurd (by rw [← flatten_chunks gcode, hchunks]; rfl) hne
    | cons c cs => exact ⟨c, cs, rfl⟩
  have hrest := length_le_foldl_appendChunk (g.appendChunk c) cs
  rw [← List.foldl_cons, ← hcs, hfold, length_appendChunk] at hrest
  exact hrest

theorem Counts.not_overcounts (hcounts : g.Counts s d)
    (hfits : s.size + d + gcode.length ≤ maxBufferSize)
    (hfold : (chunks gcode).foldl GCodeBuffer.appendChunk g = g) :
    ¬ Overcounts g.keepGpxMacroComments s.lastLength (chunks gcode) := by
  have hmax : maxBufferSize = 3145728 := by decide
  obtain ⟨s', d', hcounts', -, -, hexact⟩ := hcounts.foldl_appendChunk (chunked_chunks gcode) (by
    rw [flatten_chunks]
    omega)
  rw [hfold] at hcounts'
  have hstored := hcounts.stores.storedBytes_eq.symm.trans hcounts'.stores.storedBytes_eq
  have hcount := hcounts.size.symm.trans hcounts'.size
  exact hexact.mp (by omega)

theorem norm_of_mem_chunks {keep : Bool} (hnorm : norm keep gcode = []) {c : Text} (hc : c ∈ chunks gcode) :
    norm keep c = [] := by
  have hlines : ((chunks gcode).map (normLines keep)).flatten = [] := by
    rw [← normLines_flatten _ (chunked_chunks gcode), flatten_chunks]
    exact unlines_eq_nil.mp hnorm
  rw [norm, List.flatten_eq_nil_iff.mp hlines _ (List.mem_map_of_mem hc)]
  rfl

/-- The texts that are taken and change nothing. -/
theorem append_eq_self_iff (h : g.Reachable) (hacc : g.Accepts gcode metaData) :
    g.append gcode totalLines metaData = some (.ok, g) ↔ g.Ignores gcode totalLines metaData := by
  obtain ⟨d, s, hcounts, hle⟩ := h.excess
  have hmax : maxBufferSize = 3145728 := by decide
  have hfits : s.size + d + gcode.length ≤ maxBufferSize := by
    have hsize : sizeT g.bufferSize = s.size + d := by
      rw [sizeT, hcounts.size]
      omega
    exact hsize ▸ hacc.2
  constructor
  · intro happend
    have hkeeps := housekeeping_of_append_eq_self hacc happend
    obtain ⟨htotal, hmeta⟩ := housekeeping_eq_self_iff.mp hkeeps
    refine ⟨htotal, hmeta, ?_⟩
    by_cases hnil : gcode = []
    · exact .inl hnil
    have hfold := happend
    rw [append_of_accepts hacc, hkeeps, Option.some.injEq, Prod.mk.injEq] at hfold
    obtain ⟨b, hlast, hroom⟩ := exists_room_of_append_eq_self hnil hfold.2
    have hexact := hcounts.not_overcounts hfits hfold.2
    rw [hcounts.lastLength_of_getLast? hlast] at hexact
    exact .inr ⟨List.self_eq_append_right.mp (h.append happend), b, hlast, hroom, hexact⟩
  · rintro ⟨htotal, hmeta, htext⟩
    rw [append_of_accepts hacc, housekeeping_eq_self_iff.mpr ⟨htotal, hmeta⟩]
    rcases htext with rfl | ⟨hnorm, b, hlast, hroom, hexact⟩
    · rfl
    rw [← hcounts.lastLength_of_getLast? hlast] at hexact
    have hstores : g.buckets = s.buckets.map (unlines newline) := hcounts.stores
    rw [hstores, List.getLast?_map] at hlast
    obtain ⟨ls, hls, rfl⟩ := Option.map_eq_some_iff.mp hlast
    have hroom : LineStore.full ls = false := by simpa [LineStore.full] using hroom
    rw [foldl_appendChunk_eq_self hcounts (by omega) h.statsFit hls hroom
      (fun _ => norm_of_mem_chunks hnorm) hexact]

end GCodeBuffer
end Print3D
