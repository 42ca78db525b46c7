import Print3D.Drivers.Accounting

/-! The line counters of the gcode buffer against the stored lines. A text that cleans up to nothing
can leave an empty bucket behind, and `eraseLine` takes that for a line. -/
namespace Print3D
open Lines

namespace GCodeBuffer

variable {g g' : GCodeBuffer} {s : LineStore} {d : ℕ}

/-- The lines in the buckets, each ended by a newline. -/
def storedLines (g : GCodeBuffer) : ℕ := g.buckets.flatten.count newline

/-- The counter of the buffered lines is exact and at most that of all lines sent. -/
def LinesCounted (g : GCodeBuffer) : Prop :=
  g.getBufferedLines = g.storedLines ∧ 0 ≤ g.getBufferedLines ∧ g.getBufferedLines ≤ g.getTotalLinesSent

theorem Stores.storedLines_eq (h : g.Stores s) : g.storedLines = s.lines.length := by
  rw [storedLines, h.flatten_buckets]
  exact count_unlines fun l hl => (s.isLine_of_mem_lines hl).2

theorem Stores.storedLines_le (h : g.Stores s) : s.lines.length ≤ s.size := by
  rw [← h.storedLines_eq, storedLines, h.flatten_buckets]
  exact List.count_le_length

theorem length_normLines_le (keep : Bool) (gcode : Text) :
    (normLines keep gcode).length ≤ gcode.length + 1 := by
  have hcount : (norm keep gcode).count newline = (normLines keep gcode).length :=
    count_unlines fun l hl => (isLine_of_mem_normLines hl).2
  rw [← hcount]
  exact List.count_le_length.trans (norm_length_le keep gcode)

theorem LinesCounted.tracks (h : g.LinesCounted) (hs : g.Stores s) (hsize : s.size < 2 ^ 31)
    (htotal : IsInt32 g.totalLinesSent) :
    ∃ sent : List Text, g.Tracks s sent ∧ g.totalLinesSent = sent.length := by
  obtain ⟨hbuffered, hnonneg, hle⟩ := h
  unfold getBufferedLines at hbuffered hnonneg hle
  unfold getTotalLinesSent at hle
  have hlen := hs.storedLines_le
  rw [hs.storedLines_eq] at hbuffered
  have hsent : g.totalLinesSent =
      (List.replicate (g.totalLinesSent - s.lines.length).toNat [] ++ s.lines).length := by
    rw [List.length_append, List.length_replicate]
    omega
  refine ⟨_, ⟨hs, List.suffix_append _ _, ?_, ?_⟩, hsent⟩
  · rw [hbuffered, i32_eq ⟨by omega, by omega⟩]
  · rw [← hsent, i32_eq htotal]

theorem Tracks.linesCounted_iff_le {sent : List Text} (h : g.Tracks s sent) (hsize : s.lines.length < 2 ^ 31) :
    g.LinesCounted ↔ (s.lines.length : ℤ) ≤ i32 sent.length := by
  have hbuffered : i32 s.lines.length = s.lines.length := i32_eq ⟨by omega, by omega⟩
  unfold LinesCounted getBufferedLines getTotalLinesSent
  rw [h.stores.storedLines_eq, h.buffered, h.total, hbuffered]
  constructor
  · exact fun h => h.2.2
  · exact fun h => ⟨rfl, by omega, h⟩

end GCodeBuffer

namespace BufferCall
open GCodeBuffer

variable {g g' : GCodeBuffer} {c : BufferCall}

/-- `eraseLine` returns, with the number of lines it has removed. -/
def ErasesExactly (g : GCodeBuffer) : BufferCall → Prop
  | eraseLine amount => ∃ n g', g.eraseLine amount = some (n, g') ∧ n = (g.storedLines : ℤ) - g'.storedLines
  | _ => True

/-- No line is erased from an empty bucket, and the lines sent since the last clear still fit
their counter. -/
def CountsLines (g : GCodeBuffer) : BufferCall → Prop
  | append gcode _ metaData => g.Accepts gcode metaData →
      g.getTotalLinesSent + (normLines g.keepGpxMacroComments gcode).length < 2 ^ 31
  | eraseLine _ => g.buckets.head? ≠ some []
  | _ => True

/-- The buffer is in one of the states that calls lead to. -/
def InRange (g : GCodeBuffer) : Prop := (∃ d, Excess d g) ∧ IsInt32 g.totalLinesSent

theorem linesCounted_append (h : InRange g) (hcounted : g.LinesCounted) {gcode : Text}
    {totalLines : ℤ} {metaData : Option MetaData} {r : GcodeSetResult}
    (ha : g.append gcode totalLines metaData = some (r, g')) :
    IsInt32 g'.totalLinesSent ∧
      (g'.LinesCounted ↔ CountsLines g (.append gcode totalLines metaData)) := by
  obtain ⟨⟨d, s, hs, hle⟩, htotal⟩ := h
  have hval : maxBufferSize = 3145728 := by decide
  obtain ⟨sent, htracks, hsent⟩ := hcounted.tracks hs.stores (by omega) htotal
  have hlen := hs.stores.storedLines_le
  rcases append_cases ha with ⟨rfl, hacc, -⟩ | ⟨-, hacc, rfl⟩
  · obtain ⟨s', htracks', hlines⟩ := htracks.append ha
    have hadded := length_normLines_le g.keepGpxMacroComments gcode
    have hroom := hacc.2
    have hcount := hcounted.2.2
    unfold getBufferedLines getTotalLinesSent at hcount
    rw [htracks.buffered, hsent, i32_eq ⟨by omega, by omega⟩] at hcount
    refine ⟨htracks'.total ▸ isInt32_i32 _, ?_⟩
    have hlines' : s'.lines.length = s.lines.length + (normLines g.keepGpxMacroComments gcode).length := by
      rw [hlines, List.length_append]
    rw [htracks'.linesCounted_iff_le (by omega), hlines', List.length_append]
    simp only [CountsLines, hacc, true_imp_iff, getTotalLinesSent, hsent]
    by_cases hfits : (sent.length : ℤ) + (normLines g.keepGpxMacroComments gcode).length < 2 ^ 31
    · rw [i32_eq ⟨by omega, by omega⟩]
      exact iff_of_true (by omega) hfits
    · have hlt := htotal.2
      have hneg : i32 (sent.length + (normLines g.keepGpxMacroComments gcode).length : ℕ) < 0 :=
        i32_neg (by omega) (by omega)
      exact iff_of_false (not_le.mpr (hneg.trans_le (Int.natCast_nonneg _))) hfits
  · exact ⟨htotal, iff_of_true hcounted fun h => absurd h hacc⟩

/-- What `eraseLine` does to counted lines. Only on an empty bucket it fails, or counts a line that
is not there. -/
theorem linesCounted_eraseLine (h : InRange g) (hcounted : g.LinesCounted) (amount : ℕ) :
    (ErasesExactly g (.eraseLine amount) ∧
        ∀ n g', g.eraseLine amount = some (n, g') → g'.LinesCounted) ↔ g.buckets.head? ≠ some [] := by
  obtain ⟨⟨d, s, hs, hle⟩, htotal⟩ := h
  have hval : maxBufferSize = 3145728 := by decide
  by_cases hf : s.front = []
  · cases hb : s.buckets with
    | nil =>
      have hnil : g.buckets = [] := by rw [hs.stores, hb, List.map_nil]
      have herase : g.eraseLine amount = some (0, g) := by rw [GCodeBuffer.eraseLine, hnil]
      rw [hnil]
      refine iff_of_true ⟨⟨0, g, herase, (sub_self _).symm⟩, fun n g' he => ?_⟩ (by simp)
      rw [herase, Option.some.injEq, Prod.mk.injEq] at he
      exact he.2 ▸ hcounted
    | cons b rest =>
      have hb' : b = [] := by rwa [LineStore.front, hb, List.headD_cons] at hf
      have hcons : g.buckets = [] :: rest.map (unlines newline) := by
        rw [hs.stores, hb, hb', List.map_cons, unlines_nil]
      rw [hcons]
      refine iff_of_false ?_ (by simp)
      rintro ⟨⟨n, g', he, hn⟩, -⟩
      rw [GCodeBuffer.eraseLine, hcons] at he
      obtain ⟨⟨pos, counter⟩, hend, he⟩ := Option.map_eq_some_iff.mp he
      rw [eraseEnd_nil] at hend
      split_ifs at hend
      cases hend
      cases he
      simp [storedLines, hcons, eraseThrough] at hn
  · obtain ⟨sent, htracks, hsent⟩ := hcounted.tracks hs.stores (by omega) htotal
    obtain ⟨g', he, htracks'⟩ := htracks.eraseLine hf amount
    have hk : taken amount s.front.length ≤ s.lines.length :=
      (min_le_right ..).trans s.front_prefix.length_le
    have hlines : (s.erase (taken amount s.front.length)).lines = s.lines.drop (taken amount s.front.length) :=
      s.lines_erase (min_le_right ..)
    have hhead : g.buckets.head? ≠ some [] := by
      intro hhead
      rw [hs.stores, List.head?_map] at hhead
      obtain ⟨b, hb, hnil⟩ := Option.map_eq_some_iff.mp hhead
      rw [LineStore.front, List.headD_eq_head?_getD, hb, Option.getD_some] at hf
      exact hf (unlines_eq_nil.mp hnil)
    refine iff_of_true ⟨⟨_, g', he, ?_⟩, fun n g'' he' => ?_⟩ hhead
    · rw [hs.stores.storedLines_eq, htracks'.stores.storedLines_eq, hlines, List.length_drop]
      omega
    · rw [he, Option.some.injEq, Prod.mk.injEq] at he'
      obtain ⟨-, rfl⟩ := he'
      have hcount := hcounted.2.2
      have hlen := hs.stores.storedLines_le
      unfold getBufferedLines getTotalLinesSent at hcount
      rw [htracks.buffered, htracks.total, i32_eq ⟨by omega, by omega⟩] at hcount
      rw [htracks'.linesCounted_iff_le (by rw [hlines, List.length_drop]; omega), hlines, List.length_drop]
      omega

theorem linesCounted_clear (g : GCodeBuffer) : g.clear.LinesCounted := ⟨rfl, le_rfl, le_rfl⟩

theorem inRange_clear (g : GCodeBuffer) : InRange g.clear := by
  refine ⟨⟨0, excess_clear g⟩, ?_⟩
  change IsInt32 0
  norm_num [IsInt32]

theorem inRange_step (h : InRange g) (hcounted : g.LinesCounted) (hstep : Step g c g') : InRange g' := by
  refine ⟨exists_excess_step h.1 hstep, ?_⟩
  cases c with
  | set gcode totalLines metaData =>
    obtain ⟨r, ha⟩ := exec_set.mp hstep
    exact (linesCounted_append (inRange_clear g) (linesCounted_clear g) ha).1
  | append gcode totalLines metaData =>
    obtain ⟨r, ha⟩ := exec_append.mp hstep
    exact (linesCounted_append h hcounted ha).1
  | clear =>
    cases hstep
    exact (inRange_clear g).2
  | setCurrentLine line =>
    cases hstep
    exact h.2
  | setKeepGpxMacroComments keep =>
    cases hstep
    exact h.2
  | eraseLine amount =>
    obtain ⟨n, he⟩ := exec_eraseLine.mp hstep
    rw [eraseLine_frame he]
    exact h.2

theorem linesCounted_step (h : InRange g) (hcounted : g.LinesCounted) (c : BufferCall) :
    (c.ErasesExactly g ∧ ∀ g', Step g c g' → g'.LinesCounted) ↔ c.CountsLines g := by
  cases c with
  | set gcode totalLines metaData =>
    refine iff_of_true ⟨trivial, fun g' hstep => ?_⟩ trivial
    obtain ⟨r, ha⟩ := exec_set.mp hstep
    refine (linesCounted_append (inRange_clear g) (linesCounted_clear g) ha).2.mpr fun hacc => ?_
    have hadded := length_normLines_le g.keepGpxMacroComments gcode
    have hroom := hacc.2
    have hval : maxBufferSize = 3145728 := by decide
    change (0 : ℤ) + (normLines g.keepGpxMacroComments gcode).length < 2 ^ 31
    omega
  | append gcode totalLines metaData =>
    constructor
    · rintro ⟨-, hnext⟩ hacc
      have happ := append_of_accepts hacc totalLines
      have hstep : Step g (.append gcode totalLines metaData) _ := exec_append.mpr ⟨_, happ⟩
      exact (linesCounted_append h hcounted happ).2.mp (hnext _ hstep) hacc
    · refine fun hlines => ⟨trivial, fun g' hstep => ?_⟩
      obtain ⟨r, ha⟩ := exec_append.mp hstep
      exact (linesCounted_append h hcounted ha).2.mpr hlines
  | clear =>
    refine iff_of_true ⟨trivial, fun g' hstep => ?_⟩ trivial
    cases hstep
    exact linesCounted_clear g
  | setCurrentLine line =>
    refine iff_of_true ⟨trivial, fun g' hstep => ?_⟩ trivial
    cases hstep
    exact hcounted
  | setKeepGpxMacroComments keep =>
    refine iff_of_true ⟨trivial, fun g' hstep => ?_⟩ trivial
    cases hstep
    exact hcounted
  | eraseLine amount =>
    rw [CountsLines, ← linesCounted_eraseLine h hcounted amount]
    refine and_congr_right fun _ => ⟨fun hnext n g' he => ?_, fun hnext g' hstep => ?_⟩
    · exact hnext g' (exec_eraseLine.mpr ⟨_, he⟩)
    · obtain ⟨n, he⟩ := exec_eraseLine.mp hstep
      exact hnext n g' he

/-- The accounting of lines can fail: after a lone comment an empty bucket counts as a line. -/
theorem eraseLine_counts_too_much :
    ¬ ∀ (keep : Bool) (calls : List BufferCall) (pre : List BufferCall) (g : GCodeBuffer), pre <+: calls →
      Transition.Run Step { keepGpxMacroComments := keep } pre g →
        g.LinesCounted ∧ ∀ c, pre ++ [c] <+: calls → c.ErasesExactly g := by
  intro h
  have hstep : Step {} (.append (ascii ";c") (-1) none) { buckets := [[]], bufferSize := 2 } := by
    unfold Step
    decide
  obtain ⟨-, herase⟩ := h false [.append (ascii ";c") (-1) none, .eraseLine 1] [.append (ascii ";c") (-1) none]
    _ ⟨[.eraseLine 1], rfl⟩ (.cons hstep (.nil _))
  obtain ⟨n, g', he, hn⟩ := herase (.eraseLine 1) ⟨[], rfl⟩
  cases he
  exact absurd hn (by decide)

/-- Along any list of calls the lines are counted in every state reached, and every `eraseLine`
returns what it has removed, if and only if none is made on an empty bucket and the lines sent
since the last clear fit an `int32_t`. -/
theorem linesCounted_iff (keep : Bool) (calls : List BufferCall) :
    (∀ pre g, pre <+: calls → Transition.Run Step { keepGpxMacroComments := keep } pre g →
        g.LinesCounted ∧ ∀ c, pre ++ [c] <+: calls → c.ErasesExactly g) ↔
      ∀ pre c g, pre ++ [c] <+: calls →
        Transition.Run Step { keepGpxMacroComments := keep } pre g → c.CountsLines g :=
  Transition.throughout_iff (fun g _ => InRange g) (fun _ _ _ _ => inRange_step)
    (fun _ c _ h hcounted => linesCounted_step h hcounted c) (inRange_clear { keepGpxMacroComments := keep })
    (linesCounted_clear { keepGpxMacroComments := keep })

end BufferCall
end Print3D
