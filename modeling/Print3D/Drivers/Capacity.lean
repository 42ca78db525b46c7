import Print3D.Drivers.Accounting

/-! The maximum size of the gcode buffer. The check of `append` counts the text as it comes in, and
cleanup may then put a newline behind it: the one byte by which the maximum can be exceeded. -/
namespace Print3D
open Lines GCodeBuffer

namespace GCodeBuffer

/-- The buffer is not larger than it may be, by its counter and by its contents. -/
def WithinMax (g : GCodeBuffer) : Prop :=
  g.getBufferSize ≤ getMaxBufferSize ∧ g.storedBytes ≤ maxBufferSize

instance (g : GCodeBuffer) : Decidable g.WithinMax := by
  unfold WithinMax
  infer_instance

/-- An accepted text takes exactly the room that is left, and its last line is not ended. -/
def Overflows (g : GCodeBuffer) (gcode : Text) (metaData : Option MetaData) : Prop :=
  g.Accepts gcode metaData ∧ g.getBufferSize + gcode.length = getMaxBufferSize ∧
    Unterminated g.keepGpxMacroComments gcode

variable {g g' : GCodeBuffer} {s : LineStore} {d : ℕ}

/-- The counter is never below the contents, so it alone decides. -/
theorem Counts.withinMax_iff_le (h : g.Counts s d) : g.WithinMax ↔ s.size + d ≤ maxBufferSize := by
  unfold WithinMax getBufferSize getMaxBufferSize
  rw [h.size, h.stores.storedBytes_eq]
  constructor
  · rintro ⟨hle, -⟩
    omega
  · intro hle
    constructor <;> omega

end GCodeBuffer

namespace BufferCall

variable {g g' : GCodeBuffer} {c : BufferCall}

/-- What a call must not do for the buffer to stay within its maximum. -/
def LeavesRoom (g : GCodeBuffer) : BufferCall → Prop
  | set gcode _ metaData => ¬ g.clear.Overflows gcode metaData
  | append gcode _ metaData => ¬ g.Overflows gcode metaData
  | _ => True

theorem withinMax_append {d : ℕ} (h : Excess d g) (hmax : g.WithinMax) {gcode : Text}
    {totalLines : ℤ} {metaData : Option MetaData} {r : GcodeSetResult}
    (ha : g.append gcode totalLines metaData = some (r, g')) :
    g'.WithinMax ↔ ¬ g.Overflows gcode metaData := by
  obtain ⟨s, hs, -⟩ := h
  have hle := hs.withinMax_iff_le.mp hmax
  have hval : maxBufferSize = 3145728 := by decide
  rcases append_cases ha with ⟨-, hacc, rfl⟩ | ⟨-, hacc, rfl⟩
  · have hroom := hacc.2
    have hsize : sizeT g.bufferSize = s.size + d := by
      rw [sizeT, hs.size]
      omega
    have hs' : (g.housekeeping totalLines metaData).Counts s d :=
      ⟨(housekeeping_buckets ..).trans hs.stores, (housekeeping_bufferSize ..).trans hs.size⟩
    obtain ⟨s', d', h', hle', heq, -⟩ := hs'.foldl_appendChunk (chunked_chunks gcode) (by
      rw [flatten_chunks]
      omega)
    rw [flatten_chunks] at hle' heq
    rw [housekeeping_keepGpxMacroComments, norm_length_eq] at heq
    have hfull : g.getBufferSize + gcode.length = getMaxBufferSize ↔
        s.size + d + gcode.length = maxBufferSize := by
      unfold getBufferSize getMaxBufferSize
      rw [hs.size]
      constructor <;> intro h <;> omega
    rw [h'.withinMax_iff_le, Overflows, and_iff_right hacc, hfull, ← heq]
    omega
  · exact iff_of_true hmax fun h => absurd h.1 hacc

theorem withinMax_clear (g : GCodeBuffer) : g.clear.WithinMax :=
  (show g.clear.Counts .empty 0 from ⟨stores_clear g, rfl⟩).withinMax_iff_le.mpr (Nat.zero_le _)

theorem withinMax_step (h : ∃ d, Excess d g) (hmax : g.WithinMax) (hstep : Step g c g') :
    g'.WithinMax ↔ c.LeavesRoom g := by
  obtain ⟨d, hd⟩ := h
  cases c with
  | set gcode totalLines metaData =>
    obtain ⟨r, ha⟩ := exec_set.mp hstep
    exact withinMax_append (excess_clear g) (withinMax_clear g) ha
  | append gcode totalLines metaData =>
    obtain ⟨r, ha⟩ := exec_append.mp hstep
    exact withinMax_append hd hmax ha
  | clear =>
    cases hstep
    exact iff_of_true (withinMax_clear g) trivial
  | setCurrentLine line =>
    cases hstep
    exact iff_of_true hmax trivial
  | setKeepGpxMacroComments keep =>
    cases hstep
    exact iff_of_true hmax trivial
  | eraseLine amount =>
    obtain ⟨n, he⟩ := exec_eraseLine.mp hstep
    obtain ⟨s, hs, hle⟩ := hd
    have hval : maxBufferSize = 3145728 := by decide
    obtain ⟨s', h', hle'⟩ := hs.eraseLine (by omega) he
    have hsize := hs.withinMax_iff_le.mp hmax
    exact iff_of_true (h'.withinMax_iff_le.mpr (by omega)) trivial

/-- The buffer can hold one byte more than its maximum: the newline put behind a text that fills it. -/
theorem maxBufferSize_exceeded :
    ¬ ∀ (keep : Bool) (calls : List BufferCall) (g : GCodeBuffer),
      Transition.Run Step { keepGpxMacroComments := keep } calls g → g.WithinMax := by
  intro h
  let text : Text := List.replicate maxBufferSize 71
  have hlen : text.length = maxBufferSize := List.length_replicate
  have hmem : ∀ c ∈ text, c = 71 := fun c hc => List.eq_of_mem_replicate hc
  have hacc : GCodeBuffer.Accepts {} text none := ⟨rfl, by rw [hlen]; decide⟩
  have happ := append_of_accepts hacc (-1)
  generalize (chunks text).foldl appendChunk (housekeeping {} (-1) none) = g at happ
  have hstep : Step {} (.append text (-1) none) g := by
    change (GCodeBuffer.append {} text (-1) none).map (·.2) = some g
    rw [happ]
    rfl
  have hunterminated : Unterminated false text := unterminated_of_notMem (by decide)
    (fun hn => absurd (hmem _ hn) (by decide)) (fun hr => absurd (hmem _ hr) (by decide))
    (fun hs => absurd (hmem _ hs) (by decide))
  have hover : GCodeBuffer.Overflows {} text none := ⟨hacc, by rw [hlen]; rfl, hunterminated⟩
  exact (withinMax_append (excess_clear {}) (withinMax_clear {}) happ).mp
    (h false _ g (.cons hstep (.nil g))) hover

/-- The buffer stays within its maximum in all states of a run if and only if no call of the run
takes a text that fills it exactly and whose last line is not ended. -/
theorem withinMax_iff {keep : Bool} {calls : List BufferCall}
    (hrun : Transition.Run Step { keepGpxMacroComments := keep } calls g) :
    (∀ pre g₁, pre <+: calls → Transition.Run Step { keepGpxMacroComments := keep } pre g₁ →
        g₁.WithinMax) ↔
      ∀ pre c g₁, pre ++ [c] <+: calls →
        Transition.Run Step { keepGpxMacroComments := keep } pre g₁ → c.LeavesRoom g₁ :=
  hrun.throughout_iff (fun g => ∃ d, Excess d g) (fun _ _ _ _ => step_unique)
    (fun _ _ _ => exists_excess_step) (fun _ _ _ => withinMax_step)
    ⟨0, excess_clear { keepGpxMacroComments := keep }⟩ (withinMax_clear { keepGpxMacroComments := keep })

theorem withinMax_iff_line :
    (∀ pre g₁, pre <+: [.append (ascii "G1 X1") (-1) none, .eraseLine 1] → Transition.Run Step {} pre g₁ →
        g₁.WithinMax) ↔
      ∀ pre c g₁, pre ++ [c] <+: [.append (ascii "G1 X1") (-1) none, .eraseLine 1] →
        Transition.Run Step {} pre g₁ → c.LeavesRoom g₁ := by
  have h₁ : Step {} (.append (ascii "G1 X1") (-1) none)
      { buckets := [ascii "G1 X1\n"], bufferedLines := 1, totalLinesSent := 1, bufferSize := 6 } := by
    unfold Step
    decide
  have h₂ : Step
      { buckets := [ascii "G1 X1\n"], bufferedLines := 1, totalLinesSent := 1, bufferSize := 6 }
      (.eraseLine 1) { totalLinesSent := 1 } := by
    unfold Step
    decide
  exact withinMax_iff (.cons h₁ (.cons h₂ (.nil _)))

end BufferCall
end Print3D
