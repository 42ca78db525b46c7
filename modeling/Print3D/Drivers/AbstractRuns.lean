import Print3D.Drivers.AbstractDriver
import Print3D.Drivers.BufferRuns

/-! What the functions of the base class do to the state and to the gcode buffer. -/
namespace Print3D
open GCodeBuffer

namespace AbstractDriver

variable {atof : Text → Int32} {d d' : AbstractDriver}

theorem isPrinterOnline_congr (h : d'.state = d.state) : d'.isPrinterOnline = d.isPrinterOnline := by
  rw [isPrinterOnline, h, isPrinterOnline]

theorem isPrinting_congr (h : d'.state = d.state) : d'.isPrinting = d.isPrinting := by
  rw [isPrinting, h, isPrinting]

theorem isPrinterOnline_iff : d.isPrinterOnline = true ↔
    d.state = .idle ∨ d.state = .buffering ∨ d.state = .printing ∨ d.state = .stopping := by
  unfold isPrinterOnline
  cases d.state <;> decide

theorem openConnection_gcodeBuffer (d : AbstractDriver) (rv : ℤ) (ssrOk : Bool) :
    (d.openConnection rv ssrOk).2.gcodeBuffer = d.gcodeBuffer := by
  unfold openConnection setBaudrate
  split_ifs <;> rfl

theorem resetPrint_cases (d : AbstractDriver) :
    (d.isPrinterOnline = true ∧ d.resetPrint.2.state = .idle ∨
      d.isPrinterOnline = false ∧ d.resetPrint.2 = d) ∧ d.resetPrint.2.isConnected = d.isConnected := by
  unfold resetPrint
  by_cases ho : d.isPrinterOnline = true
  · rw [if_pos ho]
    exact ⟨.inl ⟨ho, rfl⟩, rfl⟩
  · rw [if_neg ho]
    exact ⟨.inr ⟨by simpa using ho, rfl⟩, rfl⟩

theorem resetPrint_keep (d : AbstractDriver) :
    d.resetPrint.2.gcodeBuffer.keepGpxMacroComments = d.gcodeBuffer.keepGpxMacroComments := by
  unfold resetPrint
  split_ifs <;> rfl

theorem startPrint_offline (h : d.isPrinterOnline = false) (state : DriverState) :
    d.startPrint state = (false, d) := by
  rw [startPrint, if_pos (by simp [h])]

theorem startPrint_online (h : d.isPrinterOnline = true) (state : DriverState) :
    ∃ g, (g = d.gcodeBuffer ∨ g = d.gcodeBuffer.setCurrentLine 0) ∧ d.startPrint state = (true, { d with
      state := state
      gcodeBuffer := g }) := by
  rw [startPrint, if_neg (by simp [h])]
  dsimp only
  split_ifs
  · rw [resetPrint, if_pos h]
    exact ⟨_, .inr rfl, rfl⟩
  · exact ⟨_, .inl rfl, rfl⟩

theorem isPrinterOnline_of_idle (h : d.state = .idle) : d.isPrinterOnline = true :=
  isPrinterOnline_iff.mpr (.inl h)

theorem isPrinting_of_idle (h : d.state = .idle) : d.isPrinting = false := by
  rw [isPrinting, h]
  rfl

theorem isPrinting_of_state (h : d.state = .printing ∨ d.state = .stopping) : d.isPrinting = true :=
  decide_eq_true h

theorem isPrinterOnline_of_isPrinting (h : d.isPrinting = true) : d.isPrinterOnline = true := by
  rcases of_decide_eq_true h with h | h <;> simp [isPrinterOnline, h]

theorem extractGCodeInfo_eq {gcode : Text} (h : extractGCodeInfo atof d gcode = some d') :
    ∃ t b, d' = { d with
      targetTemperature := t
      targetBedTemperature := b } := by
  obtain ⟨target, -, h⟩ := Option.bind_eq_some_iff.mp h
  obtain ⟨bedTarget, -, h⟩ := Option.bind_eq_some_iff.mp h
  exact ⟨_, _, (Option.some.inj h).symm⟩

theorem gcodeStored_eq {gcode : Text} {r r' : GcodeSetResult}
    {g : GCodeBuffer} (h : gcodeStored atof d gcode (r, g) = some (r', d')) :
    r' = r ∧ ∃ t b state, d' = { d with
      targetTemperature := t
      targetBedTemperature := b
      state := state
      gcodeBuffer := g } ∧
      (state = d.state ∨ d.state = .idle ∧ state = .buffering) := by
  unfold gcodeStored at h
  split at h
  · rename_i heq
    cases heq
    obtain ⟨d₁, hd₁, h⟩ := Option.bind_eq_some_iff.mp h
    obtain ⟨t, b, rfl⟩ := extractGCodeInfo_eq hd₁
    cases h
    refine ⟨rfl, t, b, if d.state = .idle then .buffering else d.state, ?_, ?_⟩
    · split_ifs <;> rfl
    · split_ifs with hidle
      · exact .inr ⟨hidle, rfl⟩
      · exact .inl rfl
  · rename_i heq
    cases heq
    cases h
    exact ⟨rfl, _, _, _, rfl, .inl rfl⟩

theorem isPrinterOnline_of_stores (h : d'.state = d.state ∨ d.state = .idle ∧ d'.state = .buffering) :
    d'.isPrinterOnline = d.isPrinterOnline := by
  unfold isPrinterOnline
  rcases h with hs | ⟨hs, hs'⟩
  · rw [hs]
  · rw [hs, hs']
    rfl

theorem state_of_stores_offline (h : d'.state = d.state ∨ d.state = .idle ∧ d'.state = .buffering)
    (ho : d.isPrinterOnline = false) : d'.state = d.state ∧ d'.isPrinterOnline = false := by
  refine ⟨h.resolve_right fun ⟨hidle, _⟩ => ?_, (isPrinterOnline_of_stores h).trans ho⟩
  rw [isPrinterOnline_of_idle hidle] at ho
  cases ho

theorem isPrinting_of_stores (h : d'.state = d.state ∨ d.state = .idle ∧ d'.state = .buffering) :
    d'.isPrinting = d.isPrinting := by
  unfold isPrinting
  rcases h with hs | ⟨hs, hs'⟩
  · rw [hs]
  · rw [hs, hs']
    rfl

theorem clearGCode_cases (d : AbstractDriver) : d.clearGCode.isConnected = d.isConnected ∧
    d.clearGCode.gcodeBuffer = d.gcodeBuffer.clear ∧ d.clearGCode.isPrinting = false ∧
      (d.clearGCode.state = d.state ∨ d.isPrinterOnline = true ∧ d.clearGCode.state = .idle) := by
  unfold clearGCode
  dsimp only
  split_ifs with hs
  · exact ⟨rfl, rfl, rfl, .inr ⟨isPrinterOnline_iff.mpr (.inr hs), rfl⟩⟩
  · exact ⟨rfl, rfl, decide_eq_false fun hp => hs (.inr hp), .inl rfl⟩

/-- Gcode has been handed to the buffer, which is `g` now. -/
structure Stored (d : AbstractDriver) (g : GCodeBuffer) (d' : AbstractDriver) : Prop where
  gcodeBuffer : d'.gcodeBuffer = g
  isConnected : d'.isConnected = d.isConnected
  state : d'.state = d.state ∨ d.state = .idle ∧ d'.state = .buffering

theorem gcodeStored_stored {gcode : Text} {r r' : GcodeSetResult} {g : GCodeBuffer}
    (h : gcodeStored atof d gcode (r, g) = some (r', d')) : r' = r ∧ Stored d g d' := by
  obtain ⟨rfl, t, b, state, rfl, hstate⟩ := gcodeStored_eq h
  exact ⟨rfl, rfl, rfl, hstate⟩

theorem setGCode_stored {gcode : Text} {totalLines : ℤ} {metaData : Option MetaData} {r : GcodeSetResult}
    (h : d.setGCode atof gcode totalLines metaData = some (r, d')) :
    ∃ g, d.gcodeBuffer.set gcode totalLines metaData = some (r, g) ∧ Stored d g d' := by
  obtain ⟨⟨gsr, g⟩, hset, h⟩ := Option.bind_eq_some_iff.mp h
  obtain ⟨rfl, hstored⟩ := gcodeStored_stored h
  exact ⟨g, hset, hstored⟩

theorem appendGCode_stored {gcode : Text} {totalLines : ℤ} {metaData : Option MetaData} {r : GcodeSetResult}
    (h : d.appendGCode atof gcode totalLines metaData = some (r, d')) :
    ∃ g, d.gcodeBuffer.append gcode totalLines metaData = some (r, g) ∧ Stored d g d' := by
  obtain ⟨⟨gsr, g⟩, happend, h⟩ := Option.bind_eq_some_iff.mp h
  obtain ⟨rfl, hstored⟩ := gcodeStored_stored h
  exact ⟨g, happend, hstored⟩

theorem appendGCode_cases {gcode : Text} {totalLines : ℤ}
    {metaData : Option MetaData} {r : GcodeSetResult}
    (h : d.appendGCode atof gcode totalLines metaData = some (r, d')) :
    (r = .ok ∧ d.gcodeBuffer.Accepts gcode metaData ∧
        d.gcodeBuffer.append gcode totalLines metaData = some (.ok, d'.gcodeBuffer) ∧
        d'.state = if d.state = .idle then .buffering else d.state) ∨
      (r ≠ .ok ∧ ¬ d.gcodeBuffer.Accepts gcode metaData ∧ d'.gcodeBuffer = d.gcodeBuffer ∧
        d'.state = d.state) := by
  obtain ⟨⟨gsr, g⟩, ha, h⟩ := Option.bind_eq_some_iff.mp h
  rcases append_cases ha with ⟨rfl, hacc, -⟩ | ⟨hr, hacc, rfl⟩
  · obtain ⟨d₁, hd₁, h⟩ := Option.bind_eq_some_iff.mp h
    obtain ⟨t, b, rfl⟩ := extractGCodeInfo_eq hd₁
    cases h
    dsimp only
    split_ifs <;> exact .inl ⟨rfl, hacc, ha, rfl⟩
  · have hstored : some (gsr, { d with gcodeBuffer := d.gcodeBuffer }) = some (r, d') := by
      rw [← h]
      cases gsr <;> first | rfl | exact absurd rfl hr
    cases hstored
    exact .inr ⟨hr, hacc, rfl, rfl⟩

end AbstractDriver
end Print3D
