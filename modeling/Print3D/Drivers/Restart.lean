import Print3D.Drivers.MarlinRuns
import Print3D.Drivers.Accounting

/-! Starting a print that runs already. The base class leaves a running print alone, but the driver
sends the next line of its buffer at every start: the one the printer has not answered yet. -/
namespace Print3D
open GCodeBuffer MarlinDriver Transition

namespace GCodeBuffer

variable {g g' : GCodeBuffer} {s : LineStore}

theorem Stores.getNextLine_pos_iff (h : g.Stores s) : 0 < g.getNextLine.1 ↔ s.lines ≠ [] := by
  rw [getNextLine_pos h]
  constructor
  · intro hf hl
    have hpre := s.front_prefix
    rw [hl] at hpre
    exact hf (List.prefix_nil.mp hpre)
  · exact fun hl hf => hl (s.lines_eq_nil_of_front hf)

/-- There is a next line, or none has come since the last clear. -/
def Fresh (g : GCodeBuffer) : Prop := 0 < g.getNextLine.1 ∨ g.currentLine = 0 ∧ g.totalLinesSent = 0

theorem setCurrentLine_zero (hcurrent : g.currentLine = 0) (htotal : g.totalLinesSent = 0) :
    g.setCurrentLine 0 = g := by
  cases g
  subst hcurrent
  subst htotal
  rfl

theorem fresh_clear (g : GCodeBuffer) : g.clear.Fresh := .inr ⟨rfl, rfl⟩

theorem Fresh.appendChunk (h : g.Fresh) (hs : g.Stores s) (chunk : Text) : (g.appendChunk chunk).Fresh := by
  have heq := appendChunk_eq hs chunk
  have hs' : (g.appendChunk chunk).Stores (s.put (normLines g.keepGpxMacroComments chunk)
      fun _ => isLine_of_mem_normLines) := by
    rw [heq]
    rfl
  rw [Fresh, hs'.getNextLine_pos_iff, s.lines_put]
  by_cases hnil : s.lines ++ normLines g.keepGpxMacroComments chunk = []
  · obtain ⟨hl, hadded⟩ := List.append_eq_nil_iff.mp hnil
    obtain ⟨hcurrent, htotal⟩ := h.resolve_left fun hnext => hs.getNextLine_pos_iff.mp hnext hl
    refine .inr ⟨?_, ?_⟩ <;> rw [heq] <;> simp [hadded, hcurrent, htotal, i32_zero]
  · exact .inl hnil

theorem Fresh.foldl_appendChunk (h : g.Fresh) (hs : g.Stores s) (cs : List Text) :
    (cs.foldl GCodeBuffer.appendChunk g).Fresh := by
  induction cs generalizing g s with
  | nil => exact h
  | cons c cs ih => exact ih (h.appendChunk hs c) (by rw [appendChunk_eq hs]; rfl)

theorem Fresh.housekeeping (h : g.Fresh) (totalLines : ℤ) (metaData : Option MetaData) :
    (g.housekeeping totalLines metaData).Fresh := by
  unfold GCodeBuffer.housekeeping
  cases metaData <;> dsimp only <;> split_ifs <;> exact h

theorem Fresh.append (h : g.Fresh) (hs : g.Stores s) {gcode : Text} {totalLines : ℤ}
    {metaData : Option MetaData} {r : GcodeSetResult}
    (ha : g.append gcode totalLines metaData = some (r, g')) : g'.Fresh := by
  rcases append_cases ha with ⟨-, -, rfl⟩ | ⟨-, -, rfl⟩
  · exact (h.housekeeping totalLines metaData).foldl_appendChunk ((housekeeping_buckets ..).trans hs) _
  · exact h

end GCodeBuffer

namespace MarlinDriver

variable {atof : Text → Int32} {d d' : MarlinDriver}

/-! ### The buffer of the driver -/

theorem sendCode_gcodeBuffer {code : Text} (hd : sendCode atof d code = some d') :
    d'.gcodeBuffer = d.gcodeBuffer := by
  by_cases hc : d.isConnected = true
  · obtain ⟨t, b, rfl⟩ := sendCode_eq hc hd
    rfl
  · rw [sendCode, if_neg hc] at hd
    cases hd
    rfl

theorem resetPrint_online_eq (h : d.isPrinterOnline = true) : d.resetPrint = { d with
    state := .idle
    gcodeBuffer := d.gcodeBuffer.setCurrentLine 0 } := by
  unfold resetPrint AbstractDriver.resetPrint
  rw [if_pos h]
  rfl

theorem printNextLine_gcodeBuffer (hd : printNextLine atof d = some d') :
    (0 < d.gcodeBuffer.getNextLine.1 ∧ d'.state = d.state ∧
        d'.gcodeBuffer = d.gcodeBuffer.setCurrentLine (i32 (d.gcodeBuffer.getCurrentLine + 1))) ∨
      (¬ 0 < d.gcodeBuffer.getNextLine.1 ∧ d' = d.resetPrint) := by
  unfold printNextLine at hd
  dsimp only at hd
  split_ifs at hd with hnext
  · obtain ⟨d₁, hsend, hd⟩ := Option.bind_eq_some_iff.mp hd
    have hbuffer := sendCode_gcodeBuffer hsend
    cases hd
    exact .inl ⟨hnext, (sendCode_cases hsend).1, by rw [← hbuffer]⟩
  · cases hd
    exact .inr ⟨hnext, rfl⟩

/-- What a response does with the buffer: nothing, or the first line goes, or it is sent again. -/
theorem readResponseCode_cases {code : Text} (hd : readResponseCode atof d code = some d') :
    (¬ AsksResend code ∧ d'.gcodeBuffer = d.gcodeBuffer ∧ (d'.state = d.state ∨ d'.state = .idle)) ∨
      (¬ AsksResend code ∧ d.isPrinting = true ∧ ∃ n g, d.gcodeBuffer.eraseLine = some (n, g) ∧
        printNextLine atof { d with gcodeBuffer := g } = some d') ∨
      (AsksResend code ∧ printNextLine atof { d with
        gcodeBuffer := d.gcodeBuffer.setCurrentLine (i32 (d.gcodeBuffer.getCurrentLine - 1)) } = some d') := by
  unfold readResponseCode at hd
  split_ifs at hd with htemp hok hp hstart hresend
  · obtain ⟨d₁, hd₁, hd⟩ := Option.bind_eq_some_iff.mp hd
    obtain ⟨heating, t, tt, b, bt, rfl⟩ := parseTemperatures_eq hd₁
    refine .inl ⟨not_asksResend_of_reportsTemperature htemp, ?_⟩
    cases hc : d.checkConnection with
    | true =>
      simp only [hc, if_true] at hd
      cases hd
      exact ⟨rfl, .inr rfl⟩
    | false =>
      simp only [hc, Bool.false_eq_true, if_false] at hd
      cases hd
      exact ⟨rfl, .inl rfl⟩
  · obtain ⟨⟨n, g⟩, he, hd⟩ := Option.bind_eq_some_iff.mp hd
    exact .inr (.inl ⟨fun hr => hr.1 hok, hp, n, g, he, hd⟩)
  · cases hd
    exact .inl ⟨fun hr => hr.1 hok, rfl, .inl rfl⟩
  · cases hd
    exact .inl ⟨fun hr => hr.2.2.1 hstart, rfl, .inl rfl⟩
  · exact .inr (.inr ⟨⟨hok, fun ht => htemp (.inr ht), hstart, hresend⟩, hd⟩)
  · cases hd
    exact .inl ⟨fun hr => hresend hr.2.2.2, rfl, .inl rfl⟩

/-! ### Calls on the buffer -/

/-- `g` has become `g'` by calls on it. -/
def Calls (g g' : GCodeBuffer) : Prop := ∃ calls, Run BufferCall.Step g calls g'

theorem Calls.refl (g : GCodeBuffer) : Calls g g := ⟨[], .nil g⟩

theorem Calls.trans {g₁ g₂ g₃ : GCodeBuffer} (h : Calls g₁ g₂) (h' : Calls g₂ g₃) : Calls g₁ g₃ := by
  obtain ⟨cs, h⟩ := h
  obtain ⟨cs', h'⟩ := h'
  exact ⟨cs ++ cs', h.append h'⟩

theorem Calls.single {g g' : GCodeBuffer} (c : BufferCall) (h : BufferCall.Step g c g') : Calls g g' :=
  ⟨[c], .cons h (.nil g')⟩

theorem Calls.setCurrentLine (g : GCodeBuffer) (line : ℤ) : Calls g (g.setCurrentLine line) :=
  .single (.setCurrentLine line) rfl

theorem resetPrint_calls (d : MarlinDriver) : Calls d.gcodeBuffer d.resetPrint.gcodeBuffer := by
  cases ho : d.isPrinterOnline with
  | true =>
    rw [resetPrint_online_eq ho]
    exact .setCurrentLine d.gcodeBuffer 0
  | false =>
    rw [resetPrint_offline ho]
    exact .refl d.gcodeBuffer

theorem printNextLine_calls (hd : printNextLine atof d = some d') : Calls d.gcodeBuffer d'.gcodeBuffer := by
  rcases printNextLine_gcodeBuffer hd with ⟨-, -, hg⟩ | ⟨-, rfl⟩
  · rw [hg]
    exact .setCurrentLine ..
  · exact resetPrint_calls d

theorem startPrint_calls {state : DriverState} {r : Bool} (hd : startPrint atof d state = some (r, d')) :
    Calls d.gcodeBuffer d'.gcodeBuffer := by
  cases ho : d.isPrinterOnline with
  | false =>
    rw [startPrint, AbstractDriver.startPrint_offline ho] at hd
    cases hd
    exact .refl _
  | true =>
    obtain ⟨g, hg, hstart⟩ := AbstractDriver.startPrint_online ho state
    rw [startPrint, hstart] at hd
    obtain ⟨d₁, hd₁, he⟩ := Option.map_eq_some_iff.mp hd
    cases he
    have hnext : Calls g d'.gcodeBuffer := printNextLine_calls hd₁
    rcases hg with rfl | rfl
    · exact hnext
    · exact (Calls.setCurrentLine _ 0).trans hnext

theorem setGCode_calls {gcode : Text} {totalLines : ℤ} {metaData : Option MetaData} {r : GcodeSetResult}
    (hd : setGCode atof d gcode totalLines metaData = some (r, d')) :
    d.gcodeBuffer.set gcode totalLines metaData = some (r, d'.gcodeBuffer) := by
  obtain ⟨⟨gsr, base⟩, hbase, hd⟩ := Option.bind_eq_some_iff.mp hd
  cases hd
  obtain ⟨g, hset, hstored⟩ := AbstractDriver.setGCode_stored hbase
  rw [hset, hstored.gcodeBuffer]

theorem appendGCode_calls {gcode : Text} {totalLines : ℤ} {metaData : Option MetaData} {r : GcodeSetResult}
    (hd : appendGCode atof d gcode totalLines metaData = some (r, d')) :
    d.gcodeBuffer.append gcode totalLines metaData = some (r, d'.gcodeBuffer) := by
  obtain ⟨⟨gsr, base⟩, hbase, hd⟩ := Option.bind_eq_some_iff.mp hd
  cases hd
  obtain ⟨g, happend, hstored⟩ := AbstractDriver.appendGCode_stored hbase
  rw [happend, hstored.gcodeBuffer]

theorem readResponseCode_calls {code : Text} (hd : readResponseCode atof d code = some d') :
    Calls d.gcodeBuffer d'.gcodeBuffer := by
  rcases readResponseCode_cases hd with ⟨-, hg, -⟩ | ⟨-, -, n, g, he, hd⟩ | ⟨-, hd⟩
  · rw [hg]
    exact .refl _
  · have herase : BufferCall.Step d.gcodeBuffer (.eraseLine 1) g := by
      change (d.gcodeBuffer.eraseLine).map (·.2) = some g
      rw [he]
      rfl
    have hnext : Calls g d'.gcodeBuffer := printNextLine_calls hd
    exact (Calls.single _ herase).trans hnext
  · exact (Calls.setCurrentLine ..).trans (printNextLine_calls hd)

end MarlinDriver

namespace MarlinEvent

variable {atof : Text → Int32} {d d' : MarlinDriver} {e : MarlinEvent}

/-- A driver changes its buffer only by calls on it, whatever happens. -/
theorem calls (h : Step atof d e d') : Calls d.gcodeBuffer d'.gcodeBuffer := by
  cases e with
  | openConnection rv ssrOk =>
    cases h
    have hg := AbstractDriver.openConnection_gcodeBuffer d.toAbstractDriver rv ssrOk
    change Calls d.gcodeBuffer (d.toAbstractDriver.openConnection rv ssrOk).2.gcodeBuffer
    rw [hg]
    exact .refl _
  | setGCode gcode totalLines metaData =>
    obtain ⟨⟨r, d₁⟩, hd, rfl⟩ := Option.map_eq_some_iff.mp h
    exact .single (.set gcode totalLines metaData) (BufferCall.exec_set.mpr ⟨_, setGCode_calls hd⟩)
  | heatup temperature =>
    rw [sendCode_gcodeBuffer h]
    exact .refl _
  | checkTemperature =>
    rw [sendCode_gcodeBuffer h]
    exact .refl _
  | other e =>
    cases e with
    | appendGCode gcode totalLines metaData =>
      obtain ⟨⟨r, d₁⟩, hd, rfl⟩ := Option.map_eq_some_iff.mp h
      exact .single (.append gcode totalLines metaData)
        (BufferCall.exec_append.mpr ⟨_, appendGCode_calls hd⟩)
    | clearGCode =>
      cases h
      have hg := (AbstractDriver.clearGCode_cases d.toAbstractDriver).2.1
      change Calls d.gcodeBuffer d.toAbstractDriver.clearGCode.gcodeBuffer
      rw [hg]
      exact .single .clear rfl
    | startPrint =>
      obtain ⟨⟨r, d₁⟩, hd, rfl⟩ := Option.map_eq_some_iff.mp h
      exact startPrint_calls hd
    | stopPrint endcode =>
      obtain ⟨⟨r, d₁⟩, hd, rfl⟩ := Option.map_eq_some_iff.mp h
      obtain ⟨⟨gsr, d₂⟩, hset, hd⟩ := Option.bind_eq_some_iff.mp hd
      have hcall : BufferCall.Step d.resetPrint.gcodeBuffer (.set endcode (-1) none) d₂.gcodeBuffer :=
        BufferCall.exec_set.mpr ⟨_, setGCode_calls hset⟩
      exact ((resetPrint_calls d).trans (.single _ hcall)).trans (startPrint_calls hd)
    | response code => exact readResponseCode_calls h

/-- What holds of a driver that has opened its port. -/
structure Ready (d : MarlinDriver) : Prop where
  connected : d.isConnected = true
  inRange : ∃ n, BufferCall.Excess n d.gcodeBuffer
  fresh : d.isPrinting = true → d.gcodeBuffer.Fresh

theorem Ready.exists_stores (h : Ready d) : ∃ s, d.gcodeBuffer.Stores s := by
  obtain ⟨n, s, hs, -⟩ := h.inRange
  exact ⟨s, hs.stores⟩

/-- A driver that prints after sending the next line has that line. -/
theorem fresh_of_printNextLine (hd : printNextLine atof d = some d') (hp : d'.isPrinting = true) :
    d'.gcodeBuffer.Fresh := by
  rcases printNextLine_gcodeBuffer hd with ⟨hnext, -, hg⟩ | ⟨-, rfl⟩
  · rw [hg]
    exact .inl hnext
  · rw [(resetPrint_eq d).1] at hp
    cases hp

theorem fresh_of_startPrint {state : DriverState} {r : Bool} (hd : startPrint atof d state = some (r, d'))
    (hp : d'.isPrinting = true) : d'.gcodeBuffer.Fresh := by
  cases ho : d.isPrinterOnline with
  | false =>
    rw [startPrint, AbstractDriver.startPrint_offline ho] at hd
    cases hd
    rw [AbstractDriver.isPrinterOnline_of_isPrinting hp] at ho
    cases ho
  | true =>
    obtain ⟨g, -, hstart⟩ := AbstractDriver.startPrint_online ho state
    rw [startPrint, hstart] at hd
    obtain ⟨d₁, hd₁, he⟩ := Option.map_eq_some_iff.mp hd
    cases he
    exact fresh_of_printNextLine hd₁ hp

theorem fresh_step (hready : Ready d) (h : Step atof d e d') (hp : d'.isPrinting = true) :
    d'.gcodeBuffer.Fresh := by
  obtain ⟨s, hs⟩ := hready.exists_stores
  cases e with
  | openConnection rv ssrOk =>
    cases h
    have hg := AbstractDriver.openConnection_gcodeBuffer d.toAbstractDriver rv ssrOk
    change (d.toAbstractDriver.openConnection rv ssrOk).2.gcodeBuffer.Fresh
    rw [hg]
    apply hready.fresh
    unfold AbstractDriver.openConnection AbstractDriver.setBaudrate at hp
    split_ifs at hp
    · exact hp
    · cases hp
    · exact hp
  | setGCode gcode totalLines metaData =>
    obtain ⟨⟨r, d₁⟩, hd, rfl⟩ := Option.map_eq_some_iff.mp h
    exact (fresh_clear d.gcodeBuffer).append (stores_clear d.gcodeBuffer) (setGCode_calls hd)
  | heatup temperature =>
    rw [sendCode_gcodeBuffer h]
    exact hready.fresh (AbstractDriver.isPrinting_congr (sendCode_cases h).1 ▸ hp)
  | checkTemperature =>
    rw [sendCode_gcodeBuffer h]
    exact hready.fresh (AbstractDriver.isPrinting_congr (sendCode_cases h).1 ▸ hp)
  | other e =>
    cases e with
    | appendGCode gcode totalLines metaData =>
      obtain ⟨⟨r, d₁⟩, hd, rfl⟩ := Option.map_eq_some_iff.mp h
      rw [(appendGCode_stores hd).isPrinting] at hp
      exact (hready.fresh hp).append hs (appendGCode_calls hd)
    | clearGCode =>
      cases h
      rw [(clearGCode_cases d).2.2.1] at hp
      cases hp
    | startPrint =>
      obtain ⟨⟨r, d₁⟩, hd, rfl⟩ := Option.map_eq_some_iff.mp h
      exact fresh_of_startPrint hd hp
    | stopPrint endcode =>
      obtain ⟨⟨r, d₁⟩, hd, rfl⟩ := Option.map_eq_some_iff.mp h
      obtain ⟨⟨gsr, d₂⟩, -, hd⟩ := Option.bind_eq_some_iff.mp hd
      exact fresh_of_startPrint hd hp
    | response code =>
      rcases readResponseCode_cases h with ⟨-, hg, hs | hs⟩ | ⟨-, -, n, g, -, hd⟩ | ⟨-, hd⟩
      · rw [hg]
        exact hready.fresh (AbstractDriver.isPrinting_congr hs ▸ hp)
      · rw [AbstractDriver.isPrinting_of_idle hs] at hp
        cases hp
      · exact fresh_of_printNextLine hd hp
      · exact fresh_of_printNextLine hd hp

theorem ready_step (d : MarlinDriver) (e : MarlinEvent) (d' : MarlinDriver) (hready : Ready d)
    (h : Step atof d e d') : Ready d' := by
  refine ⟨?_, ?_, fresh_step hready h⟩
  · cases e with
    | openConnection rv ssrOk =>
      cases h
      change (d.toAbstractDriver.openConnection rv ssrOk).2.isConnected = true
      unfold AbstractDriver.openConnection AbstractDriver.setBaudrate
      split_ifs
      · exact hready.connected
      · rfl
      · rfl
    | _ => exact (connects id h).1.trans hready.connected
  · obtain ⟨cs, hcs⟩ := calls h
    exact hcs.invariant (fun g => ∃ n, BufferCall.Excess n g)
      (fun _ _ _ => BufferCall.exists_excess_step) hready.inRange

def opened : MarlinDriver := Transmission.init.driver

theorem ready_opened : Ready opened := ⟨rfl, ⟨0, BufferCall.excess_clear {}⟩, fun _ => fresh_clear {}⟩

theorem ready_run {es : List MarlinEvent} (h : Run (Step atof) opened es d) : Ready d :=
  h.invariant Ready ready_step ready_opened

end MarlinEvent

/-! ### Requests to start a running print -/

namespace MarlinDriver

variable {atof : Text → Int32} {d d' : MarlinDriver} {n : ℕ}

def startPrints (atof : Text → Int32) : ℕ → MarlinDriver → Option MarlinDriver
  | 0, d => some d
  | n + 1, d => do
    let (_, d) ← startPrint atof d
    startPrints atof n d

/-- Nothing has been sent or skipped, and the line counter stands where it stood. -/
structure Undisturbed (d d' : MarlinDriver) : Prop where
  written : d'.written = d.written
  buckets : d'.gcodeBuffer.buckets = d.gcodeBuffer.buckets
  currentLine : d'.gcodeBuffer.getCurrentLine = d.gcodeBuffer.getCurrentLine

/-- `n` requests to start the print end and leave it undisturbed. -/
def Harmless (atof : Text → Int32) (n : ℕ) (d : MarlinDriver) : Prop :=
  ∃ d', startPrints atof n d = some d' ∧ Undisturbed d d'

theorem startPrint_isPrefix {r : Bool} (hd : startPrint atof d = some (r, d')) : d.written <+: d'.written := by
  rcases startPrint_cases (.inl rfl) hd with ⟨-, -, rfl⟩ | ⟨-, -, -, ⟨g, hsends, -⟩ | ⟨hsilent, -⟩⟩
  · exact List.prefix_refl _
  · rw [hsends.written]
    exact List.prefix_append ..
  · rw [hsilent.written]

theorem startPrints_isPrefix (hd : startPrints atof n d = some d') : d.written <+: d'.written := by
  induction n generalizing d with
  | zero =>
    cases hd
    exact List.prefix_refl _
  | succ n ih =>
    obtain ⟨⟨r, d₁⟩, hd₁, hd⟩ := Option.bind_eq_some_iff.mp hd
    exact (startPrint_isPrefix hd₁).trans (ih hd)

/-- A print that runs is started again by sending the first line of the buffer. -/
theorem startPrint_of_isPrinting (hp : d.isPrinting = true) :
    startPrint atof d = (printNextLine atof { d with state := .printing }).map fun d => (true, d) := by
  have ho := AbstractDriver.isPrinterOnline_of_isPrinting hp
  have hnot : ¬ (d.state ≠ .printing ∧ d.state ≠ .stopping) := by
    rcases of_decide_eq_true hp with h | h <;> simp [h]
  rw [startPrint, AbstractDriver.startPrint, if_neg (not_not.mpr ho)]
  simp only [if_neg hnot, if_true]
  rfl

theorem startPrint_of_empty (ho : d.isPrinterOnline = true) (hnext : ¬ 0 < d.gcodeBuffer.getNextLine.1)
    (hcurrent : d.gcodeBuffer.currentLine = 0) (htotal : d.gcodeBuffer.totalLinesSent = 0) :
    startPrint atof d = some (true, { d with state := .idle }) := by
  have hset := setCurrentLine_zero hcurrent htotal
  obtain ⟨g, hg, hstart⟩ := AbstractDriver.startPrint_online ho .printing
  have hg' : g = d.gcodeBuffer := by
    rcases hg with rfl | rfl
    · rfl
    · exact hset
  subst hg'
  have hreset : resetPrint { d with state := .printing } = { d with state := .idle } := by
    rw [resetPrint_online_eq (AbstractDriver.isPrinterOnline_iff.mpr (.inr (.inr (.inl rfl)))), hset]
  rw [startPrint, hstart]
  dsimp only
  rw [if_pos rfl, printNextLine]
  dsimp only
  rw [if_neg hnext, Option.map_some, hreset]

theorem startPrints_of_empty (ho : d.isPrinterOnline = true) (hnext : ¬ 0 < d.gcodeBuffer.getNextLine.1)
    (hcurrent : d.gcodeBuffer.currentLine = 0) (htotal : d.gcodeBuffer.totalLinesSent = 0) (n : ℕ) :
    ∃ state, startPrints atof n d = some { d with state := state } := by
  induction n generalizing d with
  | zero => exact ⟨d.state, rfl⟩
  | succ n ih =>
    have hidle : AbstractDriver.isPrinterOnline { d.toAbstractDriver with state := .idle } = true := rfl
    obtain ⟨state, hstate⟩ := @ih { d with state := .idle } hidle hnext hcurrent htotal
    refine ⟨state, ?_⟩
    rw [startPrints, startPrint_of_empty ho hnext hcurrent htotal]
    exact hstate

/-- With a line left to send, the first of the requests sends the one in flight again. -/
theorem not_harmless (hready : MarlinEvent.Ready d) (hp : d.isPrinting = true)
    (hnext : 0 < d.gcodeBuffer.getNextLine.1) (hn : n ≠ 0) : ¬ Harmless atof n d := by
  rintro ⟨d', hd', hundisturbed⟩
  obtain ⟨k, rfl⟩ := Nat.exists_eq_succ_of_ne_zero hn
  obtain ⟨⟨r, d₁⟩, hd₁, hd'⟩ := Option.bind_eq_some_iff.mp hd'
  rw [startPrint_of_isPrinting hp] at hd₁
  obtain ⟨d₂, hd₂, he⟩ := Option.map_eq_some_iff.mp hd₁
  cases he
  obtain ⟨-, ⟨hsends, -⟩ | ⟨hempty, -⟩⟩ := printNextLine_cases hd₂
  · have hwritten := hsends.written
    rw [if_pos hready.connected] at hwritten
    have hlen := (startPrints_isPrefix hd').length_le
    rw [hundisturbed.written, hwritten, List.length_append, List.length_singleton] at hlen
    change d.written.length + 1 ≤ d.written.length at hlen
    omega
  · exact hempty hnext

/-- A second start while the first line is on its way sends it again. -/
theorem startPrint_sends_again :
    ¬ ∀ (es : List MarlinEvent) (d : MarlinDriver) (n : ℕ),
      Run (MarlinEvent.Step fun _ => 0) MarlinEvent.opened es d → d.isPrinting = true →
        Harmless (fun _ => 0) n d := by
  intro h
  let d₁ : MarlinDriver := { MarlinEvent.opened with
    heating := true
    state := .idle
    checkConnection := false
    checkTemperatureInterval := 1500 }
  let g : GCodeBuffer :=
    { buckets := [ascii "G1\nG2\n"], bufferedLines := 2, totalLinesSent := 2, bufferSize := 6 }
  let d₂ : MarlinDriver := { d₁ with gcodeBuffer := g, state := .buffering }
  let d₃ : MarlinDriver := { d₂ with
    gcodeBuffer := { g with currentLine := 1 }
    state := .printing
    written := [ascii "G1\n"] }
  have h₁ : MarlinEvent.Step (fun _ => 0) MarlinEvent.opened (.other (.response (ascii "T:0"))) d₁ := by
    unfold MarlinEvent.Step
    decide
  have h₂ : MarlinEvent.Step (fun _ => 0) d₁ (.other (.appendGCode (ascii "G1\nG2") (-1) none)) d₂ := by
    unfold MarlinEvent.Step
    decide
  have h₃ : MarlinEvent.Step (fun _ => 0) d₂ (.other .startPrint) d₃ := by
    unfold MarlinEvent.Step
    decide
  have hrun := Run.cons h₁ (.cons h₂ (.cons h₃ (.nil d₃)))
  exact not_harmless (MarlinEvent.ready_run hrun) rfl (by decide) one_ne_zero (h _ d₃ 1 hrun rfl)

/-- In every reachable state that is `PRINTING` or `STOPPING`, requests to start the print are harmless
if and only if there are none, or no line is left to send. -/
theorem startPrints_harmless_iff {es : List MarlinEvent}
    (hrun : Run (MarlinEvent.Step atof) MarlinEvent.opened es d) (hp : d.isPrinting = true) (n : ℕ) :
    Harmless atof n d ↔ n = 0 ∨ ¬ 0 < d.gcodeBuffer.getNextLine.1 := by
  have hready := MarlinEvent.ready_run hrun
  constructor
  · intro hharmless
    by_contra hnot
    obtain ⟨hn, hnext⟩ := not_or.mp hnot
    exact not_harmless hready hp (not_not.mp hnext) hn hharmless
  · rintro (rfl | hnext)
    · exact ⟨d, rfl, rfl, rfl, rfl⟩
    · have ho := AbstractDriver.isPrinterOnline_of_isPrinting hp
      obtain ⟨hcurrent, htotal⟩ := (hready.fresh hp).resolve_left hnext
      obtain ⟨state, hd'⟩ := startPrints_of_empty ho hnext hcurrent htotal n
      exact ⟨_, hd', rfl, rfl, rfl⟩

/-- A print of nothing: the program was replaced by an empty one while it was printed. -/
theorem startPrints_harmless_iff_empty :
    Harmless (fun _ => 0) 2 { MarlinEvent.opened with
        heating := true
        state := .printing
        checkConnection := false
        checkTemperatureInterval := 1500
        written := [ascii "G1\n"] } ↔ 2 = 0 ∨ ¬ 0 < (GCodeBuffer.getNextLine {}).1 := by
  let d₁ : MarlinDriver := { MarlinEvent.opened with
    heating := true
    state := .idle
    checkConnection := false
    checkTemperatureInterval := 1500 }
  let g : GCodeBuffer :=
    { buckets := [ascii "G1\n"], bufferedLines := 1, totalLinesSent := 1, bufferSize := 3 }
  let d₂ : MarlinDriver := { d₁ with gcodeBuffer := g, state := .buffering }
  let d₃ : MarlinDriver := { d₂ with
    gcodeBuffer := { g with currentLine := 1 }
    state := .printing
    written := [ascii "G1\n"] }
  let d₄ : MarlinDriver := { d₃ with gcodeBuffer := {} }
  have h₁ : MarlinEvent.Step (fun _ => 0) MarlinEvent.opened (.other (.response (ascii "T:0"))) d₁ := by
    unfold MarlinEvent.Step
    decide
  have h₂ : MarlinEvent.Step (fun _ => 0) d₁ (.other (.appendGCode (ascii "G1") (-1) none)) d₂ := by
    unfold MarlinEvent.Step
    decide
  have h₃ : MarlinEvent.Step (fun _ => 0) d₂ (.other .startPrint) d₃ := by
    unfold MarlinEvent.Step
    decide
  have h₄ : MarlinEvent.Step (fun _ => 0) d₃ (.setGCode [] (-1) none) d₄ := by
    unfold MarlinEvent.Step
    decide
  exact startPrints_harmless_iff (.cons h₁ (.cons h₂ (.cons h₃ (.cons h₄ (.nil d₄))))) rfl 2

end MarlinDriver
end Print3D
