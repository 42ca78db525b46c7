import Print3D.Drivers.MakerbotRuns
import Print3D.Drivers.MarlinRuns

/-! When a driver is online, and what that protects. -/
namespace Print3D
open Effects Transition

/-- A driver is online only after something has been `heard`; offline, requests to start and to stop are
refused, and online no report changes the state. -/
structure Connection {D : Type} (base : D → AbstractDriver) (heard : Prop) (requests : D → Bool → D → Prop)
    (reports : D → D → Prop) (d : D) : Prop where
  heard : (base d).isPrinterOnline = true → heard
  refused : (base d).isPrinterOnline = false → ∀ r d', requests d r d' →
    r = false ∧ (base d').state = (base d).state
  kept : (base d).isPrinterOnline = true → ∀ d', reports d d' → (base d').state = (base d).state

/-! ### Marlin -/

namespace MarlinDriver

variable {atof : Text → Int32} {d d' : MarlinDriver} {es : List MarlinEvent} {r : Bool}

/-- A request to start or to stop returns. -/
inductive Requests (atof : Text → Int32) (d : MarlinDriver) (r : Bool) (d' : MarlinDriver) : Prop
  | start {state : DriverState} : startPrint atof d state = some (r, d') → Requests atof d r d'
  | startGCode {gcode : Text} {state : DriverState} : startPrintGCode atof d gcode state = some (r, d') →
      Requests atof d r d'
  | stop {endcode : Text} : stopPrint atof d endcode = some (r, d') → Requests atof d r d'

def Reports (atof : Text → Int32) (d d' : MarlinDriver) : Prop :=
  ∃ code, ReportsTemperature code ∧ readResponseCode atof d code = some d'

theorem startPrint_offline (ho : d.isPrinterOnline = false) (state : DriverState) :
    startPrint atof d state = some (false, d) := by
  rw [startPrint, AbstractDriver.startPrint_offline ho]
  rfl

theorem startPrintGCode_offline (ho : d.isPrinterOnline = false) {gcode : Text} {state : DriverState}
    (h : startPrintGCode atof d gcode state = some (r, d')) : r = false ∧ d'.state = d.state := by
  unfold startPrintGCode at h
  split_ifs at h
  · obtain ⟨⟨gsr, d₁⟩, hset, h⟩ := Option.bind_eq_some_iff.mp h
    obtain ⟨hs, ho₁⟩ := AbstractDriver.state_of_stores_offline (setGCode_stores hset).state ho
    dsimp only at h
    rw [startPrint_offline ho₁] at h
    cases h
    exact ⟨rfl, hs⟩
  · rw [startPrint_offline ho] at h
    cases h
    exact ⟨rfl, rfl⟩

theorem requests_offline (ho : d.isPrinterOnline = false) (h : Requests atof d r d') :
    r = false ∧ d'.state = d.state := by
  cases h with
  | start h =>
    rw [startPrint_offline ho] at h
    cases h
    exact ⟨rfl, rfl⟩
  | startGCode h => exact startPrintGCode_offline ho h
  | stop h =>
    rcases stopPrint_cases h with ⟨hr, -, -, -, hs⟩ | ⟨-, honline, -⟩
    · exact ⟨hr, hs⟩
    · rw [ho] at honline
      cases honline

/-- A report that comes when the connection is not checked any more. -/
theorem reports_keep (hc : d.checkConnection = false) (h : Reports atof d d') : d'.state = d.state := by
  obtain ⟨code, ht, h⟩ := h
  have hack : ¬ Acknowledges code := fun hack => hack.2 ht
  have hagain := not_asksResend_of_reportsTemperature ht
  cases readResponseCode_hears h with
  | connects _ hc' =>
    rw [hc] at hc'
    cases hc'
  | temperature _ _ _ _ hs => exact hs
  | next hack' => exact absurd hack' hack
  | finished hack' => exact absurd hack' hack
  | again hagain' => exact absurd hagain' hagain
  | nothingAgain hagain' => exact absurd hagain' hagain
  | ignored hnot => exact absurd ht hnot

def HeardTemperature (es : List MarlinEvent) : Prop :=
  ∃ code, .other (.response code) ∈ es ∧ ReportsTemperature code

/-- Whether the connection is checked says whether the driver is online, and a report has been heard then. -/
structure Follows (es : List MarlinEvent) (d : MarlinDriver) : Prop where
  checked : d.isPrinterOnline = true ↔ d.checkConnection = false
  heard : d.isPrinterOnline = true → HeardTemperature es

theorem HeardTemperature.snoc (h : HeardTemperature es) (e : MarlinEvent) : HeardTemperature (es ++ [e]) := by
  obtain ⟨code, hmem, ht⟩ := h
  exact ⟨code, List.mem_append_left _ hmem, ht⟩

theorem Follows.step {e : MarlinEvent} (h : Follows es d) (he : ¬ e.IsOpening) (hstep : e.Step atof d d') :
    Follows (es ++ [e]) d' := by
  have hconnects := (MarlinEvent.connects he hstep).2
  refine ⟨hconnects.checked h.checked, fun honline => ?_⟩
  cases hconnects with
  | keeps hcheck hsame =>
    rw [hsame] at honline
    exact (h.heard honline).snoc e
  | establishes he ht =>
    subst he
    exact ⟨_, List.mem_append_right _ (List.mem_singleton.mpr rfl), ht⟩

theorem Follows.run {before : List MarlinEvent} (h : Follows before d) (hes : ∀ e ∈ es, ¬ e.IsOpening)
    (hrun : Run (MarlinEvent.Step atof) d es d') : Follows (before ++ es) d' := by
  induction hrun generalizing before with
  | nil => rwa [List.append_nil]
  | @cons d d₁ d' e es hstep _ ih =>
    have h₁ := h.step (hes e (List.mem_cons_self ..)) hstep
    rw [List.append_cons]
    exact ih h₁ fun e' he' => hes e' (List.mem_cons_of_mem _ he')

theorem follows_opened {rv : ℤ} {ssrOk : Bool} (h : MarlinEvent.Step atof {} (.openConnection rv ssrOk) d) :
    Follows [.openConnection rv ssrOk] d := by
  have hopened : d.isPrinterOnline = false ∧ d.checkConnection = true := by
    cases h
    unfold AbstractDriver.openConnection AbstractDriver.setBaudrate
    split_ifs <;> exact ⟨rfl, rfl⟩
  refine ⟨?_, fun honline => ?_⟩
  · rw [hopened.1, hopened.2]
    simp
  · rw [hopened.1] at honline
    cases honline

end MarlinDriver

/-! ### Makerbot -/

namespace MakerbotDriver

variable {σ : Type} {gpx : Gpx σ} {atof : Text → Int32} {d d' : MakerbotDriver σ} {r : Bool}

inductive Requests (gpx : Gpx σ) (atof : Text → Int32) (d : MakerbotDriver σ) (r : Bool)
    (d' : MakerbotDriver σ) : Prop
  | start {state : DriverState} : d.startPrint state = (r, d') → Requests gpx atof d r d'
  | startGCode {gcode : Text} {state : DriverState} : d.startPrintGCode gpx atof gcode state = .ok (r, d') →
      Requests gpx atof d r d'
  | stop {endcode : Text} : d.stopPrint gpx atof endcode = .ok (r, d') → Requests gpx atof d r d'

def Reports (d d' : MakerbotDriver σ) : Prop := ∃ toolcmd rv, d.parseResponse 10 toolcmd = .ok (rv, d')

theorem setGCode_stores {gcode : Text} {gsr : GcodeSetResult}
    (h : d.setGCode gpx atof gcode = .ok (gsr, d')) :
    (d'.state = d.state ∨ d.state = .idle ∧ d'.state = .buffering) ∧ d'.received = d.received := by
  obtain ⟨g, base, -, hstored, rfl⟩ := setGCode_cases h
  exact ⟨hstored.state, rfl⟩

theorem startPrintGCode_offline (ho : d.isPrinterOnline = false) {gcode : Text} {state : DriverState}
    (h : d.startPrintGCode gpx atof gcode state = .ok (r, d')) : r = false ∧ d'.state = d.state := by
  obtain ⟨⟨gsr, d₁⟩, hset, h⟩ := bind_eq_ok.mp h
  obtain ⟨hs, ho₁⟩ := AbstractDriver.state_of_stores_offline (setGCode_stores hset).1 ho
  dsimp only at h
  rw [startPrint_offline ho₁] at h
  cases h
  exact ⟨rfl, hs⟩

theorem resetPrint_offline (ho : d.isPrinterOnline = false) : d.resetPrint = d := by
  rcases (AbstractDriver.resetPrint_cases d.toAbstractDriver).1 with ⟨honline, -⟩ | ⟨-, he⟩
  · rw [ho] at honline
    cases honline
  · rw [resetPrint, he]

theorem stopPrint_offline (ho : d.isPrinterOnline = false) {endcode : Text}
    (h : d.stopPrint gpx atof endcode = .ok (r, d')) : r = false ∧ d'.state = d.state := by
  obtain ⟨r₁, r₂, d₁, d₂, h₁, h₂, h₃⟩ := stopPrint_cases h
  have hclear : (d.clearGCode gpx).state = d.state := by
    obtain ⟨-, -, -, hs | ⟨honline, -⟩⟩ := AbstractDriver.clearGCode_cases d.toAbstractDriver
    · exact hs
    · rw [ho] at honline
      cases honline
  have hoclear : (d.clearGCode gpx).isPrinterOnline = false :=
    (AbstractDriver.isPrinterOnline_congr hclear).trans ho
  obtain ⟨hs₁, ho₁⟩ := AbstractDriver.state_of_stores_offline (setGCode_stores h₁).1 hoclear
  rw [resetPrint_offline ho₁] at h₂
  obtain ⟨hs₂, ho₂⟩ := AbstractDriver.state_of_stores_offline (setGCode_stores h₂).1 ho₁
  rw [startPrint_offline ho₂] at h₃
  cases h₃
  exact ⟨rfl, hs₂.trans (hs₁.trans hclear)⟩

theorem requests_offline (ho : d.isPrinterOnline = false) (h : Requests gpx atof d r d') :
    r = false ∧ d'.state = d.state := by
  cases h with
  | start h =>
    rw [startPrint_offline ho] at h
    cases h
    exact ⟨rfl, rfl⟩
  | startGCode h => exact startPrintGCode_offline ho h
  | stop h => exact stopPrint_offline ho h

theorem reports_keep (ho : d.isPrinterOnline = true) (h : Reports d d') : d'.state = d.state := by
  obtain ⟨toolcmd, rv, h⟩ := h
  exact (parseResponse_talks h).state_online ho

/-- A driver that is online has heard of a temperature. -/
def Heard (d : MakerbotDriver σ) : Prop := d.isPrinterOnline = true → d.HeardTemperature

theorem Heard.keep (h : Heard d) (hr : d'.received = d.received)
    (ho : d'.isPrinterOnline = true → d.isPrinterOnline = true) : Heard d' := by
  intro honline
  obtain ⟨buf, hbuf⟩ := h (ho honline)
  exact ⟨buf, hr ▸ hbuf⟩

theorem Heard.talks (h : Heard d) (ht : Talks d d') : Heard d' := by
  intro honline
  rcases ht.state with hs | ⟨-, -, hheard⟩
  · rw [AbstractDriver.isPrinterOnline_congr hs] at honline
    exact (h honline).mono ht.received
  · exact hheard

theorem Heard.stores (h : Heard d) (hr : d'.received = d.received)
    (hs : d'.state = d.state ∨ d.state = .idle ∧ d'.state = .buffering) : Heard d' :=
  h.keep hr fun honline => AbstractDriver.isPrinterOnline_of_stores hs ▸ honline

theorem Heard.clearGCode (h : Heard d) : Heard (d.clearGCode gpx) := by
  refine h.keep rfl fun honline => ?_
  obtain ⟨-, -, -, hs | ⟨ho, -⟩⟩ := AbstractDriver.clearGCode_cases d.toAbstractDriver
  · exact (AbstractDriver.isPrinterOnline_congr hs).symm.trans honline
  · exact ho

theorem Heard.startPrint (h : Heard d) (state : DriverState) : Heard (d.startPrint state).2 := by
  cases ho : d.isPrinterOnline with
  | false =>
    rw [startPrint_offline ho]
    exact h
  | true =>
    obtain ⟨g, -, he⟩ := startPrint_online ho state
    rw [he]
    exact h.keep rfl fun _ => ho

theorem Heard.resetPrint (h : Heard d) : Heard d.resetPrint := by
  refine h.keep rfl fun honline => ?_
  rcases (AbstractDriver.resetPrint_cases d.toAbstractDriver).1 with ⟨ho, -⟩ | ⟨-, he⟩
  · exact ho
  · rw [MakerbotDriver.resetPrint, he] at honline
    exact honline

theorem Refills.state_received (h : Refills gpx d d') : d'.state = d.state ∧ d'.received = d.received := by
  have hconvert : ∀ {d d' : MakerbotDriver σ} {gcode : Text}, d.convertGCode gpx gcode = .ok d' →
      d'.state = d.state ∧ d'.received = d.received := fun h => by
    rcases convertGCode_cases h with ⟨-, rfl⟩ | ⟨-, state, cvtBuf, rfl⟩ <;> exact ⟨rfl, rfl⟩
  induction h with
  | full _ => exact ⟨rfl, rfl⟩
  | last _ h => exact hconvert h
  | next _ h₁ h₂ _ ih =>
    obtain ⟨n, g, line, -, rfl⟩ := eraseConverted_eq h₂
    exact ⟨ih.1.trans (hconvert h₁).1, ih.2.trans (hconvert h₁).2⟩

theorem Heard.update (h : Heard d) {rv : ℤ} (hu : d.update gpx = .ok (rv, d')) : Heard d' := by
  rcases update_cases hu with ⟨-, rfl⟩ | ⟨-, d₁, d₂, d₃, h₁, h₂, h₃, rfl⟩
  · exact h
  · have hd₁ : Heard d₁ := by
      rcases refillQueue_cases h₁ with hr | ⟨-, rfl⟩
      · exact h.stores hr.state_received.2 (.inl hr.state_received.1)
      · exact h
    have hd₂ : Heard d₂ := by
      unfold MakerbotDriver.sendQueue at h₂
      split_ifs at h₂ with hp
      · rcases processQueue_cases h₂ with ⟨-, n, hn⟩ | ⟨-, space, d₄, hd₄, ⟨-, rfl⟩ | ⟨-, rfl⟩⟩
        · have hhand : Heard (d₁.hand n) := hd₁.stores rfl (.inl rfl)
          exact hhand.talks hn
        · exact hd₁.talks (requestBufferSpace_talks hd₄)
        · have htalks := requestBufferSpace_talks hd₄
          refine (hd₁.talks htalks).keep rfl fun _ => ?_
          exact AbstractDriver.isPrinterOnline_of_isPrinting (htalks.isPrinting.trans hp)
      · cases h₂
        exact hd₁
    exact (hd₂.talks (queryPrinter_talks h₃)).stores rfl (.inl rfl)

theorem heard_step {e : MakerbotEvent} (h : Heard d) (hstep : e.Step gpx atof d d') : Heard d' := by
  cases e with
  | openConnection rv ssrOk =>
    cases hstep
    refine h.keep rfl fun honline => ?_
    unfold AbstractDriver.openConnection AbstractDriver.setBaudrate at honline
    split_ifs at honline
    · exact honline
    · cases honline
    · exact honline
  | setGCode gcode totalLines metaData =>
    obtain ⟨⟨gsr, d₁⟩, hd₁, rfl⟩ := map_eq_ok.mp hstep
    obtain ⟨g, base, -, hstored, rfl⟩ := setGCode_cases hd₁
    exact h.stores rfl hstored.state
  | appendGCode gcode totalLines metaData =>
    obtain ⟨⟨gsr, d₁⟩, hd₁, rfl⟩ := map_eq_ok.mp hstep
    obtain ⟨g, base, -, hstored, rfl⟩ := appendGCode_cases hd₁
    exact h.stores rfl hstored.state
  | clearGCode =>
    cases hstep
    exact h.clearGCode
  | startPrint =>
    obtain rfl : d.startPrint.2 = d' := Except.ok.inj hstep
    exact h.startPrint .printing
  | stopPrint endcode =>
    obtain ⟨⟨r, d₃⟩, hd₃, rfl⟩ := map_eq_ok.mp hstep
    obtain ⟨r₁, r₂, d₁, d₂, h₁, h₂, h₃⟩ := stopPrint_cases hd₃
    have hd₁ := h.clearGCode.stores (setGCode_stores h₁).2 (setGCode_stores h₁).1
    have hd₂ := hd₁.resetPrint.stores (setGCode_stores h₂).2 (setGCode_stores h₂).1
    have hd := hd₂.startPrint .stopping
    rwa [h₃] at hd
  | heatup temperature =>
    cases hstep
    exact h
  | update arrivals =>
    obtain ⟨⟨rv, d₁⟩, hd₁, rfl⟩ := map_eq_ok.mp hstep
    have hhear : Heard (d.hear arrivals) := h.stores rfl (.inl rfl)
    exact hhear.update hd₁

theorem heard_run {state : σ} {es : List MakerbotEvent}
    (h : Run (MakerbotEvent.Step gpx atof) (init state) es d) : Heard d :=
  h.invariant Heard (fun _ _ _ => heard_step) nofun

end MakerbotDriver

/-! ### Both drivers -/

/-- In every run that begins with the opening of the port, the connection is what it is taken for. -/
theorem connection_invariant {σ : Type} {gpx : Gpx σ} {atof : Text → Int32} {state : σ} {rv : ℤ}
    {ssrOk : Bool} :
    (∀ es d, (∀ e ∈ es, ¬ e.IsOpening) → Run (MarlinEvent.Step atof) {} (.openConnection rv ssrOk :: es) d →
      (d.isPrinterOnline = true ↔ d.checkConnection = false) ∧
      Connection (fun d => d.toAbstractDriver) (MarlinDriver.HeardTemperature (.openConnection rv ssrOk :: es))
        (MarlinDriver.Requests atof) (MarlinDriver.Reports atof) d) ∧
    ∀ es d, Run (MakerbotEvent.Step gpx atof) (.init state) (.openConnection rv ssrOk :: es) d →
      Connection (fun d => d.toAbstractDriver) d.HeardTemperature (MakerbotDriver.Requests gpx atof)
        MakerbotDriver.Reports d := by
  constructor
  · intro es d hes hrun
    obtain ⟨d₁, hopened, hrun⟩ := hrun.cons_inv
    obtain ⟨hchecked, hheard⟩ := (MarlinDriver.follows_opened hopened).run hes hrun
    refine ⟨hchecked, hheard, fun ho _ _ => MarlinDriver.requests_offline ho, fun ho _ => ?_⟩
    exact MarlinDriver.reports_keep (hchecked.mp ho)
  · intro es d hrun
    exact ⟨MakerbotDriver.heard_run hrun, fun ho _ _ => MakerbotDriver.requests_offline ho,
      fun ho _ => MakerbotDriver.reports_keep ho⟩

/-- A printer that answers, and one that has not answered yet. -/
theorem connection_invariant_opened :
    (∃ d : MarlinDriver, d.isPrinterOnline = true ∧ (d.isPrinterOnline = true ↔ d.checkConnection = false)) ∧
    ∃ d : MakerbotDriver Unit, d.isPrinterOnline = false ∧
      Connection (fun d => d.toAbstractDriver) d.HeardTemperature
        (MakerbotDriver.Requests ⟨id, fun state _ => ([], state)⟩ fun _ => 0) MakerbotDriver.Reports d := by
  let d₁ : MarlinDriver := { isConnected := true, state := .connecting }
  let d₂ : MarlinDriver := { d₁ with
    state := .idle
    checkConnection := false
    checkTemperatureInterval := 1500 }
  have hopen : MarlinEvent.Step (fun _ => 0) {} (.openConnection 0 true) d₁ := rfl
  have hanswer : MarlinEvent.Step (fun _ => 0) d₁ (.other (.response (ascii "ok T:0"))) d₂ := by
    unfold MarlinEvent.Step
    decide +kernel
  let d₃ : MakerbotDriver Unit := { MakerbotDriver.init () with
    isConnected := true
    state := .connecting }
  have hopen' : MakerbotEvent.Step ⟨id, fun state _ => ([], state)⟩ (fun _ => 0) (.init ())
      (.openConnection 0 true) d₃ := rfl
  have hinvariant := @connection_invariant Unit ⟨id, fun state _ => ([], state)⟩ (fun _ => 0) () 0 true
  refine ⟨⟨d₂, rfl, (hinvariant.1 [.other (.response (ascii "ok T:0"))] d₂ ?_
    (.cons hopen (.cons hanswer (.nil _)))).1⟩, d₃, rfl, hinvariant.2 [] d₃ (.cons hopen' (.nil _))⟩
  simp [MarlinEvent.IsOpening]

end Print3D
