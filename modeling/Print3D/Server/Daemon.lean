import Print3D.Drivers.Origins
import Print3D.Drivers.Phases
import Print3D.Drivers.Updates
import Print3D.Server.Calls

/-! The server with a Marlin driver: the bytes of the clients on one side, those of the printer on the
other. -/
namespace Print3D
open CommandHandler Effects Framing Lines Transition

/-! ### The driver of the server -/

/-- The functions of a driver, for what contains one. -/
def DriverOps.onto {D E : Type} (ops : DriverOps D) (get : E → D) (set : E → D → E) : DriverOps E where
  getTemperature e := ops.getTemperature (get e)
  getTargetTemperature e := ops.getTargetTemperature (get e)
  getBedTemperature e := ops.getBedTemperature (get e)
  getTargetBedTemperature e := ops.getTargetBedTemperature (get e)
  isHeating e := ops.isHeating (get e)
  getCurrentLine e := ops.getCurrentLine (get e)
  getBufferedLines e := ops.getBufferedLines (get e)
  getTotalLines e := ops.getTotalLines (get e)
  getBufferSize e := ops.getBufferSize (get e)
  getMaxBufferSize e := ops.getMaxBufferSize (get e)
  getMetaData e := ops.getMetaData (get e)
  getState e := ops.getState (get e)
  appendGCode e gcode totalLines metaData :=
    (ops.appendGCode (get e) gcode totalLines metaData).map fun p => (p.1, set e p.2)
  clearGCode e := (ops.clearGCode (get e)).map (set e)
  startPrint e := (ops.startPrint (get e)).map fun p => (p.1, set e p.2)
  stopPrint e endcode := (ops.stopPrint (get e) endcode).map fun p => (p.1, set e p.2)
  heatup e temperature := (ops.heatup (get e) temperature).map (set e)

theorem DriverCall.exec_onto {D E : Type} (ops : DriverOps D) (get : E → D) (set : E → D → E) (e : E)
    (call : DriverCall) : call.exec (ops.onto get set) e = (call.exec ops (get e)).map (set e) := by
  cases call with
  | appendGCode gcode totalLines metaData =>
    unfold DriverCall.exec DriverOps.onto
    dsimp only
    rw [Option.map_map, Option.map_map]
    rfl
  | clearGCode => rfl
  | startPrint =>
    unfold DriverCall.exec DriverOps.onto
    dsimp only
    rw [Option.map_map, Option.map_map]
    rfl
  | stopPrint endcode =>
    unfold DriverCall.exec DriverOps.onto
    dsimp only
    rw [Option.map_map, Option.map_map]
    rfl
  | heatup temperature => rfl

def DriverCall.event : DriverCall → MarlinEvent
  | .appendGCode gcode totalLines metaData => .other (.appendGCode gcode totalLines metaData)
  | .clearGCode => .other .clearGCode
  | .startPrint => .other .startPrint
  | .stopPrint endcode => .other (.stopPrint endcode)
  | .heatup temperature => .heatup temperature

theorem DriverCall.isRequest_event (call : DriverCall) : call.event.isRequest = true := by
  cases call <;> rfl

theorem DriverCall.exec_event (atof : Text → Int32) (d : MarlinDriver) (call : DriverCall) :
    call.exec (MarlinDriver.ops atof) d = call.event.exec atof d := by
  cases call <;> rfl

def DriverAction.timed : DriverAction UpdateInput → TimedEvent
  | .call c => .request c.event
  | .update input => .update input

def callsIn {U : Type} (actions : List (DriverAction U)) : List DriverCall :=
  actions.filterMap fun
    | .call c => some c
    | .update _ => none

namespace TimedMarlinDriver

variable {atof : Text → Int32} {d d' : TimedMarlinDriver} {t₀ rv : ℤ} {ssrOk : Bool}

def ops (atof : Text → Int32) : DriverOps TimedMarlinDriver :=
  (MarlinDriver.ops atof).onto (·.toMarlinDriver) fun d base => { d with toMarlinDriver := base }

/-- An update in the loop of the server; the process may exit in it. -/
def updateWith (atof : Text → Int32) (input : UpdateInput) (d : TimedMarlinDriver) : Option TimedMarlinDriver :=
  (d.update atof input).toOption.map (·.2)

def opened (t₀ rv : ℤ) (ssrOk : Bool) : TimedMarlinDriver :=
  { init t₀ with toAbstractDriver := (AbstractDriver.openConnection {} rv ssrOk).2 }

theorem timed_step {a : DriverAction UpdateInput} (h : a.Step (ops atof) (updateWith atof) d d') :
    a.timed.Step atof d d' := by
  cases a with
  | call c =>
    rw [DriverAction.Step, DriverAction.exec, ops, DriverCall.exec_onto, DriverCall.exec_event] at h
    obtain ⟨base, hbase, rfl⟩ := Option.map_eq_some_iff.mp h
    change (if _ then _ else _ : Except Halt TimedMarlinDriver) = _
    rw [if_pos c.isRequest_event]
    exact map_eq_ok.mpr ⟨base, defined_eq_ok.mpr hbase, rfl⟩
  | update input =>
    obtain ⟨⟨t, d₁⟩, hupdate, rfl⟩ := Option.map_eq_some_iff.mp h
    exact map_eq_ok.mpr ⟨(t, d₁), toOption_eq_some.mp hupdate, rfl⟩

theorem requestsOf_timed (actions : List (DriverAction UpdateInput)) :
    TimedEvent.requestsOf (actions.map DriverAction.timed) = (callsIn actions).map DriverCall.event := by
  induction actions with
  | nil => rfl
  | cons a actions ih =>
    cases a with
    | call c => exact congrArg (c.event :: ·) ih
    | update input => exact ih

end TimedMarlinDriver

namespace ServerLoop
open TimedMarlinDriver

variable {mem : Memory} {atof : Text → Int32} {files : Option Text → Except Text Text} {t₀ rv : ℤ}
  {ssrOk : Bool}
  {ls : List (LoopEvent UpdateInput × List Output)} {s : ServerLoop TimedMarlinDriver}

/-- The driver of the server makes the requests that the clients' commands name, and hears the lines that the
printer sends. -/
theorem daemon_traced (hroomy : mem.Roomy)
    (h : Run (Step mem (ops atof) files (updateWith atof)) (start (opened t₀ rv ssrOk)) ls s) :
    ∃ trace lines, Traced atof (.request (.openConnection rv ssrOk) :: (history ls).map DriverAction.timed)
      s.server.driver trace lines := by
  have htimed : Run (TimedEvent.Step atof) (opened t₀ rv ssrOk) ((history ls).map DriverAction.timed)
      s.server.driver := (run_history hroomy h).relabel _ fun _ _ _ => timed_step
  have hopen : TimedEvent.Step atof (init t₀) (.request (.openConnection rv ssrOk)) (opened t₀ rv ssrOk) := rfl
  exact traced_run (.cons hopen htimed)

def phasesOf {U : Type} (actions : List (DriverAction U)) : List PhaseEvent :=
  (callsIn actions).map fun call => call.event.phase

/-- The phases that only the commands of clients bring about. -/
def isRequested : PhaseEvent → Bool
  | .storing | .clearing | .starting | .stopping => true
  | _ => false

theorem since_requests {c : PhaseEvent} {ends : List PhaseEvent} {trace : List MarlinEvent}
    (hrequested : isRequested c = true) (h : PhaseEvent.Since c ends (trace.map MarlinEvent.phase)) :
    PhaseEvent.Since c ends ((MarlinEvent.requestsOf trace).map MarlinEvent.phase) := by
  obtain ⟨pre, post, he, hpost⟩ := h
  obtain ⟨tpre, rest, rfl, rfl, hrest⟩ := List.map_eq_append_iff.mp he
  obtain ⟨e, tpost, rfl, hc, rfl⟩ := List.map_eq_cons_iff.mp hrest
  have hrequest : e.isRequest = true := by
    subst hc
    cases e with
    | checkTemperature => cases hrequested
    | other e =>
      cases e with
      | response code => cases hrequested
      | _ => rfl
    | _ => rfl
  refine ⟨(MarlinEvent.requestsOf tpre).map MarlinEvent.phase,
    (MarlinEvent.requestsOf tpost).map MarlinEvent.phase,
    ?_, fun e' he' => ?_⟩
  · rw [MarlinEvent.requestsOf, List.filter_append, List.filter_cons_of_pos hrequest, List.map_append,
      List.map_cons, hc]
    rfl
  · obtain ⟨e'', he'', rfl⟩ := List.mem_map.mp he'
    exact hpost _ (List.mem_map_of_mem (List.mem_of_mem_filter he''))

theorem since_of_cons {c e : PhaseEvent} {ends es : List PhaseEvent} (hne : c ≠ e)
    (h : PhaseEvent.Since c ends (e :: es)) : PhaseEvent.Since c ends es := by
  obtain ⟨pre, post, he, hpost⟩ := h
  cases pre with
  | nil => exact absurd (List.cons.inj he).1.symm hne
  | cons e' pre => exact ⟨pre, post, (List.cons.inj he).2, hpost⟩

end ServerLoop

/-! ### What the clients and the printer have done -/

namespace MarlinDriver

variable {atof : Text → Int32}

/-- A driver is online only after a report, also where its port is opened again. -/
theorem heardTemperature_of_online {trace : List MarlinEvent} {d : MarlinDriver}
    (h : Run (MarlinEvent.Step atof) {} trace d) (ho : d.isPrinterOnline = true) : HeardTemperature trace := by
  refine h.invariant_history (fun trace d => d.isPrinterOnline = true → HeardTemperature trace)
    (fun trace d e d' ih hstep ho => ?_) (fun ho => by cases ho) ho
  by_cases hopening : e.IsOpening
  · cases e with
    | openConnection rv ssrOk =>
      rcases PhaseEvent.online_step (MarlinEvent.phase_step hstep) ho with he | ⟨ho, -⟩
      · cases he
      · exact (ih ho).snoc _
    | _ => cases hopening
  · cases (MarlinEvent.connects hopening hstep).2 with
    | keeps _ hsame => exact (ih (hsame ▸ ho)).snoc e
    | establishes he hreports =>
      subst he
      exact ⟨_, List.mem_append_right _ (List.mem_singleton.mpr rfl), hreports⟩

end MarlinDriver

namespace ServerLoop
open TimedMarlinDriver

variable {mem : Memory} {atof : Text → Int32} {files : Option Text → Except Text Text} {t₀ rv : ℤ}
  {ssrOk : Bool}
  {ls : List (LoopEvent UpdateInput × List Output)} {s : ServerLoop TimedMarlinDriver}

/-- A client has sent a complete command with this code. -/
def Sent (ls : List (LoopEvent UpdateInput × List Output)) (code : ℕ) : Prop :=
  ∃ c, ∃ cmd ∈ commandsIn (receivedFrom c ls), ipcCmdGet cmd = some code

/-- A write that a call asks for: the temperature of a heatup, or a line of gcode. -/
def CallWrites (w : Text) : DriverCall → Prop
  | .heatup temperature => w = MarlinDriver.wire (ascii ("M104 S" ++ toString temperature))
  | call => ∃ gcode l, call.event.gcode? = some gcode ∧ l ∈ normLines false gcode ∧ w = MarlinDriver.wire l

/-- The driver, explained by bytes: by what the clients have sent and by what the printer has. -/
structure Explained (ls : List (LoopEvent UpdateInput × List Output)) (s : ServerLoop TimedMarlinDriver) :
    Prop where
  online : s.server.driver.isPrinterOnline = true → ∃ line ∈ complete newline s.server.driver.received,
    MarlinDriver.ReportsTemperature (cString (Serial.stripReturn line))
  buffering : s.server.driver.state = .buffering →
    PhaseEvent.Since .storing [.opening true, .clearing, .starting, .stopping] (phasesOf (history ls)) ∧
      (Sent ls ipcCmdqGcodeAppend ∨ Sent ls ipcCmdqGcodeAppendFile)
  printing : s.server.driver.state = .printing →
    PhaseEvent.Since .starting [.opening true, .clearing, .stopping] (phasesOf (history ls)) ∧
      Sent ls ipcCmdqGcodeStartprint
  stopping : s.server.driver.state = .stopping →
    PhaseEvent.Since .stopping [.opening true, .clearing, .starting] (phasesOf (history ls)) ∧
      Sent ls ipcCmdqGcodeStopprint
  writes : ∀ w ∈ s.server.driver.written, w = MarlinDriver.wire (ascii "M105") ∨
    ∃ call ∈ callsIn (history ls), CallWrites w call

theorem exists_sent (hroomy : mem.Roomy) {c : PhaseEvent} {ends : List PhaseEvent}
    (h : Run (Step mem (ops atof) files (updateWith atof)) (start (opened t₀ rv ssrOk)) ls s)
    (hsince : PhaseEvent.Since c ends (phasesOf (history ls))) :
    ∃ call : DriverCall, call.event.phase = c ∧ ∃ code, call.MadeBy code ∧ Sent ls code := by
  obtain ⟨pre, post, he, -⟩ := hsince
  have hmem : c ∈ phasesOf (history ls) := he ▸ List.mem_append_right pre (List.mem_cons_self ..)
  obtain ⟨call, hcall, hphase⟩ := List.mem_map.mp hmem
  obtain ⟨a, ha, hcall⟩ := List.mem_filterMap.mp hcall
  cases a with
  | update input => cases hcall
  | call call' =>
    cases hcall
    obtain ⟨client, cmd, hcmd, code, hcode, hmade⟩ := exists_command_of_call hroomy h ha
    exact ⟨call, hphase, code, hmade, client, cmd, hcmd, hcode⟩

/-- What is written is a query, or comes from one of the requests. -/
theorem callWrites_of_origin {trace : List MarlinEvent} {calls : List DriverCall} {w : Text}
    (hrequests : MarlinEvent.requestsOf trace = .openConnection rv ssrOk :: calls.map DriverCall.event)
    (h : MarlinEvent.Origin trace w) :
    w = MarlinDriver.wire (ascii "M105") ∨ ∃ call ∈ calls, CallWrites w call := by
  have hcall : ∀ e ∈ trace, e.isRequest = true → ¬ e.IsOpening → ∃ call ∈ calls, call.event = e := by
    intro e he hrequest hopening
    have hmem : e ∈ MarlinEvent.requestsOf trace := List.mem_filter.mpr ⟨he, hrequest⟩
    rw [hrequests] at hmem
    rcases List.mem_cons.mp hmem with rfl | hmem
    · exact absurd trivial hopening
    · exact List.mem_map.mp hmem
  cases h with
  | query => exact .inl rfl
  | heatup he =>
    obtain ⟨call, hmem, hevent⟩ := hcall _ he rfl not_false
    refine .inr ⟨call, hmem, ?_⟩
    cases call with
    | heatup temperature =>
      cases hevent
      rfl
    | _ => cases hevent
  | @line l hl =>
    obtain ⟨e, he, gcode, hgcode, hl⟩ := hl
    have hrequest : e.isRequest = true ∧ ¬ e.IsOpening := by
      cases e with
      | setGCode => exact ⟨rfl, not_false⟩
      | other e => cases e <;> first | exact ⟨rfl, not_false⟩ | cases hgcode
      | _ => cases hgcode
    obtain ⟨call, hmem, rfl⟩ := hcall e he hrequest.1 hrequest.2
    refine .inr ⟨call, hmem, ?_⟩
    cases call with
    | heatup temperature => cases hgcode
    | _ => exact ⟨gcode, l, hgcode, hl, rfl⟩

/-- In a roomy memory, whatever the clients and the printer send, in whatever pieces and in whatever
order: the driver is online only if the printer has sent a line with a temperature, it buffers,
prints or stops only if the command for it has come from a client, with no later one that would have
ended it, and apart from queries of the temperature it writes only what commands of clients ask for.
-/
theorem daemon_explained (hroomy : mem.Roomy)
    (h : Run (Step mem (ops atof) files (updateWith atof)) (start (opened t₀ rv ssrOk)) ls s) :
    Explained ls s := by
  obtain ⟨trace, lines, htraced⟩ := daemon_traced hroomy h
  have hphases := (MarlinEvent.describes_run htraced.run).2
  have hcalls : MarlinEvent.requestsOf trace =
      .openConnection rv ssrOk :: (callsIn (history ls)).map DriverCall.event :=
    htraced.requests.trans (congrArg (_ :: ·) (requestsOf_timed (history ls)))
  have hrequests : (MarlinEvent.requestsOf trace).map MarlinEvent.phase =
      .opening (decide (0 ≤ rv) && ssrOk) :: phasesOf (history ls) := by
    rw [hcalls, List.map_cons, List.map_map]
    rfl
  have hsince : ∀ {c ends}, isRequested c = true → PhaseEvent.Since c ends (trace.map MarlinEvent.phase) →
      PhaseEvent.Since c ends (phasesOf (history ls)) := by
    intro c ends hrequested hc
    have hc := since_requests hrequested hc
    rw [hrequests] at hc
    refine since_of_cons ?_ hc
    rintro rfl
    cases hrequested
  constructor
  · intro ho
    obtain ⟨code, hcode, hreports⟩ := MarlinDriver.heardTemperature_of_online htraced.run ho
    have hresponse : code ∈ MarlinEvent.responsesOf trace := List.mem_filterMap.mpr ⟨_, hcode, rfl⟩
    rw [htraced.responses] at hresponse
    obtain ⟨line, hline, rfl⟩ := List.mem_map.mp hresponse
    refine ⟨line, ?_, hreports⟩
    rw [htraced.received, complete_unlines_append htraced.whole]
    exact List.mem_append_left _ hline
  · intro hs
    have hcause := hsince rfl (hphases.buffering hs)
    obtain ⟨call, hphase, code, hmade, hsent⟩ := exists_sent hroomy h hcause
    refine ⟨hcause, ?_⟩
    cases call with
    | appendGCode =>
      rcases hmade with rfl | rfl
      · exact .inl hsent
      · exact .inr hsent
    | _ => cases hphase
  · intro hs
    have hcause := hsince rfl (hphases.printing hs)
    obtain ⟨call, hphase, code, hmade, hsent⟩ := exists_sent hroomy h hcause
    refine ⟨hcause, ?_⟩
    cases call with
    | startPrint => exact (show code = _ from hmade) ▸ hsent
    | _ => cases hphase
  · intro hs
    have hcause := hsince rfl (hphases.stopping hs)
    obtain ⟨call, hphase, code, hmade, hsent⟩ := exists_sent hroomy h hcause
    refine ⟨hcause, ?_⟩
    cases call with
    | stopPrint => exact (show code = _ from hmade) ▸ hsent
    | _ => cases hphase
  · exact fun w hw => callWrites_of_origin hcalls ((MarlinEvent.keeps_of_run htraced.run).written w hw)

/-- A client that sends a line and starts it, and a printer that answers. -/
def startedPrint : List (Iteration UpdateInput) := [
  { accepted := true
    found := fun _ => [.data (encode ipcCmdqGcodeAppend [ascii "G1"])]
    homes := fun _ _ => 0x10000
    update := ⟨clockAt 6000000 6000100, [.data (ascii "ok T:1" ++ [newline]), .wouldBlock false], .other⟩ },
  { found := fun _ => [.data (encode ipcCmdqGcodeStartprint [])]
    homes := fun _ _ => 0x10000
    update := ⟨clockAt 6300000 6300100, [.wouldBlock false], .other⟩ }]

def loopStartedPrint : Option (ServerLoop TimedMarlinDriver × List (LoopEvent UpdateInput × List Output)) :=
  loop .desktop (ops fun _ => 0) (fun _ => .error []) (updateWith fun _ => 0) startedPrint
    (start (opened 5000000 0 true))

theorem daemon_explained_startedPrint : ∃ s ls, loopStartedPrint = some (s, ls) ∧ Explained ls s ∧
    s.server.driver.state = .printing ∧ s.server.driver.written = [ascii "G1" ++ [newline]] := by
  have hcomputed : loopStartedPrint.map (fun p => (p.1.server.driver.state, p.1.server.driver.written)) =
      some (.printing, [ascii "G1" ++ [newline]]) := by
    decide +kernel
  obtain ⟨⟨s, ls⟩, hs, he⟩ := Option.map_eq_some_iff.mp hcomputed
  obtain ⟨hstate, hwritten⟩ := Prod.ext_iff.mp he
  have hrun := run_loop Memory.roomy_desktop (serves_start _) hs
  exact ⟨s, ls, hs, daemon_explained Memory.roomy_desktop hrun, hstate, hwritten⟩

end ServerLoop
end Print3D
