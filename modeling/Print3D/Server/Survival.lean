import Print3D.Drivers.Survival
import Print3D.Server.Daemon
import Print3D.Server.Replies

/-! Where a server with a Marlin printer can fail: in commands with short arguments, and in gcode. -/
namespace Print3D
open CommandHandler Transition

namespace Server

variable {atof : Text → Int32} {files : Option Text → Except Text Text} {s s' : Server MarlinDriver}
  {client code : ℕ}
  {args : List Text} {rest : Text} {o : Output} {trx : Transaction}

/-- Arguments that are as long as their types, replies that fit a message, and gcode that can be printed. A file
comes without metadata. -/
def SafeRequest (files : Option Text → Except Text Text) (s : Server MarlinDriver) (client : ℕ)
    (args : List Text) : Request → Prop
  | .test => ∀ a, args[0]? = some a → Fits (testAnswer (cString a))
  | .getTemperature | .heatup => ∀ a, args[0]? = some a → 2 ≤ a.length
  | .gcodeAppend => args ≠ [] → WideNumbers args ∧ ∀ trx, s.clients client = some trx →
      ∀ chunk, Chunk.ofArgs args = some chunk → chunk.last = true → Printable (addChunk trx chunk).buffer
  | .gcodeAppendFile => ∀ trx, s.clients client = some trx → trx.active = false →
      match files (args[0]?.map cString) with
      | .ok data => Printable (cString data) ∧ s.driver.gcodeBuffer.md.IsBlank
      | .error message => Fits message
  | .gcodeStopPrint => Printable (endCode args)
  | _ => True

/-- A driver that has been given nothing but gcode that can be printed. -/
def Alive (atof : Text → Int32) (d : MarlinDriver) : Prop :=
  ∃ before, Run (MarlinEvent.Step atof) {} before d ∧ MarlinEvent.AllPrintable before

/-- A call with gcode that can be printed, and with metadata if there is some already. -/
structure SafeCall (d : MarlinDriver) (call : DriverCall) : Prop where
  printable : ∀ gcode, call.event.gcode? = some gcode → Printable gcode
  metaData : ∀ gcode totalLines, call = .appendGCode gcode totalLines none → d.gcodeBuffer.md.IsBlank

theorem Alive.event {e : MarlinEvent} {d d' : MarlinDriver} (h : Alive atof d)
    (he : ∀ gcode, e.gcode? = some gcode → Printable gcode) (hd : e.exec atof d = some d') : Alive atof d' := by
  obtain ⟨before, hrun, hbefore⟩ := h
  refine ⟨before ++ [e], hrun.append (.cons hd (.nil _)), fun e' he' => ?_⟩
  rcases List.mem_append.mp he' with he' | he'
  · exact hbefore e' he'
  · rw [List.mem_singleton.mp he']
    exact he

theorem Alive.call {call : DriverCall} {d : MarlinDriver} (h : Alive atof d) (hcall : SafeCall d call) :
    ∃ d', call.exec (MarlinDriver.ops atof) d = some d' ∧ Alive atof d' := by
  obtain ⟨before, hrun, hbefore⟩ := h
  have hexec := MarlinEvent.exec_isSome hrun hbefore hcall.printable fun gcode totalLines he => ?_
  · obtain ⟨d', hd'⟩ := Option.isSome_iff_exists.mp hexec
    exact ⟨d', by rw [DriverCall.exec_event, hd'], Alive.event ⟨before, hrun, hbefore⟩ hcall.printable hd'⟩
  · cases call <;> cases he
    exact hcall.metaData gcode totalLines rfl

/-! ### Commands -/

/-- The server goes on. -/
def Goes (atof : Text → Int32) (x : Option (Server MarlinDriver × Output)) : Prop :=
  ∃ s' o, x = some (s', o) ∧ Alive atof s'.driver

theorem goes_quiet (h : Alive atof s'.driver) : Goes atof (some (s', o)) := ⟨s', o, rfl, h⟩

theorem goes_call {α : Type} {x : Option α} {f : α → Server MarlinDriver × Output} (call : DriverCall)
    (h : Alive atof s.driver) (hcall : SafeCall s.driver call)
    (hx : ∀ d', call.exec (MarlinDriver.ops atof) s.driver = some d' → ∃ a, x = some a ∧ (f a).1.driver = d') :
    Goes atof (x.map f) := by
  obtain ⟨d', hd', halive⟩ := h.call hcall
  obtain ⟨a, rfl, hdriver⟩ := hx d' hd'
  exact ⟨(f a).1, (f a).2, rfl, hdriver ▸ halive⟩

theorem exists_of_map_snd {α : Type} {x : Option (α × MarlinDriver)} {d' : MarlinDriver}
    (h : x.map (·.2) = some d') : ∃ p, x = some p ∧ p.2 = d' := Option.map_eq_some_iff.mp h

theorem goes_gcodeAppend (h : Alive atof s.driver) (htrx : s.clients client = some trx)
    (henc : Encodable ipcCmdqGcodeAppend args) (hsafe : SafeRequest files s client args .gcodeAppend) :
    Goes atof (s.exec (MarlinDriver.ops atof) files (.command client ipcCmdqGcodeAppend args rest)) := by
  rw [exec_gcodeAppend htrx henc]
  split_ifs with hargs
  · exact goes_quiet h
  · obtain ⟨hwide, hprintable⟩ := hsafe hargs
    obtain ⟨chunk, hchunk⟩ := Option.isSome_iff_exists.mp ((chunk_isSome args).mpr ⟨hargs, hwide⟩)
    rw [hchunk, Option.bind_some]
    split_ifs with hlast
    · refine goes_call (.appendGCode (addChunk trx chunk).buffer chunk.totalLines (some chunk.metaData)) h
        ⟨fun gcode hgcode => ?_, fun _ _ he => (by cases he)⟩ fun d' hd' => exists_of_map_snd hd'
      cases hgcode
      exact hprintable trx htrx chunk hchunk hlast
    · exact goes_quiet h

theorem goes_gcodeAppendFile (h : Alive atof s.driver) (htrx : s.clients client = some trx)
    (henc : Encodable ipcCmdqGcodeAppendFile args) (hsafe : SafeRequest files s client args .gcodeAppendFile) :
    Goes atof (s.exec (MarlinDriver.ops atof) files (.command client ipcCmdqGcodeAppendFile args rest)) := by
  rw [exec_gcodeAppendFile htrx henc]
  split_ifs with hactive
  · exact goes_quiet h
  · have hfile := hsafe trx htrx ((Bool.not_eq_true _).mp hactive)
    cases hcontents : files (args[0]?.map cString) with
    | error message =>
      rw [hcontents] at hfile
      dsimp only at hfile ⊢
      rw [if_pos hfile]
      exact goes_quiet h
    | ok data =>
      rw [hcontents] at hfile
      obtain ⟨hprintable, hblank⟩ := hfile
      refine goes_call (.appendGCode (cString data) (-1) none) h ⟨fun gcode hgcode => ?_, fun _ _ _ => hblank⟩
        fun d' hd' => exists_of_map_snd hd'
      cases hgcode
      exact hprintable

theorem goes_heatup (h : Alive atof s.driver) (henc : Encodable Request.heatup.code args)
    (hsafe : SafeRequest files s client args .heatup) :
    Goes atof (s.exec (MarlinDriver.ops atof) files (.command client Request.heatup.code args rest)) := by
  rw [exec_request .heatup henc]
  unfold Request.handler
  dsimp only
  rw [hndHeatup_run henc]
  cases ha : args[0]? with
  | none => exact goes_quiet h
  | some a =>
    obtain ⟨temperature, htemperature⟩ := Option.isSome_iff_exists.mp ((readShort_isSome a).mpr (hsafe a ha))
    dsimp only
    rw [htemperature, Option.bind_some, Option.map_map]
    refine goes_call (.heatup temperature) h ⟨fun _ he => (by cases he), fun _ _ he => (by cases he)⟩
      fun d' hd' => ⟨d', hd', rfl⟩

theorem goes_request (h : Alive atof s.driver) (htrx : s.clients client = some trx) (request : Request)
    (henc : Encodable request.code args) (hsafe : SafeRequest files s client args request) :
    Goes atof (s.exec (MarlinDriver.ops atof) files (.command client request.code args rest)) := by
  cases request with
  | gcodeAppend => exact goes_gcodeAppend h htrx henc hsafe
  | gcodeAppendFile => exact goes_gcodeAppendFile h htrx henc hsafe
  | heatup => exact goes_heatup h henc hsafe
  | test =>
    rw [exec_request _ henc]
    unfold Request.handler
    dsimp only
    rw [hndTest_run henc]
    cases ha : args[0]? with
    | none => exact goes_quiet h
    | some a =>
      dsimp only
      rw [if_pos (hsafe a ha)]
      exact goes_quiet h
  | getTemperature =>
    rw [exec_request _ henc]
    unfold Request.handler
    dsimp only
    rw [hndGetTemperature_run henc]
    cases ha : args[0]? with
    | none => exact goes_quiet h
    | some a =>
      obtain ⟨which, hwhich⟩ := Option.isSome_iff_exists.mp ((readShort_isSome a).mpr (hsafe a ha))
      dsimp only
      rw [hwhich]
      exact goes_quiet h
  | gcodeClear =>
    have hexec : s.exec (MarlinDriver.ops atof) files (.command client Request.gcodeClear.code args rest) = _ :=
      exec_gcodeClear henc
    rw [hexec]
    exact goes_call .clearGCode h ⟨fun _ he => (by cases he), fun _ _ he => (by cases he)⟩
      fun d' hd' => ⟨d', hd', rfl⟩
  | gcodeStartPrint =>
    have hexec : s.exec (MarlinDriver.ops atof) files (.command client Request.gcodeStartPrint.code args rest) =
      _ := exec_gcodeStartPrint henc
    rw [hexec]
    exact goes_call .startPrint h ⟨fun _ he => (by cases he), fun _ _ he => (by cases he)⟩
      fun d' hd' => exists_of_map_snd hd'
  | gcodeStopPrint =>
    have hexec : s.exec (MarlinDriver.ops atof) files (.command client Request.gcodeStopPrint.code args rest) =
      _ := exec_gcodeStopPrint henc
    rw [hexec]
    refine goes_call (.stopPrint (endCode args)) h ⟨fun _ he => ?_, fun _ _ he => (by cases he)⟩
      fun d' hd' => exists_of_map_snd hd'
    cases he
    exact hsafe
  | getProgress =>
    rw [exec_request _ henc]
    unfold Request.handler
    rw [hndGetProgress_run]
    exact goes_quiet h
  | getState =>
    rw [exec_request _ henc]
    unfold Request.handler
    rw [hndGetState_run]
    exact goes_quiet h

/-- A code that no handler has is passed over, where commands are not logged. -/
theorem exec_unknown (henc : Encodable code args) (h : ∀ request : Request, request.code ≠ code) :
    s.exec (MarlinDriver.ops atof) files (.command client code args rest) = some (s, {}) := by
  have hcode : code ∉ (handlers (MarlinDriver.ops atof) client (encode code args ++ rest) files).map (·.1) := by
    rw [handlers_eq, List.map_map]
    intro hmem
    obtain ⟨request, -, hrequest⟩ := List.mem_map.mp hmem
    exact h request hrequest
  rw [exec, runCommand_run _ henc, Effects.forM_of_notMem hcode]
  rfl

/-! ### Runs -/

/-- A command is safe as a request, if it is one. -/
def SafeEvent (files : Option Text → Except Text Text) (s : Server MarlinDriver) : ServerEvent → Prop
  | .command client code args _ =>
    ∀ request : Request, request.code = code → SafeRequest files s client args request
  | _ => True

/-- Safe commands, what the printer sends, and the driver's own queries. -/
def SafeActivity (files : Option Text → Except Text Text) (s : Server MarlinDriver) :
    ServerLoop.Activity MarlinEvent → Prop
  | .event l => SafeEvent files s l.1
  | .update e => e.LeavesJob

theorem goes_event (h : Alive atof s.driver) {e : ServerEvent} (hvalid : s.Valid e)
    (hsafe : SafeEvent files s e) :
    Goes atof (s.exec (MarlinDriver.ops atof) files e) := by
  cases e with
  | connect => exact goes_quiet h
  | disconnect client => exact goes_quiet h
  | command client code args rest =>
    obtain ⟨hclient, henc⟩ := hvalid
    obtain ⟨trx, htrx⟩ := Option.ne_none_iff_exists'.mp hclient
    by_cases hknown : ∃ request : Request, request.code = code
    · obtain ⟨request, rfl⟩ := hknown
      exact goes_request h htrx request henc (hsafe request rfl)
    · rw [exec_unknown henc (not_exists.mp hknown)]
      exact goes_quiet h

theorem printable_of_leavesJob {e : MarlinEvent} (he : e.LeavesJob) :
    ∀ gcode, e.gcode? = some gcode → Printable gcode := by
  intro gcode hgcode
  cases e with
  | other e => cases e <;> first | exact he.elim | cases hgcode
  | setGCode => exact he.elim
  | _ => cases hgcode

theorem alive_run {acts : List (ServerLoop.Activity MarlinEvent)} (hs : Alive atof s.driver)
    (h : RunWith (ServerLoop.Activity.Step (MarlinDriver.ops atof) files fun e d => e.exec atof d)
      (fun s a _ => SafeActivity files s a) s acts s') : Alive atof s'.driver := by
  refine Run.invariant (fun s : Server MarlinDriver => Alive atof s.driver) (fun s a t halive hstep => ?_) h hs
  obtain ⟨hstep, hsafe⟩ := hstep
  cases a with
  | event l =>
    obtain ⟨e, o⟩ := l
    obtain ⟨hvalid, hexec⟩ := hstep
    obtain ⟨t', o', he, halive'⟩ := goes_event halive hvalid hsafe
    rw [hexec] at he
    cases he
    exact halive'
  | update e =>
    obtain ⟨driver, hdriver, rfl⟩ := hstep
    exact halive.event (printable_of_leavesJob hsafe) hdriver

/-- A server gets stuck in no state that it can reach by safe commands, lines of the printer and
queries, whatever clients come and go: a safe command is carried out there, and a line of the
printer is taken. -/
theorem server_survives {driver : MarlinDriver} {rv : ℤ} {ssrOk : Bool}
    {acts : List (ServerLoop.Activity MarlinEvent)}
    (hopen : MarlinEvent.Step atof {} (.openConnection rv ssrOk) driver)
    (h : RunWith (ServerLoop.Activity.Step (MarlinDriver.ops atof) files fun e d => e.exec atof d)
      (fun s a _ => SafeActivity files s a) { driver := driver } acts s) :
    (∀ e, s.Valid e → SafeEvent files s e → ∃ o t, s.Step (MarlinDriver.ops atof) files (e, o) t) ∧
      ∀ e : MarlinEvent, e.LeavesJob → ∃ driver, e.exec atof s.driver = some driver := by
  have hopened : Alive atof driver := by
    refine ⟨[.openConnection rv ssrOk], .cons hopen (.nil _), fun e he gcode hgcode => ?_⟩
    rw [List.mem_singleton.mp he] at hgcode
    cases hgcode
  have halive := alive_run hopened h
  refine ⟨fun e hvalid hsafe => ?_, fun e he => ?_⟩
  · obtain ⟨t, o, hexec, -⟩ := goes_event halive hvalid hsafe
    exact ⟨o, t, hvalid, hexec⟩
  · obtain ⟨before, hrun, hbefore⟩ := halive
    refine Option.isSome_iff_exists.mp (MarlinEvent.exec_isSome hrun hbefore (printable_of_leavesJob he) ?_)
    rintro gcode totalLines rfl
    exact he.elim

/-- A client that sends a temperature. -/
theorem server_survives_heated : ∃ driver o t,
    ({ driver := driver } : Server MarlinDriver).connect.Step (MarlinDriver.ops fun _ => 0) (fun _ => .error [])
      (.command 0 ipcCmdqGcodeAppend [ascii "M109 S200"] [], o) t := by
  obtain ⟨driver, hopen⟩ : ∃ driver, MarlinEvent.Step (fun _ => 0) {} (.openConnection 0 true) driver :=
    ⟨_, rfl⟩
  let s : Server MarlinDriver := { driver := driver }
  have hconnect : ServerLoop.Activity.Step (MarlinDriver.ops fun _ => 0) (fun _ => .error [])
      (fun (e : MarlinEvent) d => e.exec (fun _ => 0) d) s (.event (.connect, {})) s.connect := ⟨trivial, rfl⟩
  have hprintable : Printable (ascii "M109 S200") := ⟨by decide, by decide⟩
  have hclient : s.connect.clients 0 ≠ none := by
    intro hnone
    cases hnone
  have hvalid : s.connect.Valid (.command 0 ipcCmdqGcodeAppend [ascii "M109 S200"] []) :=
    ⟨hclient, by decide, by decide, by decide⟩
  have hsafe : SafeEvent (fun _ => .error []) s.connect
      (.command 0 ipcCmdqGcodeAppend [ascii "M109 S200"] []) := by
    intro request hrequest
    cases request with
    | gcodeAppend =>
      refine fun _ => ⟨⟨fun a ha => (by cases ha), fun i hi hi' a ha => ?_⟩, fun trx htrx chunk hchunk _ => ?_⟩
      · rw [List.getElem?_eq_none (by simpa using by omega)] at ha
        cases ha
      · cases htrx
        cases hchunk
        exact hprintable
    | _ => exact absurd hrequest (by decide)
  obtain ⟨o, t, hstep⟩ := (server_survives hopen (.cons ⟨hconnect, trivial⟩ (.nil _))).1 _ hvalid hsafe
  exact ⟨driver, o, t, hstep⟩

end Server
end Print3D
