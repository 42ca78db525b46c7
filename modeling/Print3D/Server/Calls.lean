import Print3D.Server.Streams

/-! What a server does to its driver: the calls of its commands and the updates, and nothing else. -/
namespace Print3D
open CommandHandler Effects Framing Transition

variable {D U : Type}

def DriverCall.exec (ops : DriverOps D) (driver : D) : DriverCall → Option D
  | .appendGCode gcode totalLines metaData => (ops.appendGCode driver gcode totalLines metaData).map (·.2)
  | .clearGCode => ops.clearGCode driver
  | .startPrint => (ops.startPrint driver).map (·.2)
  | .stopPrint endcode => (ops.stopPrint driver endcode).map (·.2)
  | .heatup temperature => ops.heatup driver temperature

/-- The call is one of a command with this code. -/
def DriverCall.MadeBy (code : ℕ) : DriverCall → Prop
  | .appendGCode .. => code = ipcCmdqGcodeAppend ∨ code = ipcCmdqGcodeAppendFile
  | .clearGCode => code = ipcCmdqGcodeClear
  | .startPrint => code = ipcCmdqGcodeStartprint
  | .stopPrint _ => code = ipcCmdqGcodeStopprint
  | .heatup _ => code = ipcCmdqHeatup

/-- What happens to the driver of a server. -/
inductive DriverAction (U : Type)
  | call (c : DriverCall)
  | update (u : U)
  deriving DecidableEq

def DriverAction.exec (ops : DriverOps D) (update : U → D → Option D) (driver : D) :
    DriverAction U → Option D
  | .call c => c.exec ops driver
  | .update u => update u driver

def DriverAction.Step (ops : DriverOps D) (update : U → D → Option D) (driver : D) (a : DriverAction U)
    (driver' : D) : Prop := a.exec ops update driver = some driver'

namespace Server

variable {ops : DriverOps D} {files : Option Text → Except Text Text} {update : U → D → Option D}
  {s s' : Server D} {o : Output} {client code : ℕ} {args : List Text} {rest : Text} {driver : D}
  {acts : List (ServerLoop.Activity U)} {allowed : DriverCall → Prop}

/-- The calls that a handler adds to its output are allowed, and have been made in this order. -/
structure Drives (ops : DriverOps D) (allowed : DriverCall → Prop) (p q : Server D × Output) : Prop where
  calls : ∃ calls, q.2.calls = p.2.calls ++ calls ∧ (∀ c ∈ calls, allowed c) ∧
    Run (fun driver (call : DriverCall) driver' => call.exec ops driver = some driver')
      p.1.driver calls q.1.driver

theorem Drives.trans (p q r : Server D × Output) (h : Drives ops allowed p q) (h' : Drives ops allowed q r) :
    Drives ops allowed p r := by
  obtain ⟨calls, hcalls, hallowed, hrun⟩ := h.calls
  obtain ⟨calls', hcalls', hallowed', hrun'⟩ := h'.calls
  refine ⟨calls ++ calls', by rw [hcalls', hcalls, List.append_assoc], fun c hc => ?_, hrun.append hrun'⟩
  rcases List.mem_append.mp hc with hc | hc
  · exact hallowed c hc
  · exact hallowed' c hc

theorem Drives.of_quiet {p q : Server D × Output} (hcalls : q.2.calls = p.2.calls)
    (hdriver : q.1.driver = p.1.driver) : Drives ops allowed p q :=
  ⟨[], by rw [hcalls, List.append_nil], by simp, hdriver ▸ .nil _⟩

theorem Drives.refl (p : Server D × Output) : Drives ops allowed p p := .of_quiet rfl rfl

theorem drives_frame : Frame (D := D) (Drives ops allowed) fun _ => False where
  refl := .refl
  trans := .trans
  send _ _ _ := .of_quiet rfl rfl
  cancelAll _ _ _ := .of_quiet rfl rfl
  call _ _ _ _ h := h.elim

theorem drives_callDriver {α : Type} {call : DriverCall} (hcall : allowed call) {f : D → Option (α × D)}
    (hf : ∀ d a d', f d = some (a, d') → call.exec ops d = some d') :
    Within (Drives ops allowed) (callDriver call f : Handler D α) := by
  intro p a q h
  obtain ⟨s, o⟩ := p
  rw [callDriver_run] at h
  obtain ⟨⟨a', driver⟩, hdriver, he⟩ := Option.map_eq_some_iff.mp h
  cases he
  refine ⟨[call], rfl, fun c hc => ?_, .cons (hf _ _ _ hdriver) (.nil _)⟩
  rw [List.mem_singleton.mp hc]
  exact hcall

theorem result_eq {α : Type} {x : Option (α × D)} {a : α} {d : D} (h : x = some (a, d)) :
    x.map (·.2) = some d := by
  rw [h]
  rfl

/-- A call, and the reply behind it. -/
theorem drives_callDriver_bind {α β : Type} {call : DriverCall} (hcall : allowed call) {f : D → Option (α × D)}
    {g : α → Handler D β} (hf : ∀ d a d', f d = some (a, d') → call.exec ops d = some d')
    (h : ∀ a, Within (Drives ops allowed) (g a)) :
    Within (Drives ops allowed) (callDriver call f >>= g) :=
  .bind .trans (drives_callDriver hcall hf) h

theorem drives_sendOk : Within (Drives ops allowed) (sendOk : Handler D Unit) := within_sendReply drives_frame

theorem drives_modifyServer {f : Server D → Server D} (hf : ∀ s, (f s).driver = s.driver) :
    Within (Drives ops allowed) (modifyServer f : Handler D Unit) :=
  .modify fun p => .of_quiet rfl (hf p.1)

/-! ### Handlers -/

variable (ops) (files) (client) (buf : Text)

theorem drives_hndGcodeClear (hcall : allowed .clearGCode) :
    Within (Drives ops allowed) (hndGcodeClear ops client) := by
  refine within_cancelAll_bind drives_frame fun _ => drives_callDriver_bind hcall ?_ fun _ => drives_sendOk
  intro d a d' h
  obtain ⟨d₁, hd₁, he⟩ := Option.map_eq_some_iff.mp h
  cases he
  exact hd₁

theorem drives_hndGcodeAppend
    (hcall : ∀ gcode totalLines metaData, allowed (.appendGCode gcode totalLines metaData)) :
    Within (Drives ops allowed) (hndGcodeAppend ops client buf) := by
  have hget : Within (Drives ops allowed) (getTransaction client : Handler D Transaction) :=
    .bind .trans (.get .refl) fun _ => .lift .refl _
  refine .bind .trans hget fun transaction => within_lift_bind drives_frame fun numArgs => ?_
  refine .ite (fun _ => within_sendReply drives_frame) fun _ => .bind .trans ?_ fun _ => ?_
  · exact .ite (fun _ => within_sendReply drives_frame) fun _ => .pure .refl _
  refine within_lift_bind drives_frame fun chunk => .ite (fun _ => ?_) fun _ => ?_
  · refine drives_callDriver_bind (hcall _ _ _) (fun _ _ _ => result_eq) fun gsr => ?_
    refine .bind .trans (drives_modifyServer fun _ => rfl) fun _ => .ite (fun _ => ?_) fun _ => drives_sendOk
    exact within_sendReply drives_frame
  · exact .bind .trans (drives_modifyServer fun _ => rfl) fun _ => drives_sendOk

theorem drives_hndGcodeAppendFile
    (hcall : ∀ gcode totalLines metaData, allowed (.appendGCode gcode totalLines metaData)) :
    Within (Drives ops allowed) (hndGcodeAppendFile ops client buf files) := by
  refine within_lift_bind drives_frame fun numArgs => .bind .trans ?_ fun _ =>
    .bind .trans ?_ fun transaction => ?_
  · exact .ite (fun _ => within_sendReply drives_frame) fun _ => .pure .refl _
  · exact .bind .trans (.get .refl) fun _ => .lift .refl _
  · refine .ite (fun _ => within_sendReply drives_frame) fun _ =>
      within_lift_bind drives_frame fun filename => ?_
    cases files filename with
    | error message => exact within_sendReply drives_frame
    | ok data => exact drives_callDriver_bind (hcall _ _ _) (fun _ _ _ => result_eq) fun _ => drives_sendOk

theorem drives_hndGcodeStartPrint (hcall : allowed .startPrint) :
    Within (Drives ops allowed) (hndGcodeStartPrint ops) :=
  drives_callDriver_bind hcall (fun _ _ _ => result_eq) fun _ => drives_sendOk

theorem drives_hndGcodeStopPrint (hcall : ∀ endcode, allowed (.stopPrint endcode)) :
    Within (Drives ops allowed) (hndGcodeStopPrint ops client buf) := by
  refine within_cancelAll_bind drives_frame fun _ => within_lift_bind drives_frame fun numArgs =>
    within_lift_bind drives_frame fun endcode => ?_
  exact drives_callDriver_bind (hcall _) (fun _ _ _ => result_eq) fun _ => drives_sendOk

theorem drives_hndHeatup (hcall : ∀ temperature, allowed (.heatup temperature)) :
    Within (Drives ops allowed) (hndHeatup ops buf) := by
  refine within_lift_bind drives_frame fun numArgs => .ite (fun _ => ?_) fun _ => within_sendReply drives_frame
  refine within_lift_bind drives_frame fun temperature =>
    drives_callDriver_bind (hcall _) (fun d a d' h => ?_) fun _ => drives_sendOk
  obtain ⟨d₁, hd₁, he⟩ := Option.map_eq_some_iff.mp h
  cases he
  exact hd₁

variable {ops} {files} {client}

/-! ### The driver in a run -/

/-- A command makes the driver do what its output says, and only what goes with its code. -/
theorem drives_command (h : Encodable code args)
    (hexec : s.exec ops files (.command client code args rest) = some (s', o)) :
    Drives ops (DriverCall.MadeBy code) (s, {}) (s', o) := by
  rw [exec, runCommand_run ops h] at hexec
  obtain ⟨⟨u, q⟩, hrun, he⟩ := Option.map_eq_some_iff.mp hexec
  cases he
  refine Within.forM Drives.refl Drives.trans (fun p hp => .ite (fun hpc => ?_) fun _ => .pure .refl _)
    (s, {}) u (s', o) hrun
  simp only [handlers, List.mem_cons, List.not_mem_nil, or_false] at hp
  rcases hp with rfl | rfl | rfl | rfl | rfl | rfl | rfl | rfl | rfl | rfl
  · exact within_hndTest _ drives_frame
  · exact within_hndGetTemperature ops _ drives_frame
  · exact drives_hndGcodeClear ops client hpc.symm
  · exact drives_hndGcodeAppend ops client _ fun _ _ _ => .inl hpc.symm
  · exact drives_hndGcodeAppendFile ops files client _ fun _ _ _ => .inr hpc.symm
  · exact drives_hndGcodeStartPrint ops hpc.symm
  · exact drives_hndGcodeStopPrint ops client _ fun _ => hpc.symm
  · exact drives_hndHeatup ops _ fun _ => hpc.symm
  · exact within_hndGetProgress ops drives_frame
  · exact within_hndGetState ops drives_frame

theorem calls_madeBy (h : Run (ServerLoop.Activity.Step ops files update) s acts s') (c : ℕ) :
    ∀ p ∈ ServerLoop.commandsOf c acts, ∀ call ∈ p.2.calls,
      ∃ code, ipcCmdGet p.1 = some code ∧ call.MadeBy code := by
  induction h with
  | nil => simp [ServerLoop.commandsOf]
  | @cons s t u a acts hstep _ ih =>
    intro p hp call hcall
    rcases List.mem_append.mp (ServerLoop.commandsOf_append c [a] acts ▸ hp) with hp | hp
    · obtain ⟨a', ha', hp⟩ := List.mem_filterMap.mp hp
      rw [List.mem_singleton.mp ha'] at hp
      cases a with
      | update u => cases hp
      | event l =>
        obtain ⟨e, o⟩ := l
        cases e with
        | connect => cases hp
        | disconnect client => cases hp
        | command client code args rest =>
          rw [ServerLoop.Activity.commandOf] at hp
          split_ifs at hp
          cases hp
          obtain ⟨calls, hcalls, hmade, -⟩ := (drives_command hstep.1.2 hstep.2).calls
          have hget := ipcCmdGet_encode hstep.1.2 []
          rw [List.append_nil] at hget
          have hmem : call ∈ calls := (show o.calls = calls from hcalls) ▸ hcall
          exact ⟨code, hget, hmade call hmem⟩
    · exact ih p hp call hcall

end Server

namespace ServerLoop

variable {mem : Memory} {ops : DriverOps D} {files : Option Text → Except Text Text}
  {update : U → D → Option D} {s s' : ServerLoop D} {server server' : Server D} {client : ℕ}
  {rest : Text} {cmds : List Text}
  {os : List Output} {driver : D} {ls : List (LoopEvent U × List Output)}

theorem drives_execCommands (hcmds : ∀ cmd ∈ cmds, commandFramer.IsFrame cmd)
    (hlen : (cmds.flatten ++ rest).length < 2 ^ 31)
    (h : execCommands ops files client cmds rest server = some (os, server')) :
    Run (fun driver (call : DriverCall) driver' => call.exec ops driver = some driver') server.driver
      (os.flatMap (·.calls)) server'.driver := by
  induction cmds generalizing server os with
  | nil =>
    cases h
    exact .nil _
  | cons cmd cmds ih =>
    obtain ⟨⟨u, server₁, o⟩, hrun, h⟩ := Option.bind_eq_some_iff.mp h
    obtain ⟨⟨os', server₂⟩, hrest, h⟩ := Option.bind_eq_some_iff.mp h
    cases h
    rw [List.flatten_cons, List.append_assoc, List.length_append] at hlen
    obtain ⟨code, args, henc, rfl⟩ :=
      exists_encode_of_isFrame (hcmds cmd (List.mem_cons_self ..)) (by omega)
    have hexec : server.exec ops files (.command client code args (cmds.flatten ++ rest)) =
        some (server₁, o) := congrArg (Option.map Prod.snd) hrun
    obtain ⟨calls, hcalls, -, hfirst⟩ := (Server.drives_command henc hexec).calls
    have hrest := ih (fun c hc => hcmds c (List.mem_cons_of_mem _ hc)) (by omega) hrest
    rw [List.flatMap_cons, show o.calls = calls from hcalls]
    exact hfirst.append hrest

/-- What happens to the driver in a run of the loop. -/
def history (ls : List (LoopEvent U × List Output)) : List (DriverAction U) :=
  ls.flatMap fun
    | (.accept, _) => []
    | (.turn .., os) => (os.flatMap (·.calls)).map .call
    | (.update u, _) => [.update u]

theorem history_append (ls ms : List (LoopEvent U × List Output)) :
    history (ls ++ ms) = history ls ++ history ms := List.flatMap_append

theorem history_step (hroomy : mem.Roomy) {l : LoopEvent U × List Output} {acts : List (Activity U)}
    (h : Serves ops files update driver ls s acts) (hstep : Step mem ops files update s l s') :
    Run (DriverAction.Step ops update) s.server.driver (history [l]) s'.server.driver := by
  obtain ⟨e, os⟩ := l
  cases e with
  | accept =>
    cases hstep
    exact .nil _
  | update u =>
    obtain ⟨s₁, hupdate, he⟩ := Option.map_eq_some_iff.mp hstep
    cases he
    obtain ⟨driver', hdriver, rfl⟩ := Option.map_eq_some_iff.mp hupdate
    exact .cons hdriver (.nil _)
  | turn client found home =>
    change (if client ∈ s.clients then serve mem ops files client found home s else none) =
      some (s', os) at hstep
    split_ifs at hstep with hclient
    obtain ⟨cmds, rest, server, hcuts, hlen, hexec, hs'⟩ := serve_eq hroomy (h.cuts client).incomplete hstep
    rw [hcuts.text] at hlen
    have hrun : Run (DriverAction.Step ops update) s.server.driver ((os.flatMap (·.calls)).map .call)
        server.driver :=
      (drives_execCommands hcuts.frames hlen hexec).relabel DriverAction.call fun _ _ _ hcall => hcall
    have hhistory : history [((LoopEvent.turn client found home : LoopEvent U), os)] =
        (os.flatMap (·.calls)).map .call := List.append_nil _
    rw [hhistory]
    rcases hs' with rfl | rfl
    · exact hrun
    · exact hrun

theorem zip_outputsFor {acts : List (Activity U)} (h : Serves ops files update driver ls s acts) (c : ℕ) :
    (commandsIn (receivedFrom c ls)).zip (outputsFor c ls) = commandsOf c acts := by
  rw [commandsIn_eq (h.cuts c), ← h.outputs, List.zip_map', List.map_id']

/-- Each output belongs to a command in what its client has sent. -/
theorem calls_of_received (hroomy : mem.Roomy) (h : Run (Step mem ops files update) (start driver) ls s)
    (c : ℕ) :
    ∀ p ∈ (commandsIn (receivedFrom c ls)).zip (outputsFor c ls), ∀ call ∈ p.2.calls,
      ∃ code, ipcCmdGet p.1 = some code ∧ call.MadeBy code := by
  obtain ⟨acts, hserves⟩ := serves_run hroomy h
  rw [zip_outputsFor hserves]
  exact Server.calls_madeBy hserves.run c

theorem run_history (hroomy : mem.Roomy) (h : Run (Step mem ops files update) (start driver) ls s) :
    Run (DriverAction.Step ops update) driver (history ls) s.server.driver := by
  obtain ⟨acts, -, hrun⟩ := h.invariant_history
    (fun ls s => ∃ acts, Serves ops files update driver ls s acts ∧
      Run (DriverAction.Step ops update) driver (history ls) s.server.driver)
    (fun ls s l s' ⟨acts, hserves, hrun⟩ hstep => by
      obtain ⟨acts', hserves'⟩ := serves_step hroomy ls s l s' ⟨acts, hserves⟩ hstep
      refine ⟨acts', hserves', ?_⟩
      rw [history_append]
      exact hrun.append (history_step hroomy hserves hstep))
    ⟨[], serves_start driver, .nil _⟩
  exact hrun

/-- The driver of a server gets the calls that the outputs of the commands name, in this order, with the updates
in between, and nothing else; and a call comes only from a command that a client has sent for it. -/
theorem driver_history (hroomy : mem.Roomy) (h : Run (Step mem ops files update) (start driver) ls s) :
    Run (DriverAction.Step ops update) driver (history ls) s.server.driver ∧
      ∀ c, ∀ p ∈ (commandsIn (receivedFrom c ls)).zip (outputsFor c ls), ∀ call ∈ p.2.calls,
        ∃ code, ipcCmdGet p.1 = some code ∧ call.MadeBy code :=
  ⟨run_history hroomy h, calls_of_received hroomy h⟩

theorem driver_history_twoPieces : ∃ s ls, loopTwoPieces = some (s, ls) ∧
    Run (DriverAction.Step (MarlinDriver.ops fun _ => 0) fun (_ : Unit) d => some d)
        { state := .idle, isConnected := true, checkConnection := false } (history ls) s.server.driver ∧
      history ls = [.update (), .call (.appendGCode (ascii "G1") (-1) (some {})), .update ()] := by
  have hcomputed : loopTwoPieces.map (fun p => history p.2) =
      some [.update (), .call (.appendGCode (ascii "G1") (-1) (some {})), .update ()] := by
    decide
  obtain ⟨⟨s, ls⟩, hs, hhistory⟩ := Option.map_eq_some_iff.mp hcomputed
  exact ⟨s, ls, hs,
    (driver_history Memory.roomy_desktop (run_loop Memory.roomy_desktop (serves_start _) hs)).1, hhistory⟩

/-- A call in the history comes from a command that a client has sent. -/
theorem exists_command_of_call (hroomy : mem.Roomy)
    (h : Run (Step mem ops files update) (start driver) ls s) {call : DriverCall}
    (hcall : .call call ∈ history ls) :
    ∃ c, ∃ cmd ∈ commandsIn (receivedFrom c ls), ∃ code, ipcCmdGet cmd = some code ∧ call.MadeBy code := by
  obtain ⟨acts, hserves⟩ := serves_run hroomy h
  obtain ⟨⟨e, os⟩, hl, hcall⟩ := List.mem_flatMap.mp hcall
  cases e with
  | accept => cases hcall
  | update u => cases List.mem_singleton.mp hcall
  | turn client found =>
    obtain ⟨call', hcall', he⟩ := List.mem_map.mp hcall
    cases he
    obtain ⟨o, ho, hcall⟩ := List.mem_flatMap.mp hcall'
    have houtput : o ∈ outputsFor client ls := by
      refine List.mem_flatMap.mpr ⟨_, hl, ?_⟩
      dsimp only
      rw [if_pos rfl]
      exact ho
    rw [← hserves.outputs] at houtput
    obtain ⟨p, hp, rfl⟩ := List.mem_map.mp houtput
    have hcmd : p.1 ∈ commandsIn (receivedFrom client ls) := by
      rw [commandsIn_eq (hserves.cuts client)]
      exact List.mem_map_of_mem hp
    exact ⟨client, p.1, hcmd, Server.calls_madeBy hserves.run client p hp call hcall⟩

end ServerLoop
end Print3D
