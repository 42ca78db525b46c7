import Print3D.Server.Loop

/-! What a client hands to the driver is a function of the bytes that it has sent. -/
namespace Print3D
open CommandHandler Framing Transition

namespace ServerLoop

def commandsIn (bytes : Text) : List Text := commandFramer.frames bytes

def chunkIn (cmd : Text) : Option Chunk := do
  let code ← ipcCmdGet cmd
  let numArgs ← ipcCmdNumArgs cmd
  if code = ipcCmdqGcodeAppend then readChunk cmd numArgs else none

def callsForBytes (bytes : Text) : List DriverCall := Server.callsFor ((commandsIn bytes).filterMap chunkIn)

variable {D U : Type} {mem : Memory} {ops : DriverOps D} {files : Option Text → Except Text Text}
  {update : U → D → Option D} {driver : D} {s : ServerLoop D} {t : Server D} {acts : List (Activity U)}
  {ls : List (LoopEvent U × List Output)} {c : ℕ}

/-- The `appendGCode` calls that the `gcodeAppend` commands of a client have made. -/
def appendCallsOf (c : ℕ) (ls : List (LoopEvent U × List Output)) : List DriverCall :=
  ((commandsIn (receivedFrom c ls)).zip (outputsFor c ls)).flatMap fun p =>
    if ipcCmdGet p.1 = some ipcCmdqGcodeAppend then p.2.appendCalls else []

theorem commandsIn_eq {bytes rest : Text} {cmds : List Text} (h : commandFramer.Cuts bytes cmds rest) :
    commandsIn bytes = cmds := h.frames_eq

theorem chunkIn_encode {code : ℕ} {args : List Text} (h : Encodable code args) :
    chunkIn (encode code args) = if code = ipcCmdqGcodeAppend then Chunk.ofArgs args else none := by
  have hget := ipcCmdGet_encode h []
  have hnum := ipcCmdNumArgs_encode h []
  have hread := readChunk_encode h (r := [])
  rw [List.append_nil] at hget hnum hread
  rw [chunkIn, hget, Option.bind_eq_bind, Option.bind_some, hnum, Option.bind_eq_bind, Option.bind_some, hread]

/-- The events among what happens to a server. -/
def eventsOf (acts : List (Activity U)) : List (ServerEvent × Output) :=
  acts.filterMap fun
    | .event l => some l
    | .update _ => none

theorem eventsOf_append (acts acts' : List (Activity U)) :
    eventsOf (acts ++ acts') = eventsOf acts ++ eventsOf acts' := List.filterMap_append

/-- The chunks and the calls of all clients, as far as their commands have been run. -/
structure Tallied (acts : List (Activity U)) (t : Server D) : Prop where
  handsOver : Server.HandsOver (eventsOf acts) t
  chunks : ∀ c, Server.chunksOf c (eventsOf acts) = (commandsOf c acts).filterMap fun p => chunkIn p.1
  calls : ∀ c, Server.callsOf c (eventsOf acts) = (commandsOf c acts).flatMap fun p =>
    if ipcCmdGet p.1 = some ipcCmdqGcodeAppend then p.2.appendCalls else []

/-- Updates of the driver do not touch the transactions. -/
theorem handsOver_updated {ls : List (ServerEvent × Output)} (h : Server.HandsOver ls t) (driver : D) :
    Server.HandsOver ls { t with driver := driver } := ⟨⟨h.buffer, h.fresh⟩, h.calls⟩

theorem tallied_quiet {a : Activity U} {t' : Server D} (h : Tallied acts t)
    (hcommand : ∀ c, a.commandOf c = none) (hargs : ∀ l ∈ eventsOf [a], ∀ c, l.1.appendArgs c = none)
    (hnext : Server.HandsOver (eventsOf (acts ++ [a])) t') : Tallied (acts ++ [a]) t' := by
  have hcommands : ∀ c, commandsOf c (acts ++ [a]) = commandsOf c acts := by
    intro c
    rw [commandsOf_append, commandsOf, commandsOf, List.filterMap_cons, hcommand]
    exact List.append_nil _
  have hevents : eventsOf (acts ++ [a]) = eventsOf acts ++ eventsOf [a] := eventsOf_append acts [a]
  refine ⟨hnext, fun c => ?_, fun c => ?_⟩
  · rw [hcommands, ← h.chunks, hevents]
    cases a with
    | event l => exact Server.chunksOf_append_of_none (hargs l (List.mem_singleton.mpr rfl) c)
    | update u => exact congrArg (Server.chunksOf c) (List.append_nil _)
  · rw [hcommands, ← h.calls, hevents]
    cases a with
    | event l =>
      have hnone := hargs l (List.mem_singleton.mpr rfl) c
      change Server.callsOf c (eventsOf acts ++ [l]) = _
      rw [Server.callsOf_append, hnone]
      exact List.append_nil _
    | update u => exact congrArg (Server.callsOf c) (List.append_nil _)

theorem tallied_command {client code : ℕ} {args : List Text} {rest : Text} {o : Output} {t' : Server D}
    (h : Tallied acts t) (henc : Encodable code args)
    (hnext : Server.HandsOver (eventsOf (acts ++ [.event (.command client code args rest, o)])) t') :
    Tallied (acts ++ [.event (.command client code args rest, o)]) t' := by
  have hget := ipcCmdGet_encode henc []
  rw [List.append_nil] at hget
  have hevents : eventsOf (acts ++ [.event (.command client code args rest, o)]) =
      eventsOf acts ++ [(.command client code args rest, o)] := eventsOf_append acts _
  have hcommands : ∀ c, commandsOf c (acts ++ [Activity.event (.command client code args rest, o)]) =
      commandsOf c acts ++ (if client = c then [(encode code args, o)] else []) := by
    intro c
    rw [commandsOf_append]
    by_cases hc : client = c <;> simp [commandsOf, Activity.commandOf, hc]
  refine ⟨hnext, fun c => ?_, fun c => ?_⟩
  · rw [hevents, hcommands, List.filterMap_append, ← h.chunks, Server.chunksOf_append]
    by_cases hown : client = c ∧ code = ipcCmdqGcodeAppend
    · obtain ⟨rfl, rfl⟩ := hown
      rw [Server.appendArgs_self, Option.bind_some, if_pos rfl, List.filterMap_cons, chunkIn_encode henc,
        if_pos rfl]
      cases Chunk.ofArgs args <;> rfl
    · rw [Server.appendArgs_other hown]
      by_cases hc : client = c
      · rw [if_pos hc, List.filterMap_cons, chunkIn_encode henc, if_neg fun hcode => hown ⟨hc, hcode⟩]
        rfl
      · rw [if_neg hc]
        rfl
  · rw [hevents, hcommands, List.flatMap_append, ← h.calls, Server.callsOf_append]
    refine congrArg (Server.callsOf c (eventsOf acts) ++ ·) ?_
    by_cases hown : client = c ∧ code = ipcCmdqGcodeAppend
    · obtain ⟨rfl, rfl⟩ := hown
      rw [Server.appendArgs_self, if_pos rfl, List.flatMap_singleton, hget, if_pos rfl]
      rfl
    · rw [Server.appendArgs_other hown]
      by_cases hc : client = c
      · rw [if_pos hc, List.flatMap_singleton, hget,
          if_neg fun hcode => hown ⟨hc, Option.some.inj hcode⟩]
        rfl
      · rw [if_neg hc]
        rfl

theorem tallied_step (acts : List (Activity U)) (t : Server D) (a : Activity U) (t' : Server D)
    (h : Tallied acts t) (hstep : a.Step ops files update t t') : Tallied (acts ++ [a]) t' := by
  cases a with
  | update u =>
    obtain ⟨driver, -, rfl⟩ := hstep
    refine tallied_quiet h (fun _ => rfl) (fun l hl => by cases hl) ?_
    rw [eventsOf_append]
    exact (List.append_nil (eventsOf acts)).symm ▸ handsOver_updated h.handsOver driver
  | event l =>
    have hnext : Server.HandsOver (eventsOf (acts ++ [Activity.event (U := U) l])) t' := by
      rw [eventsOf_append]
      exact Server.handsOver_step (eventsOf acts) t l t' h.handsOver hstep
    obtain ⟨e, o⟩ := l
    cases e with
    | command client code args rest => exact tallied_command h hstep.1.2 hnext
    | connect =>
      refine tallied_quiet h (fun _ => rfl) (fun l hl => ?_) hnext
      rw [List.mem_singleton.mp hl]
      exact fun _ => rfl
    | disconnect client =>
      refine tallied_quiet h (fun _ => rfl) (fun l hl => ?_) hnext
      rw [List.mem_singleton.mp hl]
      exact fun _ => rfl

theorem tallied_run (h : Run (Activity.Step ops files update) { driver := driver } acts t) : Tallied acts t :=
  h.invariant_history Tallied tallied_step
    ⟨⟨⟨fun _ _ hc => (by cases hc), fun _ _ => rfl⟩, fun _ => rfl⟩, fun _ => rfl, fun _ => rfl⟩

/-- In a roomy memory, whatever the other clients send, in whatever pieces all the bytes arrive, and
whatever the driver does: the calls that the `gcodeAppend` commands of a client make are fixed by
the bytes that this client has sent. -/
theorem appendCallsOf_eq (hroomy : mem.Roomy) (h : Run (Step mem ops files update) (start driver) ls s)
    (c : ℕ) :
    appendCallsOf c ls = callsForBytes (receivedFrom c ls) := by
  obtain ⟨acts, hserves⟩ := serves_run hroomy h
  have htallied := tallied_run hserves.run
  have hzip : ((commandsOf c acts).map (·.1)).zip ((commandsOf c acts).map (·.2)) = commandsOf c acts := by
    rw [List.zip_map', List.map_id']
  have hcalls := htallied.handsOver.calls c
  rw [htallied.chunks, htallied.calls] at hcalls
  rw [appendCallsOf, callsForBytes, commandsIn_eq (hserves.cuts c), ← hserves.outputs, hzip, hcalls,
    List.filterMap_map]
  rfl

theorem appendCallsOf_eq_twoPieces : ∃ s ls, loopTwoPieces = some (s, ls) ∧
    appendCallsOf 0 ls = callsForBytes (receivedFrom 0 ls) ∧
      callsForBytes (receivedFrom 0 ls) = [.appendGCode (ascii "G1") (-1) (some {})] := by
  have hcomputed : loopTwoPieces.map (fun p => callsForBytes (receivedFrom 0 p.2)) =
      some [.appendGCode (ascii "G1") (-1) (some {})] := by
    decide
  obtain ⟨⟨s, ls⟩, hs, hcalls⟩ := Option.map_eq_some_iff.mp hcomputed
  exact ⟨s, ls, hs,
    appendCallsOf_eq Memory.roomy_desktop (run_loop Memory.roomy_desktop (serves_start _) hs) 0, hcalls⟩

end ServerLoop
end Print3D
