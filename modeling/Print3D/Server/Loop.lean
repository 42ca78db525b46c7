import Print3D.Drivers.SerialLines
import Print3D.Server.Isolation

/-! The loop of `Server::start` on bytes: connections, what the clients send in whatever pieces, and
the updates of the driver. -/
namespace Print3D
open CommandHandler Framing Transition

/-- The server with its `Client` objects: their numbers in the order of `clients_`, and the buffer of each. -/
structure ServerLoop (D : Type) where
  server : Server D
  clients : List ℕ := []
  buffers : ℕ → Text := fun _ => []

/-- What happens to the server between two calls of `select`, one thing at a time. -/
inductive LoopEvent (U : Type)
  | accept
  /-- The turn of a client, what its `read` finds, and where its buffer then lies, by its size. -/
  | turn (client : ℕ) (found : List ReadResult) (home : ℕ → ℕ)
  | update (u : U)

namespace ServerLoop

variable {D U : Type}

section Source

variable (mem : Memory) (ops : DriverOps D) (files : Option Text → Except Text Text)
  (update : U → D → Option D)

/-- The loop of `Client::runCommands`, with the outputs of the commands. -/
def runCommandsWithin (home : ℕ → ℕ) (client : ℕ) :
    ℕ → Text → Server D → Option (List Output × Text × Server D)
  | 0, _, _ => none
  | fuel + 1, buffer, server => do
    let b ← mem.place (home buffer.length) buffer.length
    let n ← b.ipcCmdIsComplete buffer
    if n = 0 then some ([], buffer, server)
    else do
      let (_, server, o) ← (runCommand ops client buffer files).run (server, {})
      let (_, rest) ← b.ipcCmdRemove buffer heap
      let (os, rest, server) ← runCommandsWithin home client fuel rest server
      some (o :: os, rest, server)

/-- A round that goes on shortens the buffer, so that it has fewer commands than bytes. -/
def runCommands (home : ℕ → ℕ) (client : ℕ) (buffer : Text) (server : Server D) :
    Option (List Output × Text × Server D) :=
  runCommandsWithin mem ops files home client (buffer.length + 1) buffer server

def accept (s : ServerLoop D) : ServerLoop D where
  server := s.server.connect
  clients := s.clients ++ [s.server.accepted]
  buffers := Function.update s.buffers s.server.accepted []

/-- The `Client` is deleted. -/
def close (s : ServerLoop D) (client : ℕ) : ServerLoop D :=
  { s with
    server := s.server.disconnect client
    clients := s.clients.erase client }

/-- What follows a read with the return value `rv`. -/
def runCommandsAfter (home : ℕ → ℕ) (rv : ℤ) (client : ℕ) (buffer : Text) (server : Server D) :
    Option (List Output × Text × Server D) :=
  if rv ≥ 0 ∨ (rv = -2 ∧ buffer.length > 0) then runCommands mem ops files home client buffer server
  else some ([], buffer, server)

/-- The part of the loop for one client. The size of a buffer is an `int`. -/
def serve (client : ℕ) (found : List ReadResult) (home : ℕ → ℕ) (s : ServerLoop D) :
    Option (ServerLoop D × List Output) := do
  let (rv, buffer, _) ← Client.readData found (s.buffers client)
  if buffer.length ≥ 2 ^ 31 then none
  else do
    let (os, buffer, server) ← runCommandsAfter mem ops files home rv client buffer s.server
    let s := { s with
      server := server
      buffers := Function.update s.buffers client buffer }
    some (if rv = -2 then s.close client else s, os)

def updateDriver (u : U) (s : ServerLoop D) : Option (ServerLoop D) :=
  (update u s.server.driver).map fun driver => { s with server := { s.server with driver := driver } }

/-- One event, with the outputs of the commands that it runs. -/
def exec (s : ServerLoop D) : LoopEvent U → Option (ServerLoop D × List Output)
  | .accept => some (s.accept, [])
  | .turn client found home => if client ∈ s.clients then serve mem ops files client found home s else none
  | .update u => (updateDriver update u s).map fun s => (s, [])

def Step (s : ServerLoop D) (l : LoopEvent U × List Output) (s' : ServerLoop D) : Prop :=
  exec mem ops files update s l.1 = some (s', l.2)

/-- What an iteration of the loop finds: a connection, what each client has sent and where its buffer then
lies, and the input of the update. -/
structure Iteration (U : Type) where
  accepted : Bool := false
  found : ℕ → List ReadResult
  homes : ℕ → ℕ → ℕ
  update : U

def serveClients (found : ℕ → List ReadResult) (homes : ℕ → ℕ → ℕ) :
    List ℕ → ServerLoop D → Option (ServerLoop D × List (LoopEvent U × List Output))
  | [], s => some (s, [])
  | client :: clients, s => do
    let (s, os) ← serve mem ops files client (found client) (homes client) s
    let (s, trace) ← serveClients found homes clients s
    some (s, (.turn client (found client) (homes client), os) :: trace)

def acceptIf (accepted : Bool) (s : ServerLoop D) : ServerLoop D × List (LoopEvent U × List Output) :=
  if accepted then (s.accept, [(.accept, [])]) else (s, [])

/-- What follows a call of `select`, up to the next one. -/
def iterate (s : ServerLoop D) (it : Iteration U) :
    Option (ServerLoop D × List (LoopEvent U × List Output)) := do
  let (s, accepted) := acceptIf it.accepted s
  let (s, served) ← serveClients mem ops files it.found it.homes s.clients s
  let s ← updateDriver update it.update s
  some (s, accepted ++ served ++ [(.update it.update, [])])

def loop : List (Iteration U) → ServerLoop D → Option (ServerLoop D × List (LoopEvent U × List Output))
  | [], s => some (s, [])
  | it :: its, s => do
    let (s, trace) ← iterate mem ops files update s it
    let (s, rest) ← loop its s
    some (s, trace ++ rest)

/-- The state in front of the loop. -/
def start (driver : D) : ServerLoop D where
  server := { driver := driver }

end Source

variable {mem : Memory} {ops : DriverOps D} {files : Option Text → Except Text Text}
  {update : U → D → Option D} {s s' : ServerLoop D} {server server' : Server D} {client : ℕ}
  {buffer rest : Text} {cmds : List Text} {os : List Output}

/-! ### The commands in a buffer -/

/-- A buffer that an `int` can count is cut into commands as they are sent. -/
theorem exists_cuts (buffer : Text) (hlen : buffer.length < 2 ^ 31) :
    ∃ cmds rest, commandFramer.Cuts buffer cmds rest := by
  induction hn : buffer.length using Nat.strong_induction_on generalizing buffer with
  | _ n ih =>
    by_cases hsize : commandFramer.size buffer = 0
    · exact ⟨[], buffer, .nil hsize⟩
    · obtain ⟨code, args, r, henc, rfl, -⟩ :=
        exists_encode (completeLength_eq buffer) (Nat.pos_of_ne_zero hsize) hlen
      have hshorter : r.length < n := by
        rw [← hn, List.length_append, encode_length]
        omega
      obtain ⟨cmds, rest, h⟩ := ih r.length hshorter r (by omega) rfl
      exact ⟨_, rest, h.cons (Client.WellFormed.isFrame ⟨code, args, henc, rfl⟩)⟩

/-- A command that an `int` can count is one as it is sent. -/
theorem exists_encode_of_isFrame {cmd : Text} (h : commandFramer.IsFrame cmd) (hlen : cmd.length < 2 ^ 31) :
    ∃ code args, Encodable code args ∧ cmd = encode code args := by
  have hcomplete := completeLength_eq cmd
  obtain ⟨code, args, r, henc, hcmd, hn⟩ := exists_encode hcomplete h.1 hlen
  have hr : r = [] := by
    have hcount := congrArg List.length hcmd
    rw [List.length_append, ← hn, h.2] at hcount
    exact List.length_eq_zero_iff.mp (by omega)
  rw [hr, List.append_nil] at hcmd
  exact ⟨code, args, henc, hcmd⟩

/-- The commands at the head of a buffer, each run with the bytes behind it. -/
def execCommands (ops : DriverOps D) (files : Option Text → Except Text Text) (client : ℕ) :
    List Text → Text → Server D → Option (List Output × Server D)
  | [], _, server => some ([], server)
  | cmd :: cmds, rest, server => do
    let (_, server, o) ← (runCommand ops client (cmd ++ (cmds.flatten ++ rest)) files).run (server, {})
    let (os, server) ← execCommands ops files client cmds rest server
    some (o :: os, server)

/-- In a roomy memory the commands of a buffer are run, and the rest is kept. -/
theorem runCommandsWithin_cuts (hroomy : mem.Roomy) (h : commandFramer.Cuts buffer cmds rest) {home : ℕ → ℕ}
    {fuel : ℕ} {rest' : Text}
    (hrun : runCommandsWithin mem ops files home client fuel buffer server = some (os, rest', server')) :
    rest' = rest ∧ execCommands ops files client cmds rest server = some (os, server') := by
  induction cmds generalizing buffer fuel server os with
  | nil =>
    cases fuel with
    | zero => cases hrun
    | succ fuel =>
      obtain rfl : buffer = rest := by simpa using h.text
      obtain ⟨b, hb, hrun⟩ := Option.bind_eq_some_iff.mp hrun
      rw [Memory.isComplete_place hroomy hb, Option.bind_eq_bind, Option.bind_some,
        if_pos (Int.natCast_eq_zero.mpr h.incomplete)] at hrun
      cases hrun
      exact ⟨rfl, rfl⟩
  | cons cmd cmds ih =>
    cases fuel with
    | zero => cases hrun
    | succ fuel =>
      have hcmd := h.frames cmd (List.mem_cons_self ..)
      have htext : buffer = cmd ++ (cmds.flatten ++ rest) := by simpa using h.text
      have hsize : commandFramer.size buffer = cmd.length := by rw [htext, hcmd.size_append]
      have hpos : 0 < cmd.length := hcmd.2 ▸ hcmd.1
      have hrest : commandFramer.Cuts (cmds.flatten ++ rest) cmds rest :=
        ⟨fun f hf => h.frames f (List.mem_cons_of_mem _ hf), rfl, h.incomplete⟩
      obtain ⟨b, hb, hrun⟩ := Option.bind_eq_some_iff.mp hrun
      rw [Memory.isComplete_place hroomy hb, Option.bind_eq_bind, Option.bind_some, if_neg (by omega)] at hrun
      obtain ⟨⟨u, server₁, o⟩, hexec, hrun⟩ := Option.bind_eq_some_iff.mp hrun
      dsimp only at hrun
      have hdrop : buffer.drop cmd.length = cmds.flatten ++ rest := by rw [htext, List.drop_left]
      rw [Memory.remove_place heap_grants hroomy hb (by omega), hsize, hdrop, Option.bind_eq_bind,
        Option.bind_some] at hrun
      obtain ⟨⟨os', rest₁, server₂⟩, hmore, he⟩ := Option.bind_eq_some_iff.mp hrun
      cases he
      obtain ⟨rfl, hcmds⟩ := ih hrest hmore
      refine ⟨rfl, ?_⟩
      rw [execCommands, ← htext, hexec, Option.bind_eq_bind, Option.bind_some]
      dsimp only
      rw [hcmds]
      rfl

/-! ### The run of the server -/

/-- What happens to a server in the loop: its events, with their outputs, and the updates of its driver. -/
inductive Activity (U : Type)
  | event (l : ServerEvent × Output)
  | update (u : U)

def Activity.Step (ops : DriverOps D) (files : Option Text → Except Text Text) (update : U → D → Option D)
    (server : Server D) : Activity U → Server D → Prop
  | .event l, server' => server.Step ops files l server'
  | .update u, server' => ∃ driver, update u server.driver = some driver ∧
      server' = { server with driver := driver }

/-- A command of client `c`, as it is sent, with its output. -/
def Activity.commandOf (c : ℕ) : Activity U → Option (Text × Output)
  | .event (.command client code args _, o) => if client = c then some (encode code args, o) else none
  | _ => none

/-- The commands of a client in a run. -/
def commandsOf (c : ℕ) (acts : List (Activity U)) : List (Text × Output) :=
  acts.filterMap (Activity.commandOf c)

/-- No client comes or goes. -/
structure SameClients (server server' : Server D) : Prop where
  accepted : server'.accepted = server.accepted
  clients : ∀ c, server'.clients c = none ↔ server.clients c = none

theorem SameClients.refl (server : Server D) : SameClients server server := ⟨rfl, fun _ => Iff.rfl⟩

theorem SameClients.trans {server'' : Server D} (h : SameClients server server')
    (h' : SameClients server' server'') : SameClients server server'' :=
  ⟨h'.accepted.trans h.accepted, fun c => (h'.clients c).trans (h.clients c)⟩

theorem sameClients_setTransaction (trx : Transaction) (hclient : server.clients client ≠ none)
    (hclients : server'.clients = server.clients) (haccepted : server'.accepted = server.accepted) :
    SameClients server (server'.setTransaction client trx) := by
  refine ⟨haccepted, fun c => ?_⟩
  change Function.update server'.clients client (some trx) c = none ↔ _
  by_cases hc : c = client
  · subst hc
    rw [Function.update_self]
    exact ⟨fun h => absurd h (Option.some_ne_none trx), fun h => absurd h hclient⟩
  · rw [Function.update_of_ne hc, hclients]

theorem sameClients_frame : Server.Frame (D := D) (fun p q => SameClients p.1 q.1) fun _ => True where
  refl p := .refl p.1
  trans _ _ _ := .trans
  send s _ _ := .refl s
  cancelAll s o exclude := by
    refine ⟨rfl, fun c => ?_⟩
    unfold Server.cancelAllTransactions
    dsimp only
    split_ifs
    · rfl
    · rw [Option.map_eq_none_iff]
  call _ _ _ _ _ := ⟨rfl, fun _ => Iff.rfl⟩

theorem sameClients_command {code : ℕ} {args : List Text} {o : Output} (hclient : server.clients client ≠ none)
    (h : Encodable code args)
    (hexec : server.exec ops files (.command client code args rest) = some (server', o)) :
    SameClients server server' := by
  by_cases hcode : code = ipcCmdqGcodeAppend
  · subst hcode
    obtain ⟨trx, htrx⟩ := Option.ne_none_iff_exists'.mp hclient
    rcases Server.append_cases htrx h hexec with ⟨-, rfl, rfl⟩ |
      ⟨chunk, -, ⟨-, rfl, rfl⟩ | ⟨-, gsr, driver, -, rfl, rfl⟩⟩
    · exact .refl _
    · exact sameClients_setTransaction _ hclient rfl rfl
    · exact sameClients_setTransaction _ hclient rfl rfl
  · exact sameClients_frame.command (fun _ _ => trivial) (fun _ _ => trivial) hcode h hexec

theorem run_execCommands (update : U → D → Option D) (hcmds : ∀ cmd ∈ cmds, commandFramer.IsFrame cmd)
    (hlen : (cmds.flatten ++ rest).length < 2 ^ 31) (hclient : server.clients client ≠ none)
    (h : execCommands ops files client cmds rest server = some (os, server')) :
    SameClients server server' ∧ ∃ acts, Run (Activity.Step ops files update) server acts server' ∧
      os.length = cmds.length ∧ ∀ c, commandsOf c acts = if c = client then cmds.zip os else [] := by
  induction cmds generalizing server os with
  | nil =>
    cases h
    exact ⟨.refl _, [], .nil _, rfl, fun c => by simp [commandsOf]⟩
  | cons cmd cmds ih =>
    obtain ⟨⟨u, server₁, o⟩, hrun, h⟩ := Option.bind_eq_some_iff.mp h
    obtain ⟨⟨os', server₂⟩, hrest, h⟩ := Option.bind_eq_some_iff.mp h
    cases h
    rw [List.flatten_cons, List.append_assoc, List.length_append] at hlen
    obtain ⟨code, args, henc, rfl⟩ :=
      exists_encode_of_isFrame (hcmds cmd (List.mem_cons_self ..)) (by omega)
    have hexec : server.exec ops files (.command client code args (cmds.flatten ++ rest)) =
        some (server₁, o) := congrArg (Option.map Prod.snd) hrun
    have hsame := sameClients_command hclient henc hexec
    obtain ⟨hsame', acts, hacts, hcount, hcommands⟩ :=
      ih (fun c hc => hcmds c (List.mem_cons_of_mem _ hc)) (by omega)
      (fun hnone => hclient ((hsame.clients client).mp hnone)) hrest
    have hstep : Activity.Step ops files update server
        (.event (.command client code args (cmds.flatten ++ rest), o)) server₁ := ⟨⟨hclient, henc⟩, hexec⟩
    refine ⟨hsame.trans hsame', _, .cons hstep hacts, congrArg (· + 1) hcount, fun c => ?_⟩
    unfold commandsOf at hcommands ⊢
    rw [List.filterMap_cons, Activity.commandOf, hcommands]
    by_cases hc : c = client
    · rw [if_pos hc, if_pos hc.symm, if_pos hc]
      rfl
    · rw [if_neg hc, if_neg (Ne.symm hc), if_neg hc]

/-! ### What is received -/

/-- The bytes that a read brings. -/
def delivered (found : List ReadResult) : Text := ((Client.readData found []).map (·.2.1)).getD []

def receivedFrom (c : ℕ) (ls : List (LoopEvent U × List Output)) : Text :=
  ls.flatMap fun
    | (.turn client found _, _) => if client = c then delivered found else []
    | _ => []

def outputsFor (c : ℕ) (ls : List (LoopEvent U × List Output)) : List Output :=
  ls.flatMap fun
    | (.turn client _ _, os) => if client = c then os else []
    | _ => []

theorem readData_found {found more : List ReadResult} {n rv : ℤ} {bytes : Text} (hn : 0 ≤ n)
    (h : readAndAppendAvailableData 0 true found [] n = some (rv, bytes, more)) : rv < 0 → bytes = [] := by
  induction found with
  | nil => cases h
  | cons r found ih =>
    cases r with
    | data more =>
      cases h
      intro hrv
      omega
    | wouldBlock pollin =>
      rw [readAndAppendAvailableData, if_neg (by omega)] at h
      cases h
      exact fun _ => rfl
    | interrupted => exact ih h
    | failed =>
      cases h
      exact fun _ => rfl
    | closed =>
      cases h
      exact fun _ => rfl

/-- A read appends what it brings; one that fails brings nothing. -/
theorem readData_eq {found more : List ReadResult} {rv : ℤ} {buffer' : Text}
    (h : Client.readData found buffer = some (rv, buffer', more)) :
    buffer' = buffer ++ delivered found ∧ (rv < 0 → delivered found = []) := by
  have happend := Serial.readAndAppend_append 0 true found buffer [] 0
  rw [List.append_nil] at happend
  rw [Client.readData, happend] at h
  obtain ⟨⟨rv', bytes, more'⟩, hread, he⟩ := Option.map_eq_some_iff.mp h
  have hbytes : delivered found = bytes := by
    rw [delivered, Client.readData, hread]
    rfl
  cases he
  rw [hbytes]
  exact ⟨rfl, readData_found le_rfl hread⟩

/-! ### Runs -/

section Runs

variable {driver : D} {ls : List (LoopEvent U × List Output)} {l : LoopEvent U × List Output}
  {acts : List (Activity U)}

/-- The loop after `ls` is the server after `acts`: of what each client has sent, its commands have been
run, and the start of the next one is in its buffer. -/
structure Serves (ops : DriverOps D) (files : Option Text → Except Text Text) (update : U → D → Option D)
    (driver : D) (ls : List (LoopEvent U × List Output)) (s : ServerLoop D) (acts : List (Activity U)) :
    Prop where
  run : Run (Activity.Step ops files update) { driver := driver } acts s.server
  cuts : ∀ c, commandFramer.Cuts (receivedFrom c ls) ((commandsOf c acts).map (·.1)) (s.buffers c)
  outputs : ∀ c, (commandsOf c acts).map (·.2) = outputsFor c ls
  clients : ∀ c, c ∈ s.clients ↔ s.server.clients c ≠ none
  nodup : s.clients.Nodup
  fresh : ∀ c, s.server.accepted ≤ c → s.server.clients c = none ∧ receivedFrom c ls = []

theorem receivedFrom_append (c : ℕ) (ls ms : List (LoopEvent U × List Output)) :
    receivedFrom c (ls ++ ms) = receivedFrom c ls ++ receivedFrom c ms := List.flatMap_append

theorem outputsFor_append (c : ℕ) (ls ms : List (LoopEvent U × List Output)) :
    outputsFor c (ls ++ ms) = outputsFor c ls ++ outputsFor c ms := List.flatMap_append

theorem commandsOf_append (c : ℕ) (acts acts' : List (Activity U)) :
    commandsOf c (acts ++ acts') = commandsOf c acts ++ commandsOf c acts' := List.filterMap_append

theorem serves_start (driver : D) : Serves ops files update driver [] (start driver) [] where
  run := .nil _
  cuts _ := .nil (show commandFramer.size [] = 0 by decide)
  outputs _ := rfl
  clients c := by simp [start]
  nodup := List.nodup_nil
  fresh _ _ := ⟨rfl, rfl⟩

theorem Serves.accepted (h : Serves ops files update driver ls s acts) :
    Serves ops files update driver (ls ++ [(.accept, [])]) s.accept (acts ++ [.event (.connect, {})]) := by
  have hnew := h.fresh s.server.accepted le_rfl
  have hbuffer : s.buffers s.server.accepted = [] := by
    have htext := (h.cuts s.server.accepted).text
    rw [hnew.2] at htext
    exact (List.append_eq_nil_iff.mp htext.symm).2
  constructor
  · exact h.run.append (.cons ⟨trivial, rfl⟩ (.nil _))
  · intro c
    rw [receivedFrom_append, commandsOf_append]
    change commandFramer.Cuts (receivedFrom c ls ++ []) _ (Function.update s.buffers s.server.accepted [] c)
    rw [List.append_nil, ← hbuffer, Function.update_eq_self]
    change commandFramer.Cuts _ ((commandsOf c acts ++ []).map _) _
    rw [List.append_nil]
    exact h.cuts c
  · intro c
    rw [outputsFor_append, commandsOf_append, List.map_append, h.outputs]
    rfl
  · intro c
    change c ∈ s.clients ++ [s.server.accepted] ↔
      Function.update s.server.clients s.server.accepted (some {}) c ≠ none
    rw [List.mem_append, List.mem_singleton, h.clients]
    by_cases hc : c = s.server.accepted
    · subst hc
      rw [Function.update_self]
      simp
    · rw [Function.update_of_ne hc]
      simp [hc]
  · refine List.nodup_append.mpr ⟨h.nodup, List.nodup_singleton _, ?_⟩
    rintro c hc c' hc' rfl
    rw [List.mem_singleton.mp hc'] at hc
    exact (h.clients _).mp hc hnew.1
  · intro c hc
    change s.server.accepted + 1 ≤ c at hc
    have hold := h.fresh c (by omega)
    refine ⟨?_, ?_⟩
    · change Function.update s.server.clients s.server.accepted (some {}) c = none
      rw [Function.update_of_ne (by omega)]
      exact hold.1
    · rw [receivedFrom_append, hold.2]
      rfl

theorem Serves.updated {u : U} (h : Serves ops files update driver ls s acts)
    (hupdate : updateDriver update u s = some s') :
    Serves ops files update driver (ls ++ [(.update u, [])]) s' (acts ++ [.update u]) := by
  obtain ⟨driver', hdriver, rfl⟩ := Option.map_eq_some_iff.mp hupdate
  constructor
  · exact h.run.append (.cons ⟨driver', hdriver, rfl⟩ (.nil _))
  · intro c
    rw [receivedFrom_append, commandsOf_append]
    change commandFramer.Cuts (receivedFrom c ls ++ []) ((commandsOf c acts ++ []).map _) _
    rw [List.append_nil, List.append_nil]
    exact h.cuts c
  · intro c
    rw [outputsFor_append, commandsOf_append, List.map_append, h.outputs]
    rfl
  · exact h.clients
  · exact h.nodup
  · intro c hc
    refine ⟨(h.fresh c hc).1, ?_⟩
    rw [receivedFrom_append, (h.fresh c hc).2]
    rfl

/-- What a client has after its commands have been run. -/
def served (s : ServerLoop D) (client : ℕ) (rest : Text) (server : Server D) : ServerLoop D :=
  { s with
    server := server
    buffers := Function.update s.buffers client rest }

theorem serve_eq (hroomy : mem.Roomy) {found : List ReadResult} {home : ℕ → ℕ}
    (hbuffer : commandFramer.size (s.buffers client) = 0)
    (h : serve mem ops files client found home s = some (s', os)) :
    ∃ cmds rest server, commandFramer.Cuts (s.buffers client ++ delivered found) cmds rest ∧
      (s.buffers client ++ delivered found).length < 2 ^ 31 ∧
      execCommands ops files client cmds rest s.server = some (os, server) ∧
      (s' = s.served client rest server ∨ s' = (s.served client rest server).close client) := by
  obtain ⟨⟨rv, buffer, more⟩, hread, h⟩ := Option.bind_eq_some_iff.mp h
  obtain ⟨rfl, hfailed⟩ := readData_eq hread
  dsimp only at h
  by_cases hlen : (s.buffers client ++ delivered found).length ≥ 2 ^ 31
  · rw [if_pos hlen] at h
    cases h
  rw [if_neg hlen] at h
  by_cases hruns : rv ≥ 0 ∨ (rv = -2 ∧ (s.buffers client ++ delivered found).length > 0)
  · obtain ⟨cmds, rest, hcuts⟩ := exists_cuts _ (not_le.mp hlen)
    obtain ⟨⟨os', rest', server'⟩, hrun, h⟩ := Option.bind_eq_some_iff.mp h
    rw [runCommandsAfter, if_pos hruns, runCommands] at hrun
    obtain ⟨rfl, hexec⟩ := runCommandsWithin_cuts hroomy hcuts hrun
    cases h
    refine ⟨cmds, rest', server', hcuts, not_le.mp hlen, hexec, ?_⟩
    split_ifs
    · exact .inr rfl
    · exact .inl rfl
  · -- a read that fails brings nothing, and no command was complete before it
    have hnothing : delivered found = [] := hfailed (by omega)
    rw [runCommandsAfter, if_neg hruns, hnothing, List.append_nil] at h
    rw [hnothing, List.append_nil] at hlen ⊢
    cases h
    refine ⟨[], s.buffers client, s.server, .nil hbuffer, not_le.mp hlen, rfl, ?_⟩
    split_ifs
    · exact .inr rfl
    · exact .inl rfl

theorem Serves.ran {found : List ReadResult} (home : ℕ → ℕ) (h : Serves ops files update driver ls s acts)
    (hclient : client ∈ s.clients) (hcuts : commandFramer.Cuts (s.buffers client ++ delivered found) cmds rest)
    (hlen : (s.buffers client ++ delivered found).length < 2 ^ 31)
    (hexec : execCommands ops files client cmds rest s.server = some (os, server)) :
    ∃ acts', Serves ops files update driver (ls ++ [(.turn client found home, os)])
      (s.served client rest server)
      acts' := by
  rw [hcuts.text] at hlen
  obtain ⟨hsame, acts', hrun, hcount, hcommands⟩ := run_execCommands update hcuts.frames hlen
    ((h.clients client).mp hclient) hexec
  have hreceived : ∀ c, receivedFrom c [((LoopEvent.turn client found home : LoopEvent U), os)] =
      if client = c then delivered found else [] := fun c => List.append_nil _
  have houtputs : ∀ c, outputsFor c [((LoopEvent.turn client found home : LoopEvent U), os)] =
      if client = c then os else [] := fun c => List.append_nil _
  refine ⟨acts ++ acts', h.run.append hrun, fun c => ?_, fun c => ?_, fun c => ?_, h.nodup, fun c hc => ?_⟩
  · rw [receivedFrom_append, hreceived, commandsOf_append, hcommands, List.map_append]
    change commandFramer.Cuts _ _ (Function.update s.buffers client rest c)
    by_cases hc : c = client
    · subst hc
      rw [if_pos rfl, if_pos rfl, Function.update_self, List.map_fst_zip hcount.ge]
      exact (h.cuts c).append hcuts
    · rw [if_neg (Ne.symm hc), if_neg hc, Function.update_of_ne hc, List.append_nil, List.map_nil,
        List.append_nil]
      exact h.cuts c
  · rw [outputsFor_append, houtputs, commandsOf_append, hcommands, List.map_append, h.outputs]
    by_cases hc : c = client
    · rw [if_pos hc.symm, if_pos hc, List.map_snd_zip hcount.le]
    · rw [if_neg (Ne.symm hc), if_neg hc]
      rfl
  · rw [served, ne_eq, hsame.clients]
    exact h.clients c
  · have hold := h.fresh c (hsame.accepted ▸ hc)
    refine ⟨(hsame.clients c).mpr hold.1, ?_⟩
    rw [receivedFrom_append, hold.2, hreceived, if_neg]
    · rfl
    · rintro rfl
      exact (h.clients client).mp hclient hold.1

theorem Serves.closed (h : Serves ops files update driver ls s acts) (hclient : client ∈ s.clients) :
    Serves ops files update driver ls (s.close client) (acts ++ [.event (.disconnect client, {})]) := by
  have hcommands : ∀ c, commandsOf c (acts ++ [.event (.disconnect client, {})]) = commandsOf c acts :=
    fun c => (commandsOf_append c acts _).trans (List.append_nil _)
  constructor
  · exact h.run.append (.cons ⟨(h.clients client).mp hclient, rfl⟩ (.nil _))
  · intro c
    rw [hcommands]
    exact h.cuts c
  · intro c
    rw [hcommands]
    exact h.outputs c
  · intro c
    change c ∈ s.clients.erase client ↔ Function.update s.server.clients client none c ≠ none
    rw [h.nodup.mem_erase_iff, h.clients]
    by_cases hc : c = client
    · subst hc
      rw [Function.update_self]
      simp
    · rw [Function.update_of_ne hc]
      simp [hc]
  · exact h.nodup.erase client
  · intro c hc
    refine ⟨?_, (h.fresh c hc).2⟩
    change Function.update s.server.clients client none c = none
    by_cases hcl : c = client
    · rw [hcl, Function.update_self]
    · rw [Function.update_of_ne hcl]
      exact (h.fresh c hc).1

theorem serves_step (hroomy : mem.Roomy) (ls : List (LoopEvent U × List Output)) (s : ServerLoop D)
    (l : LoopEvent U × List Output) (s' : ServerLoop D) (h : ∃ acts, Serves ops files update driver ls s acts)
    (hstep : Step mem ops files update s l s') :
    ∃ acts, Serves ops files update driver (ls ++ [l]) s' acts := by
  obtain ⟨acts, h⟩ := h
  obtain ⟨e, os⟩ := l
  cases e with
  | accept =>
    cases hstep
    exact ⟨_, h.accepted⟩
  | turn client found home =>
    change (if client ∈ s.clients then serve mem ops files client found home s else none) =
      some (s', os) at hstep
    split_ifs at hstep with hclient
    obtain ⟨cmds, rest, server, hcuts, hlen, hexec, rfl | rfl⟩ :=
      serve_eq hroomy (h.cuts client).incomplete hstep
    · exact h.ran home hclient hcuts hlen hexec
    · obtain ⟨acts', h'⟩ := h.ran home hclient hcuts hlen hexec
      exact ⟨_, h'.closed hclient⟩
  | update u =>
    obtain ⟨s₁, hupdate, he⟩ := Option.map_eq_some_iff.mp hstep
    cases he
    exact ⟨_, h.updated hupdate⟩

theorem serves_run (hroomy : mem.Roomy) (h : Run (Step mem ops files update) (start driver) ls s) :
    ∃ acts, Serves ops files update driver ls s acts :=
  h.invariant_history (fun ls s => ∃ acts, Serves ops files update driver ls s acts) (serves_step hroomy)
    ⟨[], serves_start driver⟩

/-! ### The iterations of the loop -/

theorem mem_clients_serve {found : List ReadResult} {home : ℕ → ℕ}
    (h : serve mem ops files client found home s = some (s', os)) {c : ℕ} (hc : c ∈ s.clients)
    (hne : c ≠ client) : c ∈ s'.clients := by
  obtain ⟨⟨rv, buffer, more⟩, -, h⟩ := Option.bind_eq_some_iff.mp h
  dsimp only at h
  by_cases hlen : buffer.length ≥ 2 ^ 31
  · rw [if_pos hlen] at h
    cases h
  · rw [if_neg hlen] at h
    obtain ⟨⟨os', buffer', server'⟩, -, h⟩ := Option.bind_eq_some_iff.mp h
    cases h
    split_ifs
    · exact (List.mem_erase_of_ne hne).mpr hc
    · exact hc

theorem run_serveClients (update : U → D → Option D) {found : ℕ → List ReadResult} {homes : ℕ → ℕ → ℕ}
    {clients : List ℕ}
    (hclients : ∀ c ∈ clients, c ∈ s.clients) (hnodup : clients.Nodup)
    (h : serveClients mem ops files found homes clients s = some (s', ls)) :
    Run (Step mem ops files update) s ls s' := by
  induction clients generalizing s ls with
  | nil =>
    cases h
    exact .nil _
  | cons client clients ih =>
    obtain ⟨⟨s₁, os⟩, hserve, h⟩ := Option.bind_eq_some_iff.mp h
    obtain ⟨⟨s₂, trace⟩, hrest, h⟩ := Option.bind_eq_some_iff.mp h
    cases h
    have hclient := hclients client (List.mem_cons_self ..)
    obtain ⟨hfirst, hnodup⟩ := List.nodup_cons.mp hnodup
    have hstep : Step mem ops files update s (.turn client (found client) (homes client), os) s₁ :=
      (if_pos hclient).trans hserve
    refine .cons hstep (ih (fun c hc => ?_) hnodup hrest)
    refine mem_clients_serve hserve (hclients c (List.mem_cons_of_mem _ hc)) ?_
    rintro rfl
    exact hfirst hc

theorem run_acceptIf (update : U → D → Option D) (accepted : Bool) (s : ServerLoop D) :
    Run (Step mem ops files update) s (acceptIf (U := U) accepted s).2 (acceptIf (U := U) accepted s).1 := by
  cases accepted with
  | true => exact .cons rfl (.nil _)
  | false => exact .nil _

theorem run_iterate {it : Iteration U} (hnodup : (acceptIf (U := U) it.accepted s).1.clients.Nodup)
    (h : iterate mem ops files update s it = some (s', ls)) : Run (Step mem ops files update) s ls s' := by
  obtain ⟨⟨s₁, served⟩, hserved, h⟩ := Option.bind_eq_some_iff.mp h
  obtain ⟨s₂, hupdate, h⟩ := Option.bind_eq_some_iff.mp h
  cases h
  have hturns := run_serveClients update (fun _ hc => hc) hnodup hserved
  have hstep : Step mem ops files update s₁ (.update it.update, []) s' := by
    change Option.map _ _ = _
    rw [hupdate]
    rfl
  exact ((run_acceptIf update it.accepted s).append hturns).append (.cons hstep (.nil _))

theorem run_loop (hroomy : mem.Roomy) {before : List (LoopEvent U × List Output)} {its : List (Iteration U)}
    (hbefore : Serves ops files update driver before s acts)
    (h : loop mem ops files update its s = some (s', ls)) : Run (Step mem ops files update) s ls s' := by
  induction its generalizing s ls before acts with
  | nil =>
    cases h
    exact .nil _
  | cons it its ih =>
    obtain ⟨⟨s₁, trace⟩, hit, h⟩ := Option.bind_eq_some_iff.mp h
    obtain ⟨⟨s₂, more⟩, hrest, h⟩ := Option.bind_eq_some_iff.mp h
    cases h
    have hnodup : (acceptIf (U := U) it.accepted s).1.clients.Nodup := by
      cases it.accepted with
      | true => exact hbefore.accepted.nodup
      | false => exact hbefore.nodup
    have hrun := run_iterate hnodup hit
    obtain ⟨acts', hnext⟩ := hrun.invariant_history
      (fun ls s => ∃ acts, Serves ops files update driver (before ++ ls) s acts)
      (fun ls s l s' hs hstep => by
        rw [← List.append_assoc]
        exact serves_step hroomy (before ++ ls) s l s' hs hstep)
      ⟨acts, by rwa [List.append_nil]⟩
    exact hrun.append (ih hnext hrest)

/-- In a roomy memory the loop is a run of single events, and in every such run: of the bytes that a
client has sent, in whatever pieces and between whatever others, all complete commands have been
run, in order and once each, the rest is in its buffer, and its outputs are those of these commands;
and the server has made a run in which each of these commands is an event. -/
theorem loop_serves (hroomy : mem.Roomy) (driver : D) :
    (∀ its s ls, loop mem ops files update its (start driver) = some (s, ls) →
      Run (Step mem ops files update) (start driver) ls s) ∧
    ∀ ls s, Run (Step mem ops files update) (start driver) ls s →
      ∃ acts, Run (Activity.Step ops files update) { driver := driver } acts s.server ∧
        ∀ c, commandFramer.Cuts (receivedFrom c ls) ((commandsOf c acts).map (·.1)) (s.buffers c) ∧
          (commandsOf c acts).map (·.2) = outputsFor c ls := by
  refine ⟨fun its s ls h => run_loop hroomy (serves_start driver) h, fun ls s h => ?_⟩
  obtain ⟨acts, hserves⟩ := serves_run hroomy h
  exact ⟨acts, hserves.run, fun c => ⟨hserves.cuts c, hserves.outputs c⟩⟩

/-- A client whose command arrives in two pieces. -/
def twoPieces : List (Iteration Unit) := [
  { accepted := true
    found := fun _ => [.data ((encode ipcCmdqGcodeAppend [ascii "G1"]).take 5)]
    homes := fun _ _ => 0x10000
    update := () },
  { found := fun _ => [.data ((encode ipcCmdqGcodeAppend [ascii "G1"]).drop 5)]
    homes := fun _ _ => 0x20000
    update := () }]

/-- The loop with a Marlin driver that is not updated. -/
def loopTwoPieces : Option (ServerLoop MarlinDriver × List (LoopEvent Unit × List Output)) :=
  loop .desktop (MarlinDriver.ops fun _ => 0) (fun _ => .error []) (fun _ d => some d) twoPieces
    (start { state := .idle, isConnected := true, checkConnection := false })

theorem loop_serves_twoPieces : ∃ s ls, loopTwoPieces = some (s, ls) ∧
    ∃ acts, Run (Activity.Step (MarlinDriver.ops fun _ => 0) (fun _ => .error []) fun (_ : Unit) d => some d)
        { driver := { state := .idle, isConnected := true, checkConnection := false } } acts s.server ∧
      commandFramer.Cuts (receivedFrom 0 ls) ((commandsOf 0 acts).map (·.1)) (s.buffers 0) ∧
      receivedFrom 0 ls = encode ipcCmdqGcodeAppend [ascii "G1"] := by
  have hcomputed : loopTwoPieces.map (fun p => receivedFrom 0 p.2) =
      some (encode ipcCmdqGcodeAppend [ascii "G1"]) := by
    decide
  obtain ⟨⟨s, ls⟩, hs, hreceived⟩ := Option.map_eq_some_iff.mp hcomputed
  have hserves := @loop_serves _ Unit .desktop (MarlinDriver.ops fun _ => 0) (fun _ => .error [])
    (fun _ d => some d) Memory.roomy_desktop { state := .idle, isConnected := true, checkConnection := false }
  obtain ⟨acts, hrun, hcuts⟩ := hserves.2 ls s (hserves.1 twoPieces s ls hs)
  exact ⟨s, ls, hs, acts, hrun, (hcuts 0).1, hreceived⟩

end Runs

end ServerLoop
end Print3D
