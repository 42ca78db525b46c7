import Print3D.Server.Frame
import Print3D.Library.Segments

/-! The transactions of the clients do not mix: what a client hands to the driver is made of its
own chunks, in whatever order the commands of the clients arrive. -/
namespace Print3D
open CommandHandler Segments

def ServerEvent.appendArgs (c : ℕ) : ServerEvent → Option (List Text)
  | .command client code args _ => if client = c ∧ code = ipcCmdqGcodeAppend then some args else none
  | _ => none

def ServerEvent.AppendsFile : ServerEvent → Prop
  | .command _ code _ _ => code = ipcCmdqGcodeAppendFile
  | _ => False

def Output.appendCalls (o : Output) : List DriverCall := o.calls.filter (·.isAppend)

namespace Server

variable {D : Type} {ops : DriverOps D} {files : Option Text → Except Text Text}
  {s s' : Server D} {o : Output} {client code c : ℕ} {args : List Text} {rest : Text}
  {ls : List (ServerEvent × Output)} {l : ServerEvent × Output}

def commandsOf (c : ℕ) (ls : List (ServerEvent × Output)) : List (List Text) :=
  ls.filterMap fun l => l.1.appendArgs c

/-- The chunks that these commands carry; one without arguments has none. -/
def chunksOf (c : ℕ) (ls : List (ServerEvent × Output)) : List Chunk := (commandsOf c ls).filterMap Chunk.ofArgs

/-- The `appendGCode` calls that these commands make. -/
def callsOf (c : ℕ) (ls : List (ServerEvent × Output)) : List DriverCall :=
  ls.flatMap fun l => if (l.1.appendArgs c).isSome then l.2.appendCalls else []

/-- The text of the transfer that the last chunk of a client belongs to: it starts with the
latest chunk that is a first one or comes after a last one. -/
def transferText (chunks : List Chunk) : Text := (segment Chunk.first Chunk.last chunks).flatMap (·.data)

/-- The call for a chunk that comes after `chunks`. -/
def handedOver (chunks : List Chunk) (chunk : Chunk) : List DriverCall :=
  if chunk.last then
    [.appendGCode (transferText (chunks ++ [chunk])) chunk.totalLines (some chunk.metaData)]
  else []

/-- The calls for all chunks of a client. -/
def callsFor (chunks : List Chunk) : List DriverCall :=
  (List.range chunks.length).flatMap fun k => chunks[k]?.elim [] (handedOver (chunks.take k))

/-- The calls for an event after the run `before`. -/
def expectedCalls (before : List (ServerEvent × Output)) : ServerEvent → List DriverCall
  | .command client code args _ =>
    if code = ipcCmdqGcodeAppend then (Chunk.ofArgs args).elim [] (handedOver (chunksOf client before)) else []
  | _ => []

/-! ### Histories -/

theorem appendArgs_self : (ServerEvent.command c ipcCmdqGcodeAppend args rest).appendArgs c = some args :=
  if_pos ⟨rfl, rfl⟩

theorem appendArgs_other (h : ¬ (client = c ∧ code = ipcCmdqGcodeAppend)) :
    (ServerEvent.command client code args rest).appendArgs c = none := if_neg h

theorem chunksOf_append : chunksOf c (ls ++ [l]) =
    chunksOf c ls ++ ((l.1.appendArgs c).bind Chunk.ofArgs).toList := by
  unfold chunksOf commandsOf
  rw [List.filterMap_append, List.filterMap_append]
  cases h : l.1.appendArgs c with
  | none => simp [h]
  | some args => cases hargs : Chunk.ofArgs args <;> simp [h, hargs]

theorem chunksOf_append_of_none (h : l.1.appendArgs c = none) : chunksOf c (ls ++ [l]) = chunksOf c ls := by
  rw [chunksOf_append, h]
  exact List.append_nil _

theorem callsOf_append : callsOf c (ls ++ [l]) =
    callsOf c ls ++ if (l.1.appendArgs c).isSome then l.2.appendCalls else [] := by
  unfold callsOf
  rw [List.flatMap_append, List.flatMap_singleton]

theorem callsFor_append (chunks : List Chunk) (chunk : Chunk) :
    callsFor (chunks ++ [chunk]) = callsFor chunks ++ handedOver chunks chunk := by
  unfold callsFor
  rw [List.length_append, List.length_singleton, List.range_succ, List.flatMap_append, List.flatMap_singleton,
    List.getElem?_concat_length, List.take_left]
  refine congrArg (· ++ handedOver chunks chunk) (List.flatMap_congr fun k hk => ?_)
  have hk := List.mem_range.mp hk
  rw [List.getElem?_append_left hk, List.take_append_of_le_length hk.le]

/-! ### The buffers of the transactions -/

/-- The buffer of every client is what its own chunks have left in it. -/
structure Buffered (ls : List (ServerEvent × Output)) (s : Server D) : Prop where
  buffer : ∀ c trx, s.clients c = some trx →
    c < s.accepted ∧ trx.buffer = (pending Chunk.first Chunk.last (chunksOf c ls)).flatMap (·.data)
  fresh : ∀ c, s.accepted ≤ c → chunksOf c ls = []

theorem addChunk_buffer (trx : Transaction) (chunk : Chunk) :
    (addChunk trx chunk).buffer = (if chunk.first then [] else trx.buffer) ++ chunk.data := by
  unfold addChunk
  dsimp only
  split_ifs <;> rfl

theorem addChunk_transferText {trx : Transaction} {chunks : List Chunk} (chunk : Chunk)
    (h : trx.buffer = (pending Chunk.first Chunk.last chunks).flatMap (·.data)) :
    (addChunk trx chunk).buffer = transferText (chunks ++ [chunk]) := by
  rw [addChunk_buffer, transferText, segment_append, List.flatMap_append, List.flatMap_singleton, h]
  split_ifs <;> rfl

def SameBuffers (p q : Server D × Output) : Prop :=
  q.1.accepted = p.1.accepted ∧
    ∀ c, (q.1.clients c).map Transaction.buffer = (p.1.clients c).map Transaction.buffer

theorem sameBuffers_frame : Frame (D := D) SameBuffers fun _ => True where
  refl _ := ⟨rfl, fun _ => rfl⟩
  trans _ _ _ h h' := ⟨h'.1.trans h.1, fun c => (h'.2 c).trans (h.2 c)⟩
  send _ _ _ := ⟨rfl, fun _ => rfl⟩
  cancelAll s o exclude := by
    refine ⟨rfl, fun c => ?_⟩
    unfold cancelAllTransactions
    dsimp only
    split_ifs
    · rfl
    · rw [Option.map_map]
      rfl
  call _ _ _ _ _ := ⟨rfl, fun _ => rfl⟩

theorem Buffered.of_sameBuffers (h : Buffered ls s) (hs : SameBuffers (s, {}) (s', o))
    (hl : ∀ c, chunksOf c (ls ++ [l]) = chunksOf c ls) : Buffered (ls ++ [l]) s' := by
  constructor
  · intro c trx' htrx'
    have hmap := hs.2 c
    rw [htrx', Option.map_some, eq_comm, Option.map_eq_some_iff] at hmap
    obtain ⟨trx, htrx, hbuffer⟩ := hmap
    obtain ⟨hlt, hpending⟩ := h.buffer c trx htrx
    rw [hl, ← hbuffer]
    exact ⟨hlt.trans_eq hs.1.symm, hpending⟩
  · intro c hc
    rw [hl]
    exact h.fresh c (hs.1 ▸ hc)

theorem Buffered.setTransaction {trx trx' : Transaction} {chunk : Chunk} (h : Buffered ls s)
    (htrx : s.clients client = some trx) (hchunk : Chunk.ofArgs args = some chunk)
    (hbuffer : trx'.buffer = if chunk.last then [] else transferText (chunksOf client ls ++ [chunk]))
    (hs : s'.clients = s.clients) (ha : s'.accepted = s.accepted) :
    Buffered (ls ++ [(.command client ipcCmdqGcodeAppend args rest, o)]) (s'.setTransaction client trx') := by
  have hlt := (h.buffer client trx htrx).1
  constructor
  · intro c trx'' hc
    change Function.update s'.clients client (some trx') c = some trx'' at hc
    change c < s'.accepted ∧ _
    rw [chunksOf_append]
    by_cases hcl : c = client
    · subst hcl
      rw [Function.update_self, Option.some.injEq] at hc
      subst hc
      refine ⟨hlt.trans_eq ha.symm, ?_⟩
      rw [appendArgs_self, Option.bind_some, hchunk, Option.toList_some, pending_append, hbuffer]
      split_ifs <;> rfl
    · rw [Function.update_of_ne hcl, hs] at hc
      rw [appendArgs_other fun hand => hcl hand.1.symm, Option.bind_none, Option.toList_none,
        List.append_nil, ha]
      exact h.buffer c trx'' hc
  · intro c hc
    change s'.accepted ≤ c at hc
    rw [chunksOf_append_of_none (appendArgs_other fun hand => by omega)]
    exact h.fresh c (ha ▸ hc)

theorem Buffered.connect (h : Buffered ls s) : Buffered (ls ++ [(.connect, o)]) s.connect := by
  constructor
  · intro c trx hc
    change Function.update s.clients s.accepted (some {}) c = some trx at hc
    change c < s.accepted + 1 ∧ _
    rw [chunksOf_append_of_none rfl]
    by_cases hca : c = s.accepted
    · rw [hca, Function.update_self, Option.some.injEq] at hc
      subst hc
      rw [h.fresh c hca.ge]
      exact ⟨by omega, rfl⟩
    · rw [Function.update_of_ne hca] at hc
      obtain ⟨hlt, hbuffer⟩ := h.buffer c trx hc
      exact ⟨Nat.lt_succ_of_lt hlt, hbuffer⟩
  · intro c hc
    change s.accepted + 1 ≤ c at hc
    rw [chunksOf_append_of_none rfl]
    exact h.fresh c (by omega)

theorem Buffered.disconnect (h : Buffered ls s) (client : ℕ) :
    Buffered (ls ++ [(.disconnect client, o)]) (s.disconnect client) := by
  constructor
  · intro c trx hc
    change Function.update s.clients client none c = some trx at hc
    rw [chunksOf_append_of_none rfl]
    by_cases hca : c = client
    · rw [hca, Function.update_self] at hc
      cases hc
    · rw [Function.update_of_ne hca] at hc
      exact h.buffer c trx hc
  · intro c hc
    rw [chunksOf_append_of_none rfl]
    exact h.fresh c hc

theorem buffered_step (ls : List (ServerEvent × Output)) (s : Server D) (l : ServerEvent × Output)
    (s' : Server D) (h : Buffered ls s) (hstep : s.Step ops files l s') : Buffered (ls ++ [l]) s' := by
  obtain ⟨e, o⟩ := l
  obtain ⟨hvalid, hexec⟩ := hstep
  cases e with
  | connect =>
    cases hexec
    exact h.connect
  | disconnect client =>
    cases hexec
    exact h.disconnect client
  | command client code args rest =>
    by_cases hcode : code = ipcCmdqGcodeAppend
    · subst hcode
      obtain ⟨trx, htrx⟩ := Option.ne_none_iff_exists'.mp hvalid.1
      rcases append_cases htrx hvalid.2 hexec with
        ⟨rfl, rfl, rfl⟩ | ⟨chunk, hchunk, ⟨hlast, rfl, rfl⟩ | ⟨hlast, gsr, driver, -, rfl, rfl⟩⟩
      · -- without an argument there is no chunk
        refine h.of_sameBuffers ⟨rfl, fun _ => rfl⟩ fun c => ?_
        rw [chunksOf_append]
        by_cases hc : client = c
        · rw [hc, appendArgs_self]
          exact List.append_nil _
        · rw [appendArgs_other fun hand => hc hand.1]
          exact List.append_nil _
      · refine h.setTransaction htrx hchunk ?_ rfl rfl
        rw [addChunk_transferText chunk (h.buffer client trx htrx).2, if_neg (by simp [hlast])]
      · exact h.setTransaction htrx hchunk (if_pos hlast).symm rfl rfl
    · have hsame := sameBuffers_frame.command (fun _ _ => trivial) (fun _ _ => trivial) hcode hvalid.2 hexec
      refine h.of_sameBuffers hsame fun c => chunksOf_append_of_none ?_
      exact appendArgs_other fun hand => hcode hand.2

/-! ### The calls -/

theorem appendCalls_frame : Frame (D := D) (fun p q => q.2.appendCalls = p.2.appendCalls)
    fun call => call.isAppend = false where
  refl _ := rfl
  trans _ _ _ h h' := h'.trans h
  send _ _ _ := rfl
  cancelAll _ _ _ := rfl
  call s o driver call hcall := by
    unfold Output.appendCalls
    rw [List.filter_append, List.filter_singleton, hcall]
    exact List.append_nil _

/-- Only a last chunk, or a file, is handed to the driver. -/
theorem Buffered.appendCalls (h : Buffered ls s) (hstep : s.Step ops files l s') (hfile : ¬ l.1.AppendsFile) :
    l.2.appendCalls = expectedCalls ls l.1 := by
  obtain ⟨e, o⟩ := l
  obtain ⟨hvalid, hexec⟩ := hstep
  cases e with
  | connect =>
    cases hexec
    rfl
  | disconnect client =>
    cases hexec
    rfl
  | command client code args rest =>
    unfold expectedCalls
    dsimp only
    split_ifs with hcode
    · subst hcode
      obtain ⟨trx, htrx⟩ := Option.ne_none_iff_exists'.mp hvalid.1
      rcases append_cases htrx hvalid.2 hexec with
        ⟨rfl, rfl, rfl⟩ | ⟨chunk, hchunk, ⟨hlast, rfl, rfl⟩ | ⟨hlast, gsr, driver, -, rfl, rfl⟩⟩
      · rfl
      · rw [hchunk, Option.elim_some, handedOver, if_neg (by simp [hlast])]
        rfl
      · rw [hchunk, Option.elim_some, handedOver, if_pos hlast,
          ← addChunk_transferText chunk (h.buffer client trx htrx).2]
        rfl
    · exact appendCalls_frame.command (fun _ hother => hother) (fun hcf =>
        absurd hcf hfile) hcode hvalid.2 hexec

theorem appendArgs_eq_some {e : ServerEvent} (h : e.appendArgs c = some args) :
    ∃ rest, e = .command c ipcCmdqGcodeAppend args rest := by
  cases e with
  | connect => cases h
  | disconnect => cases h
  | command client code args' rest =>
    unfold ServerEvent.appendArgs at h
    dsimp only at h
    split_ifs at h with hand
    cases h
    exact ⟨rest, by rw [hand.1, hand.2]⟩

/-- What a run has handed over for one client is fixed by the chunks of this client. -/
structure HandsOver (ls : List (ServerEvent × Output)) (s : Server D) : Prop extends Buffered ls s where
  calls : ∀ c, callsOf c ls = callsFor (chunksOf c ls)

theorem handsOver_step (ls : List (ServerEvent × Output)) (s : Server D) (l : ServerEvent × Output)
    (s' : Server D) (h : HandsOver ls s) (hstep : s.Step ops files l s') : HandsOver (ls ++ [l]) s' := by
  refine ⟨buffered_step ls s l s' h.toBuffered hstep, fun c => ?_⟩
  rw [callsOf_append, chunksOf_append, h.calls]
  cases hl : l.1.appendArgs c with
  | none => simp
  | some args =>
    obtain ⟨rest, he⟩ := appendArgs_eq_some hl
    have hcode : ¬ ipcCmdqGcodeAppend = ipcCmdqGcodeAppendFile := by decide
    have hcalls := h.appendCalls hstep (by rw [he]; exact hcode)
    rw [he, expectedCalls, if_pos rfl] at hcalls
    rw [hcalls]
    cases hchunk : Chunk.ofArgs args with
    | none => simp [hchunk]
    | some chunk => simp [hchunk, callsFor_append]

theorem handsOver_run {driver : D} (hrun : Transition.Run (Step ops files) { driver := driver } ls s) :
    HandsOver ls s :=
  hrun.invariant_history HandsOver handsOver_step ⟨⟨fun _ _ hc => (by cases hc), fun _ _ => rfl⟩, fun _ => rfl⟩

/-- In every run, an event hands to the driver what `expectedCalls` says, the last chunks in the
order in which they arrive; and what a client has handed over depends on its own commands only. -/
theorem appends_isolated {driver : D} (hrun : Transition.Run (Step ops files) { driver := driver } ls s) :
    (∀ before l after, ls = before ++ l :: after → ¬ l.1.AppendsFile →
      l.2.appendCalls = expectedCalls before l.1) ∧
    (∀ c, callsOf c ls = callsFor (chunksOf c ls)) ∧
    ∀ (D' : Type) (ops' : DriverOps D') (files' : Option Text → Except Text Text) (driver' : D')
      (ls' : List (ServerEvent × Output)) (s' : Server D'),
      Transition.Run (Step ops' files') { driver := driver' } ls' s' →
      ∀ c c', commandsOf c' ls' = commandsOf c ls → callsOf c' ls' = callsOf c ls := by
  refine ⟨?_, (handsOver_run hrun).calls, ?_⟩
  · rintro before l after rfl hfile
    obtain ⟨s₁, hbefore, hafter⟩ := hrun.split
    obtain ⟨s₂, hstep, -⟩ := hafter.cons_inv
    exact (handsOver_run hbefore).appendCalls hstep hfile
  · intro D' ops' files' driver' ls' s' hrun' c c' hcommands
    rw [(handsOver_run hrun).calls, (handsOver_run hrun').calls, chunksOf, chunksOf, hcommands]

/-- A transfer in two chunks, between which another client starts one. -/
private def interleaved : List (ServerEvent × Output) := [
  (.connect, {}),
  (.connect, {}),
  (.command 0 ipcCmdqGcodeAppend [ascii "G1\n", [0, 1]] [], { sent := [okReply] }),
  (.command 1 ipcCmdqGcodeAppend [ascii "M1\n", [0, 1]] [], { sent := [okReply] }),
  (.command 0 ipcCmdqGcodeAppend [ascii "G2", [0, 2]] [],
    { sent := [okReply], calls := [.appendGCode (ascii "G1\nG2") (-1) (some {})] })]

private def sharedDriver : MarlinDriver := { state := .idle, isConnected := true, checkConnection := false }

private def firstStarted : Server MarlinDriver :=
  ({ driver := sharedDriver } : Server MarlinDriver).connect.connect.setTransaction 0
    { buffer := ascii "G1\n", active := true }

private def bothStarted : Server MarlinDriver :=
  firstStarted.setTransaction 1 { buffer := ascii "M1\n", active := true }

private theorem run_bothStarted : Transition.Run (Step (MarlinDriver.ops fun _ => 0) fun _ => .error [])
    { driver := sharedDriver } (interleaved.take 4) bothStarted := by
  have h₁ : Encodable ipcCmdqGcodeAppend [ascii "G1\n", [0, 1]] := ⟨by decide, by decide, by decide⟩
  have h₂ : Encodable ipcCmdqGcodeAppend [ascii "M1\n", [0, 1]] := ⟨by decide, by decide, by decide⟩
  have hc₁ : Chunk.ofArgs [ascii "G1\n", [0, 1]] = some
      { transactionFlags := 1, totalLines := -1, metaData := {}, data := ascii "G1\n" } := by decide
  have hc₂ : Chunk.ofArgs [ascii "M1\n", [0, 1]] = some
      { transactionFlags := 1, totalLines := -1, metaData := {}, data := ascii "M1\n" } := by decide
  have hclient₁ : ({ driver := sharedDriver } : Server MarlinDriver).connect.connect.clients 0 = some {} := rfl
  have hclient₂ : firstStarted.clients 1 = some {} := rfl
  exact .cons ⟨trivial, rfl⟩ (.cons ⟨trivial, rfl⟩ (.cons (step_keptChunk hclient₁ h₁ hc₁ rfl)
    (.cons (step_keptChunk hclient₂ h₂ hc₂ rfl) (.nil bothStarted))))

private theorem run_interleaved : ∃ s, Transition.Run (Step (MarlinDriver.ops fun _ => 0) fun _ => .error [])
    { driver := sharedDriver } interleaved s := by
  have h : Encodable ipcCmdqGcodeAppend [ascii "G2", [0, 2]] := ⟨by decide, by decide, by decide⟩
  have hchunk : Chunk.ofArgs [ascii "G2", [0, 2]] = some
      { transactionFlags := 2, totalLines := -1, metaData := {}, data := ascii "G2" } := by decide
  have hcall : (MarlinDriver.ops fun _ => 0).appendGCode bothStarted.driver (ascii "G1\nG2") (-1) (some {}) =
      some (.ok, { sharedDriver with
        gcodeBuffer :=
          { buckets := [ascii "G1\nG2\n"], bufferedLines := 2, totalLinesSent := 2, bufferSize := 6 }
        state := .buffering }) := by
    decide
  have hclient : bothStarted.clients 0 = some { buffer := ascii "G1\n", active := true } := rfl
  exact ⟨_, run_bothStarted.append (.cons (step_passedChunk hclient h hchunk rfl hcall) (.nil _))⟩

theorem appends_isolated_interleaved :
    callsOf 0 interleaved = callsFor (chunksOf 0 interleaved) ∧
      callsFor (chunksOf 0 interleaved) = [.appendGCode (ascii "G1\nG2") (-1) (some {})] := by
  obtain ⟨s, hrun⟩ := run_interleaved
  exact ⟨(appends_isolated hrun).2.1 0, by decide⟩

end Server
end Print3D
