import Print3D.Frontends.Communicator
import Print3D.Server.Runs

/-! A transfer in packets, from `comm_sendGCodeData` to the driver of the server. -/
namespace Print3D
open CommandHandler Chunks FixedWidth LengthPrefixed Effects

namespace Communicator

variable {D : Type} {ops : DriverOps D} {files : Option Text → Except Text Text} {client : ℕ}
  {others : ℕ → Server D → Server D} {data : Text} {totalLines seqNum seqTtl : ℤ} {source : Option Text}
  {trx : Transaction}

/-- A server, and the commands it has got from one of its clients with what it has done. -/
structure Session (D : Type) where
  server : Server D
  log : List (Text × Output) := []

def Session.packets (p : Session D) : List Text := p.log.map (·.1)

def Session.calls (p : Session D) : List DriverCall := p.log.flatMap (·.2.calls)

/-- The server behind the socket of a client runs each command when it comes, and its replies are
there at the next read. `others n` is what the other clients do before command `n`. -/
def serverPeer (ops : DriverOps D) (files : Option Text → Except Text Text) (client : ℕ)
    (others : ℕ → Server D → Server D) : Peer (Session D) := fun cmd p =>
  ((runCommand ops client cmd files).run (others p.log.length p.server, {})).map fun r =>
    (cmd.length, [.data r.2.2.sent.flatten], { server := r.2.1, log := p.log ++ [(cmd, r.2.2)] })

/-! ### Replies -/

variable {c : Communicator (Session D)}

theorem response_ok : (handleBasicResponse (some okReply) 0).run c = some (0, c) := by
  have h : Encodable ipcCmdrOk [] := ⟨by decide, by decide, by decide⟩
  have hget := ipcCmdGet_encode h []
  have hnum := ipcCmdNumArgs_encode h []
  rw [List.append_nil] at hget hnum
  unfold handleBasicResponse okReply
  dsimp only
  rw [run_lift_bind hget, if_pos rfl, run_lift_bind hnum]
  rfl

theorem response_cancelled (r : Text) : (handleBasicResponse (some (trxCancelled ++ r)) 0).run c =
    some (-3, { c with error := some transactionCancelledString }) := by
  have h : Encodable ipcCmdrTrxCancelled [ascii "transaction cancelled"] := ⟨by decide, by decide, by decide⟩
  unfold handleBasicResponse trxCancelled
  dsimp only
  rw [run_lift_bind (ipcCmdGet_encode h r), if_neg (by decide), if_neg (by decide), if_neg (by decide),
    if_pos rfl]
  rfl

theorem response_addFailed (gsr : GcodeSetResult) :
    (handleBasicResponse (some (addFailed gsr)) 0).run c =
      some (-2, { c with error := some (ascii gsr.name) }) := by
  have h : Encodable ipcCmdrGcodeAddFailed [ascii gsr.name] := by
    cases gsr <;> exact ⟨by decide, by decide, by decide⟩
  have hget := ipcCmdGet_encode h []
  have harg := stringArg_encode h (r := []) 0
  rw [List.append_nil] at hget harg
  have hmessage : formatMessage (cString (ascii gsr.name)) = some (ascii gsr.name) := by
    cases gsr <;> decide
  unfold handleBasicResponse addFailed
  dsimp only
  rw [run_lift_bind hget, if_neg (by decide), if_neg (by decide), if_pos rfl, harg, Option.bind_some, id_eq,
    List.getElem?_cons_zero, Option.map_some, run_lift_bind rfl, run_lift_bind hmessage]
  rfl

/-! ### One packet -/

theorem run_eq_exec {s : Server D} {code : ℕ} {args : List Text} :
    (runCommand ops client (encode code args) files).run (s, {}) =
      (s.exec ops files (.command client code args [])).map fun p => ((), p) := by
  rw [Server.exec, List.append_nil, Option.map_map]
  exact Option.map_id'.symm

theorem receive_run {bytes : Text} (hreads : c.reads = [.data bytes]) (hbytes : bytes ≠ []) :
    receive.run c = some (some bytes, { c with reads := [] }) := by
  have hread : readAndAppendAvailableData ipcWaitTimeout true c.reads [] 0 =
      some ((0 : ℤ) + bytes.length, bytes, []) := by
    rw [hreads]
    rfl
  unfold receive
  rw [run_bind_of_eq_some rfl, run_lift_bind hread]
  dsimp only
  rw [if_neg hbytes]
  rfl

def Session.add (p : Session D) (cmd : Text) (o : Output) (s : Server D) : Session D :=
  { server := s, log := p.log ++ [(cmd, o)] }

theorem send_run {cmd : Text} : (send (serverPeer ops files client others) cmd).run c =
    ((runCommand ops client cmd files).run (others c.peer.log.length c.peer.server, {})).map fun r =>
      ((cmd.length : ℤ), { c with
        reads := c.reads ++ [.data r.2.2.sent.flatten]
        peer := c.peer.add cmd r.2.2 r.2.1 }) := by
  unfold send serverPeer
  rw [run_bind_of_eq_some rfl, StateT.run_bind]
  cases (runCommand ops client cmd files).run (others c.peer.log.length c.peer.server, {}) <;> rfl

theorem sendAndReceiveData_run {cmd : Text} {s : Server D} {o : Output} (hfd : 0 ≤ c.socketFd)
    (hreads : c.reads = [])
    (hrun : (runCommand ops client cmd files).run (others c.peer.log.length c.peer.server, {}) =
      some ((), s, o)) (hreply : o.sent.flatten ≠ []) :
    (sendAndReceiveData (serverPeer ops files client others) (some cmd)).run c =
      some (some o.sent.flatten, { c with peer := c.peer.add cmd o s }) := by
  unfold sendAndReceiveData setErrorIf
  rw [run_bind_of_eq_some rfl, if_neg (not_lt.mpr hfd)]
  dsimp only
  rw [StateT.run_bind, send_run, hrun, Option.map_some, Option.bind_eq_bind, Option.bind_some,
    if_neg (by omega), if_neg (by omega), pure_bind, hreads, List.nil_append, receive_run rfl hreply, ← hreads]

theorem sendAndReceiveData_none {cmd : Text} (hfd : 0 ≤ c.socketFd)
    (hrun : (runCommand ops client cmd files).run (others c.peer.log.length c.peer.server, {}) = none) :
    (sendAndReceiveData (serverPeer ops files client others) (some cmd)).run c = none := by
  unfold sendAndReceiveData
  rw [run_bind_of_eq_some rfl, if_neg (not_lt.mpr hfd)]
  dsimp only
  rw [StateT.run_bind, send_run, hrun]
  rfl

theorem trxBits_cases (firstPacket lastPacket : Prop) [Decidable firstPacket] [Decidable lastPacket] :
    readShort (bigEndian 2 (trxBits firstPacket lastPacket % 2 ^ 16).toNat) =
        some (trxBits firstPacket lastPacket) ∧
      hasBit (trxBits firstPacket lastPacket) trxFirstChunkBit = decide firstPacket ∧
      hasBit (trxBits firstPacket lastPacket) trxLastChunkBit = decide lastPacket := by
  unfold trxBits
  by_cases hfirst : firstPacket <;> by_cases hlast : lastPacket <;>
    simp only [hfirst, hlast, if_true, if_false] <;> decide

/-- The numbers are of type `int32_t`, and the source fits a message with its other arguments. -/
structure Sendable (totalLines seqNum seqTtl : ℤ) (source : Option Text) : Prop where
  totalLines : IsInt32 totalLines
  seqNum : IsInt32 seqNum
  seqTtl : IsInt32 seqTtl
  source : ∀ text ∈ source, (cString text).length < 2 ^ 31 - 2 ^ 11

theorem readLong_long {v : ℤ} (h : IsInt32 v) : readLong (bigEndian 4 (v % 2 ^ 32).toNat) = some v := by
  rw [readLong, readNl_long, Option.map_some, i32_long, i32_eq h]

theorem payloads_packetArgs (bits : ℤ) : payloads (packetArgs data bits totalLines seqNum seqTtl source) =
    [data, bigEndian 2 (bits % 2 ^ 16).toNat, bigEndian 4 (totalLines % 2 ^ 32).toNat,
      bigEndian 4 (seqNum % 2 ^ 32).toNat, bigEndian 4 (seqTtl % 2 ^ 32).toNat] ++
        (source.map cString).toList := by
  cases source <;> rfl

theorem ofArgs_packetArgs (firstPacket lastPacket : Prop) [Decidable firstPacket] [Decidable lastPacket]
    (hdata : 0 ∉ data) (h : Sendable totalLines seqNum seqTtl source) :
    Chunk.ofArgs (payloads (packetArgs data (trxBits firstPacket lastPacket) totalLines seqNum seqTtl source)) =
      some { transactionFlags := trxBits firstPacket lastPacket
             totalLines := totalLines
             metaData := { seqNumber := seqNum, seqTotal := seqTtl, source := source.map cString }
             data := data } := by
  obtain ⟨hbits, -, -⟩ := trxBits_cases firstPacket lastPacket
  have hsource : ((source.map cString).toList)[0]?.map cString = source.map cString := by
    cases source with
    | none => rfl
    | some text => exact congrArg some (cString_of_notMem (zero_notMem_cString text))
  rw [payloads_packetArgs]
  unfold Chunk.ofArgs
  simp only [List.cons_append, List.nil_append, List.getElem?_cons_succ, List.getElem?_cons_zero,
    Option.elim_some, hbits, readLong_long h.totalLines, readLong_long h.seqNum, readLong_long h.seqTtl,
    Option.bind_eq_bind, Option.bind_some, hsource, cString_of_notMem hdata]

theorem encodable_packetArgs (bits : ℤ) (hdata : data.length ≤ maxPacketSize)
    (h : Sendable totalLines seqNum seqTtl source) :
    Encodable ipcCmdqGcodeAppend (payloads (packetArgs data bits totalLines seqNum seqTtl source)) := by
  unfold maxPacketSize at hdata
  rw [payloads_packetArgs]
  cases source with
  | none =>
    refine ⟨by decide, by simp, ?_⟩
    simp only [encode_length, Option.map_none, Option.toList_none, List.append_nil, fields_cons, fields_nil,
      List.length_append, field_length, bigEndian_length]
    omega
  | some text =>
    have htext := h.source text rfl
    refine ⟨by decide, by simp, ?_⟩
    simp only [encode_length, Option.map_some, Option.toList_some, List.cons_append, List.nil_append,
      fields_cons, fields_nil, List.length_append, List.length_nil, field_length, bigEndian_length]
    omega

/-- A `gcodeAppend` command with 1 to `maxPacketSize` bytes of gcode. -/
def IsPacket (cmd : Text) : Prop :=
  ∃ data args, cmd = encode ipcCmdqGcodeAppend (data :: args) ∧ 1 ≤ data.length ∧ data.length ≤ maxPacketSize

/-- A transfer after the text `sofar`, which the first packet will make the server forget. -/
structure Transferring (client : ℕ) (sofar : Text) (firstPacket : Prop) (c : Communicator (Session D)) :
    Prop where
  fd : 0 ≤ c.socketFd
  reads : c.reads = []
  buffer : ∃ trx, c.peer.server.clients client = some trx ∧ (¬ firstPacket → trx.buffer = sofar)
  calls : c.peer.calls = []
  packets : ∀ cmd ∈ c.peer.packets, IsPacket cmd

theorem Transferring.transaction {sofar : Text} {firstPacket : Prop}
    (hothers : ∀ n s, ((others n s).clients client).map (·.buffer) = (s.clients client).map (·.buffer))
    (h : Transferring client sofar firstPacket c) : ∃ trx,
    (others c.peer.log.length c.peer.server).clients client = some trx ∧
    (¬ firstPacket → trx.buffer = sofar) := by
  obtain ⟨trx, htrx, hbuffer⟩ := h.buffer
  have hmap := hothers c.peer.log.length c.peer.server
  rw [htrx, Option.map_some] at hmap
  obtain ⟨trx', htrx', hbuffer'⟩ := Option.map_eq_some_iff.mp hmap
  exact ⟨trx', htrx', fun hnot => hbuffer'.trans (hbuffer hnot)⟩

theorem Transferring.add_packets {sofar cmd : Text} {firstPacket : Prop} {o : Output} {s : Server D}
    (h : Transferring client sofar firstPacket c) (hcmd : IsPacket cmd) :
    ∀ cmd' ∈ (c.peer.add cmd o s).packets, IsPacket cmd' := by
  intro cmd' hmem
  unfold Session.packets Session.add at hmem
  rw [List.map_append, List.mem_append] at hmem
  rcases hmem with hmem | hmem
  · exact h.packets cmd' hmem
  · rw [List.mem_singleton.mp hmem]
    exact hcmd

theorem Transferring.add_calls {sofar cmd : Text} {firstPacket : Prop} {o : Output} {s : Server D}
    (h : Transferring client sofar firstPacket c) : (c.peer.add cmd o s).calls = o.calls := by
  have hcalls := h.calls
  unfold Session.calls Session.add at *
  rw [List.flatMap_append, hcalls, List.nil_append, List.flatMap_singleton]

def packetCmd (data : Text) (bits totalLines seqNum seqTtl : ℤ) (source : Option Text) : Text :=
  encode ipcCmdqGcodeAppend (payloads (packetArgs data bits totalLines seqNum seqTtl source))

theorem isPacket_packetCmd {bits : ℤ} (hpos : 1 ≤ data.length) (hle : data.length ≤ maxPacketSize) :
    IsPacket (packetCmd data bits totalLines seqNum seqTtl source) := by
  unfold packetCmd
  rw [payloads_packetArgs, List.cons_append]
  exact ⟨data, _, rfl, hpos, hle⟩

theorem sendPacket_run {bits : ℤ} {s : Server D} {o : Output} (hfd : 0 ≤ c.socketFd) (hreads : c.reads = [])
    (henc : Encodable ipcCmdqGcodeAppend (payloads (packetArgs data bits totalLines seqNum seqTtl source)))
    (hexec : (others c.peer.log.length c.peer.server).exec ops files (.command client ipcCmdqGcodeAppend
      (payloads (packetArgs data bits totalLines seqNum seqTtl source)) []) = some (s, o))
    (hreply : o.sent.flatten ≠ []) :
    (sendPacket (serverPeer ops files client others) data bits totalLines seqNum seqTtl source).run c =
      (handleBasicResponse (some o.sent.flatten) 0).run { c with
        peer := c.peer.add (packetCmd data bits totalLines seqNum seqTtl source) o s } := by
  have hrun : (runCommand ops client (packetCmd data bits totalLines seqNum seqTtl source) files).run
      (others c.peer.log.length c.peer.server, {}) = _ := run_eq_exec
  rw [hexec, Option.map_some] at hrun
  unfold sendPacket
  rw [run_lift_bind (ipcVaConstructCmd_eq heap_grants rfl henc)]
  exact run_bind_of_eq_some (sendAndReceiveData_run hfd hreads hrun hreply) _

theorem sendPacket_none {bits : ℤ} (hfd : 0 ≤ c.socketFd)
    (henc : Encodable ipcCmdqGcodeAppend (payloads (packetArgs data bits totalLines seqNum seqTtl source)))
    (hexec : (others c.peer.log.length c.peer.server).exec ops files (.command client ipcCmdqGcodeAppend
      (payloads (packetArgs data bits totalLines seqNum seqTtl source)) []) = none) :
    (sendPacket (serverPeer ops files client others) data bits totalLines seqNum seqTtl source).run c =
      none := by
  have hrun : (runCommand ops client (packetCmd data bits totalLines seqNum seqTtl source) files).run
      (others c.peer.log.length c.peer.server, {}) = _ := run_eq_exec
  rw [hexec, Option.map_none] at hrun
  unfold sendPacket
  rw [run_lift_bind (ipcVaConstructCmd_eq heap_grants rfl henc), StateT.run_bind]
  exact congrArg (Option.bind · _) (sendAndReceiveData_none hfd hrun)

/-- The reply to a packet that is not the last one: the loop goes on. -/
theorem response_kept (trx : Transaction) (c : Communicator (Session D)) : ∃ result error, result ≠ -1 ∧
    (handleBasicResponse (some (notice trx ++ [okReply]).flatten) 0).run c =
      some (result, { c with error := error }) := by
  unfold notice
  split_ifs
  · have hflat : ([trxCancelled] ++ [okReply]).flatten = trxCancelled ++ okReply := by simp
    rw [hflat]
    exact ⟨-3, _, by decide, response_cancelled okReply⟩
  · refine ⟨0, c.error, by decide, ?_⟩
    rw [List.nil_append, List.flatten_singleton]
    exact response_ok

theorem response_last (trx : Transaction) (gsr : GcodeSetResult) (c : Communicator (Session D)) :
    ∃ result error, (handleBasicResponse
      (some (notice trx ++ [if gsr = .ok then okReply else addFailed gsr]).flatten) 0).run c =
        some (result, { c with error := error }) := by
  unfold notice
  split_ifs
  · exact ⟨_, _, response_cancelled _⟩
  · exact ⟨_, _, response_cancelled _⟩
  · rw [List.nil_append, List.flatten_singleton]
    exact ⟨_, _, response_ok⟩
  · rw [List.nil_append, List.flatten_singleton]
    exact ⟨_, _, response_addFailed gsr⟩

theorem reply_ne_nil (trx : Transaction) {reply : Text} (h : reply ≠ []) :
    (notice trx ++ [reply]).flatten ≠ [] := by
  simp [h]

theorem lastReply_ne_nil (gsr : GcodeSetResult) : (if gsr = .ok then okReply else addFailed gsr) ≠ [] := by
  cases gsr <;> decide

section Packet

variable {sofar : Text} {firstPacket : Prop} [Decidable firstPacket]

theorem addChunk_packet {chunk : Chunk} (hfirst : firstPacket → sofar = [])
    (hchunk : chunk.first = decide firstPacket) (hbuffer : ¬ firstPacket → trx.buffer = sofar) :
    (addChunk trx chunk).buffer = sofar ++ chunk.data := by
  unfold addChunk
  by_cases h : firstPacket
  · rw [hfirst h, if_pos (by simp [hchunk, h])]
  · rw [if_neg (by simp [hchunk, h])]
    exact congrArg (· ++ chunk.data) (hbuffer h)

variable (hothers : ∀ n s, ((others n s).clients client).map (·.buffer) = (s.clients client).map (·.buffer))
  (h : Transferring client sofar firstPacket c) (hfirst : firstPacket → sofar = [])
  (hargs : Sendable totalLines seqNum seqTtl source) (hdata : 0 ∉ data) (hpos : 1 ≤ data.length)
  (hle : data.length ≤ maxPacketSize) (lastPacket : Prop) [Decidable lastPacket]

include hothers h hfirst hargs hdata hpos hle

theorem sendPacket_kept (hlast : ¬ lastPacket) :
    ∃ result c', (sendPacket (serverPeer ops files client others) data
        (trxBits firstPacket lastPacket) totalLines seqNum seqTtl source).run c = some (result, c') ∧
      result ≠ -1 ∧ Transferring client (sofar ++ data) False c' := by
  obtain ⟨trx, htrx, hbuffer⟩ := h.transaction hothers
  obtain ⟨-, hbit, hbit'⟩ := trxBits_cases firstPacket lastPacket
  have henc := encodable_packetArgs (trxBits firstPacket lastPacket) hle hargs
  have hchunk := ofArgs_packetArgs firstPacket lastPacket hdata hargs
  have hexec : (others c.peer.log.length c.peer.server).exec ops files (.command client ipcCmdqGcodeAppend
      (payloads (packetArgs data (trxBits firstPacket lastPacket) totalLines seqNum seqTtl source)) []) = _ :=
    (Server.step_keptChunk htrx henc hchunk (hbit'.trans (decide_eq_false hlast))).2
  have hrun := sendPacket_run h.fd h.reads henc hexec (reply_ne_nil trx (by decide))
  obtain ⟨result, error, hresult, hresponse⟩ := response_kept trx { c with peer := c.peer.add _ _ _ }
  refine ⟨result, _, hrun.trans hresponse, hresult, h.fd, h.reads, ?_, h.add_calls, ?_⟩
  · exact ⟨_, Function.update_self .., fun _ => addChunk_packet hfirst hbit hbuffer⟩
  · exact h.add_packets (isPacket_packetCmd hpos hle)

theorem sendPacket_last (hlast : lastPacket) :
    ((sendPacket (serverPeer ops files client others) data (trxBits firstPacket lastPacket) totalLines
        seqNum seqTtl source).run c = none ∧ ∃ driver, ops.appendGCode driver (sofar ++ data) totalLines
          (some { seqNumber := seqNum, seqTotal := seqTtl, source := source.map cString }) = none) ∨
      ∃ result c', (sendPacket (serverPeer ops files client others) data
          (trxBits firstPacket lastPacket) totalLines seqNum seqTtl source).run c = some (result, c') ∧
        c'.peer.calls = [.appendGCode (sofar ++ data) totalLines
          (some { seqNumber := seqNum, seqTotal := seqTtl, source := source.map cString })] ∧
        ∀ cmd ∈ c'.peer.packets, IsPacket cmd := by
  obtain ⟨trx, htrx, hbuffer⟩ := h.transaction hothers
  obtain ⟨-, hbit, hbit'⟩ := trxBits_cases firstPacket lastPacket
  have henc := encodable_packetArgs (trxBits firstPacket lastPacket) hle hargs
  have hchunk := ofArgs_packetArgs firstPacket lastPacket hdata hargs
  have htext : (addChunk trx
      { transactionFlags := trxBits firstPacket lastPacket
        totalLines := totalLines
        metaData := { seqNumber := seqNum, seqTotal := seqTtl, source := source.map cString }
        data := data }).buffer = sofar ++ data := addChunk_packet hfirst hbit hbuffer
  cases hcall : ops.appendGCode (others c.peer.log.length c.peer.server).driver (sofar ++ data) totalLines
      (some { seqNumber := seqNum, seqTotal := seqTtl, source := source.map cString }) with
  | none =>
    refine .inl ⟨sendPacket_none h.fd henc ?_, _, hcall⟩
    rw [Server.exec_lastChunk htrx henc hchunk (hbit'.trans (decide_eq_true hlast)), htext, hcall]
    rfl
  | some p =>
    right
    rw [← htext] at hcall
    have hexec : (others c.peer.log.length c.peer.server).exec ops files (.command client ipcCmdqGcodeAppend
        (payloads (packetArgs data (trxBits firstPacket lastPacket) totalLines seqNum seqTtl source)) []) = _ :=
      (Server.step_passedChunk htrx henc hchunk (hbit'.trans (decide_eq_true hlast)) hcall).2
    have hrun := sendPacket_run h.fd h.reads henc hexec (reply_ne_nil trx (lastReply_ne_nil p.1))
    obtain ⟨result, error, hresponse⟩ := response_last trx p.1 { c with peer := c.peer.add _ _ _ }
    refine ⟨result, _, hrun.trans hresponse, h.add_calls.trans ?_, h.add_packets (isPacket_packetCmd hpos hle)⟩
    rw [htext]

end Packet

/-! ### The loop -/

/-- How a transfer of `text` ends: at a line that does not fit, with a driver that does not return,
or with one call. -/
def Transferred (ops : DriverOps D) (text : Text) (totalLines : ℤ) (metaData : MetaData) (fits : Prop) :
    Option (ℤ × Communicator (Session D)) → Prop
  | none => fits ∧ ∃ driver, ops.appendGCode driver text totalLines (some metaData) = none
  | some (rv, c) => (∀ cmd ∈ c.peer.packets, IsPacket cmd) ∧
      (fits → c.peer.calls = [.appendGCode text totalLines (some metaData)]) ∧
      (¬ fits → rv = -1 ∧ c.peer.calls = [])

theorem packetSize_eq_zero {startP : Text} (hne : startP ≠ []) (h : packetSize startP = 0) :
    ¬ Fits maxPacketSize newline startP := by
  have hpos := List.length_pos_of_ne_nil hne
  unfold packetSize at h
  split_ifs at h with hlen
  · omega
  · exact not_fits_of_lastBreak_eq_zero (not_le.mp hlen) h

theorem packetSize_le_max (startP : Text) : packetSize startP ≤ maxPacketSize := by
  unfold packetSize
  split_ifs with h
  · exact h
  · exact lastBreak_le startP maxPacketSize

theorem fits_of_packetSize_eq {startP : Text} (h : packetSize startP = startP.length) :
    Fits maxPacketSize newline startP :=
  fits_of_length_le (h ▸ packetSize_le_max startP)

theorem fits_drop_packetSize {startP : Text} (hpos : packetSize startP ≠ 0)
    (hlast : packetSize startP ≠ startP.length) :
    Fits maxPacketSize newline (startP.drop (packetSize startP)) ↔ Fits maxPacketSize newline startP := by
  unfold packetSize at *
  split_ifs at * with hlen
  · exact absurd rfl hlast
  · exact fits_drop_lastBreak (Nat.pos_of_ne_zero hpos)

theorem transferred_last {text : Text} {metaData : MetaData} {fits : Prop} {peer : Peer (Session D)}
    {packetNum : ℕ}
    {rv : ℤ} (hfits : fits) (hcalls : c.peer.calls = [.appendGCode text totalLines (some metaData)])
    (hpackets : ∀ cmd ∈ c.peer.packets, IsPacket cmd) :
    Transferred ops text totalLines metaData fits ((if rv = -1 then pure rv
      else sendPackets peer totalLines seqNum seqTtl source [] packetNum rv : Call (Session D) ℤ).run c) := by
  have hrun : (if rv = -1 then pure rv
      else sendPackets peer totalLines seqNum seqTtl source [] packetNum rv : Call (Session D) ℤ).run c =
        some (rv, c) := by
    rw [sendPackets, if_pos rfl, ite_self]
    rfl
  rw [hrun]
  exact ⟨hpackets, fun _ => hcalls, fun hnot => absurd hfits hnot⟩

theorem Transferring.of_not {sofar : Text} {firstPacket : Prop} (h : Transferring client sofar False c)
    (_ : ¬ firstPacket) : Transferring client sofar firstPacket c := by
  obtain ⟨trx, htrx, hbuffer⟩ := h.buffer
  exact ⟨h.fd, h.reads, ⟨trx, htrx, fun _ => hbuffer not_false⟩, h.calls, h.packets⟩

theorem sendPackets_transferred
    (hothers : ∀ n s, ((others n s).clients client).map (·.buffer) = (s.clients client).map (·.buffer))
    (hargs : Sendable totalLines seqNum seqTtl source) (n : ℕ) :
    ∀ {startP sofar : Text} {packetNum : ℕ} {rv : ℤ} {c : Communicator (Session D)},
    startP.length = n → startP ≠ [] → 0 ∉ startP → rv ≠ -1 →
    Transferring client sofar (packetNum = 0) c → (packetNum = 0 → sofar = []) →
    Transferred ops (sofar ++ startP) totalLines
      { seqNumber := seqNum, seqTotal := seqTtl, source := source.map cString }
      (Fits maxPacketSize newline startP)
      ((sendPackets (serverPeer ops files client others) totalLines seqNum seqTtl source startP packetNum
        rv).run c) := by
  induction n using Nat.strong_induction_on with
  | _ n ih =>
    intro startP sofar packetNum rv c hn hne hzero hrv h hfirst
    have htake : (startP.take (packetSize startP)).length = packetSize startP :=
      List.length_take_of_le (packetSize_le startP)
    have hdata : 0 ∉ startP.take (packetSize startP) := fun hmem => hzero (List.mem_of_mem_take hmem)
    rw [sendPackets, if_neg hne]
    by_cases hsize : packetSize startP = 0
    · rw [if_pos hsize]
      exact ⟨h.packets, fun hfits => absurd hfits (packetSize_eq_zero hne hsize), fun _ => ⟨rfl, h.calls⟩⟩
    · rw [if_neg hsize]
      dsimp only
      have hlen : 1 ≤ (startP.take (packetSize startP)).length := by omega
      have hle : (startP.take (packetSize startP)).length ≤ maxPacketSize :=
        htake.trans_le (packetSize_le_max startP)
      by_cases hlast : packetSize startP = startP.length
      · have hdrop : startP.drop (packetSize startP) = [] := by rw [hlast, List.drop_length]
        have htext : sofar ++ startP.take (packetSize startP) = sofar ++ startP := by
          rw [hlast, List.take_length]
        rcases sendPacket_last hothers h hfirst hargs hdata hlen hle
          (packetSize startP = startP.length) hlast with
          ⟨hrun, hnone⟩ | ⟨result, c', hrun, hcalls, hpackets⟩
        · rw [StateT.run_bind, hrun]
          rw [htext] at hnone
          exact ⟨fits_of_packetSize_eq hlast, hnone⟩
        · rw [run_bind_of_eq_some hrun, hdrop]
          rw [htext] at hcalls
          exact transferred_last (fits_of_packetSize_eq hlast) hcalls hpackets
      · obtain ⟨result, c', hrun, hresult, h'⟩ := sendPacket_kept hothers h hfirst hargs hdata hlen hle
          (packetSize startP = startP.length) hlast
        have hdrop : startP.drop (packetSize startP) ≠ [] := fun hnil => by
          have := List.drop_eq_nil_iff.mp hnil
          have := packetSize_le startP
          omega
        have hlt : (startP.drop (packetSize startP)).length < n := by
          have := List.length_pos_of_ne_nil hne
          rw [List.length_drop]
          omega
        have hrv' : (if result ≥ 0 then rv else result) ≠ -1 := by
          split_ifs
          · exact hrv
          · exact hresult
        have hrest := ih _ hlt rfl hdrop (fun hmem => hzero (List.mem_of_mem_drop hmem)) hrv'
          (h'.of_not (Nat.succ_ne_zero packetNum)) (fun hnum => absurd hnum (Nat.succ_ne_zero packetNum))
        rw [run_bind_of_eq_some hrun, if_neg hrv']
        rwa [List.append_assoc, List.take_append_drop, propext (fits_drop_packetSize hsize hlast)] at hrest

/-- A transfer of a text of any length, to a server whose other clients leave the text of the
transaction alone: if all its lines fit in packets, the driver gets it whole, in one call, and else
it gets nothing. If the driver returns, so does the transfer. -/
theorem commSendGCodeData_transferred {gcode : Text} {metadata : Option IpcGcodeMetadata} {server : Server D}
    (hothers : ∀ n s, ((others n s).clients client).map (·.buffer) = (s.clients client).map (·.buffer))
    (hclient : server.clients client ≠ none) (hfd : 0 ≤ c.socketFd) (hreads : c.reads = [])
    (hpeer : c.peer = { server := server }) (hne : gcode ≠ []) (hzero : 0 ∉ gcode)
    (hargs : Sendable totalLines (metadata.elim (-1) (·.seqNumber)) (metadata.elim (-1) (·.seqTotal))
      (metadata.bind (·.source))) :
    Transferred ops gcode totalLines
      { seqNumber := metadata.elim (-1) (·.seqNumber)
        seqTotal := metadata.elim (-1) (·.seqTotal)
        source := (metadata.bind (·.source)).map cString }
      (Fits maxPacketSize newline gcode)
      ((commSendGCodeData (serverPeer ops files client others) gcode totalLines metadata).run c) := by
  obtain ⟨trx, htrx⟩ := Option.ne_none_iff_exists'.mp hclient
  have hstart : Transferring client [] (0 = 0) { c with error := none } := by
    refine ⟨hfd, hreads, ⟨trx, ?_, fun hnot => absurd rfl hnot⟩, ?_, ?_⟩
    · rw [hpeer]
      exact htrx
    · rw [hpeer]
      rfl
    · rw [hpeer]
      exact fun cmd hcmd => by cases hcmd
  unfold commSendGCodeData
  rw [cString_of_notMem hzero, run_bind_of_eq_some rfl]
  exact sendPackets_transferred hothers hargs gcode.length rfl hne hzero (by decide) hstart fun _ => rfl

/-- Four hundred lines: a full packet, and a shorter one. -/
def manyLines : Text := (List.replicate 400 (ascii "G1\n")).flatten

/-- A server with text that is left from an earlier transfer. -/
def staleServer : Server MarlinDriver :=
  ({ driver := {} } : Server MarlinDriver).connect.setTransaction 0 { active := true, buffer := ascii "G28\n" }

theorem commSendGCodeData_transferred_twoPackets :
    maxPacketSize < manyLines.length ∧ Fits maxPacketSize newline manyLines ∧
      Transferred (MarlinDriver.ops fun _ => 0) manyLines 400
        { seqNumber := 0, seqTotal := 1, source := some (ascii "part") } (Fits maxPacketSize newline manyLines)
        ((commSendGCodeData (serverPeer (MarlinDriver.ops fun _ => 0) (fun _ => .error []) 0
          fun _ s => s.cancelAllTransactions none) manyLines 400
          (some { seqNumber := 0, seqTotal := 1, source := some (ascii "part") })).run
            { socketFd := 3, peer := { server := staleServer } }) := by
  have hothers : ∀ (n : ℕ) (s : Server MarlinDriver),
      ((s.cancelAllTransactions none).clients 0).map (·.buffer) = (s.clients 0).map (·.buffer) := by
    intro _ s
    cases h : s.clients 0 <;> simp [Server.cancelAllTransactions, h]
  have hzero : 0 ∉ manyLines := by decide +kernel
  have hargs : Sendable 400 0 1 (some (ascii "part")) :=
    ⟨by unfold IsInt32; decide, by unfold IsInt32; decide, by unfold IsInt32; decide, fun s hs => by
      cases hs
      decide⟩
  have hclient : staleServer.clients 0 ≠ none := nofun
  exact ⟨by decide +kernel, by decide +kernel, commSendGCodeData_transferred hothers hclient (by decide) rfl rfl
    (by decide +kernel) hzero hargs⟩

end Communicator
end Print3D
