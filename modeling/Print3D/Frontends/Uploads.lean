import Print3D.Frontends.Remote

/-! What the return value of `comm_sendGCodeData` says about the driver that the gcode is for. -/
namespace Print3D
open CommandHandler Chunks FixedWidth LengthPrefixed Effects

/-- The driver of a server, and whether the transaction of one of its clients is cancelled. -/
abbrev Standing (D : Type) := D × Bool

/-- What may happen to a server between two commands of a client: its driver and the flag of the client's
transaction become what `R` allows, and the text of the transaction stays. -/
def Server.Leaves {D : Type} (R : Standing D → Standing D → Prop) (client : ℕ) (s s' : Server D) : Prop :=
  ∀ trx, s.clients client = some trx → ∃ trx', s'.clients client = some trx' ∧ trx'.buffer = trx.buffer ∧
    R (s.driver, trx.cancelled) (s'.driver, trx'.cancelled)

/-- A relation that composes, and in which nothing cancelled is taken back. -/
structure Server.Ongoing {D : Type} (R : Standing D → Standing D → Prop) : Prop where
  refl : ∀ p, R p p
  trans : ∀ p q r, R p q → R q r → R p r
  cancelled : ∀ d p, R (d, true) p → p.2 = true

namespace Communicator

variable {D : Type} {ops : DriverOps D} {files : Option Text → Except Text Text} {client : ℕ}
  {others : ℕ → Server D → Server D} {c : Communicator (Session D)} {data : Text}
  {totalLines seqNum seqTtl : ℤ} {source : Option Text} {R : Standing D → Standing D → Prop}

/-! ### Replies -/

/-- A cancelled transaction hides the reply behind its own. -/
theorem response_notice (trx : Transaction) (reply : Text) (c : Communicator (Session D)) :
    (handleBasicResponse (some (notice trx ++ [reply]).flatten) 0).run c =
      if trx.cancelled then some (-3, { c with error := some transactionCancelledString })
      else (handleBasicResponse (some reply) 0).run c := by
  unfold notice
  split_ifs
  · have hflat : ([trxCancelled] ++ [reply]).flatten = trxCancelled ++ reply := by simp
    rw [hflat]
    exact response_cancelled reply
  · rw [List.nil_append, List.flatten_singleton]

/-- The result of a packet for a transaction, and the error that it sets. -/
def packetResult (cancelled : Bool) (gsr : GcodeSetResult) : ℤ :=
  if cancelled then -3 else if gsr = .ok then 0 else -2

def packetError (cancelled : Bool) (gsr : GcodeSetResult) (error : Option Text) : Option Text :=
  if cancelled then some transactionCancelledString
  else if gsr = .ok then error else some (ascii gsr.name)

theorem response_packet (trx : Transaction) (gsr : GcodeSetResult) (c : Communicator (Session D)) :
    (handleBasicResponse (some (notice trx ++
      [if gsr = .ok then okReply else addFailed gsr]).flatten) 0).run c =
      some (packetResult trx.cancelled gsr, { c with error := packetError trx.cancelled gsr c.error }) := by
  rw [response_notice]
  unfold packetResult packetError
  split_ifs with hcancelled hok
  · rfl
  · exact response_ok
  · exact response_addFailed gsr

/-! ### One packet -/

/-- What the server reads from a packet. -/
def packetChunk (data : Text) (firstPacket lastPacket : Prop) [Decidable firstPacket] [Decidable lastPacket]
    (totalLines seqNum seqTtl : ℤ) (source : Option Text) : Chunk :=
  { transactionFlags := trxBits firstPacket lastPacket
    totalLines := totalLines
    metaData := { seqNumber := seqNum, seqTotal := seqTtl, source := source.map cString }
    data := data }

theorem cancelled_addChunk (trx : Transaction) (chunk : Chunk) :
    (addChunk trx chunk).cancelled = trx.cancelled := by
  unfold addChunk
  split_ifs <;> rfl

theorem sendPacket_answered {bits : ℤ} {s : Server D} {calls : List DriverCall} (trx : Transaction)
    (gsr : GcodeSetResult) (h : Ready c) (hle : data.length ≤ maxPacketSize)
    (hargs : Sendable totalLines seqNum seqTtl source)
    (hexec : (c.peer.next others).exec ops files (.command client ipcCmdqGcodeAppend
      (payloads (packetArgs data bits totalLines seqNum seqTtl source)) []) =
        some (s, { sent := notice trx ++ [if gsr = .ok then okReply else addFailed gsr], calls := calls })) :
    ∃ p, p.server = s ∧
      (sendPacket (serverPeer ops files client others) data bits totalLines seqNum seqTtl source).run c =
        some (packetResult trx.cancelled gsr, { c with
          error := packetError trx.cancelled gsr c.error
          peer := p }) := by
  have henc := encodable_packetArgs bits hle hargs
  have hrun := sendPacket_run h.fd h.reads henc hexec (reply_ne_nil trx (lastReply_ne_nil gsr))
  exact ⟨_, rfl, hrun.trans (response_packet trx gsr _)⟩

/-- A transfer from `start` on, with the text `sofar` in the transaction; what has been returned so far
is `rv`. -/
structure Uploading (R : Standing D → Standing D → Prop) (client : ℕ) (start : Standing D) (sofar : Text)
    (firstPacket : Prop) (rv : ℤ) (c : Communicator (Session D)) : Prop where
  ready : Ready c
  transaction : ∃ trx, c.peer.server.clients client = some trx ∧ (¬ firstPacket → trx.buffer = sofar) ∧
    R start (c.peer.server.driver, trx.cancelled) ∧ (rv = 0 ∧ c.error = none ∨ rv = -3 ∧ trx.cancelled = true)

theorem Uploading.next {sofar : Text} {firstPacket : Prop} {start : Standing D} {rv : ℤ}
    (hothers : ∀ n s, Server.Leaves R client s (others n s)) (hR : Server.Ongoing R)
    (h : Uploading R client start sofar firstPacket rv c) :
    ∃ trx, (c.peer.next others).clients client = some trx ∧ (¬ firstPacket → trx.buffer = sofar) ∧
      R start ((c.peer.next others).driver, trx.cancelled) ∧
      (rv = 0 ∧ c.error = none ∨ rv = -3 ∧ trx.cancelled = true) := by
  obtain ⟨trx, htrx, hbuffer, hstart, hrv⟩ := h.transaction
  obtain ⟨trx', htrx', hbuffer', hnext⟩ := hothers c.peer.log.length c.peer.server trx htrx
  refine ⟨trx', htrx', fun hnot => hbuffer'.trans (hbuffer hnot), hR.trans _ _ _ hstart hnext, ?_⟩
  rcases hrv with hrv | ⟨hrv, hc⟩
  · exact .inl hrv
  · rw [hc] at hnext
    exact .inr ⟨hrv, hR.cancelled _ _ hnext⟩

theorem returned_packetResult {rv : ℤ} {error : Option Text} {cancelled : Bool} (gsr : GcodeSetResult)
    (h : rv = 0 ∧ error = none ∨ rv = -3 ∧ cancelled = true) :
    (if packetResult cancelled gsr ≥ 0 then rv else packetResult cancelled gsr) = packetResult cancelled gsr ∧
      packetError cancelled gsr error = packetError cancelled gsr none ∧ packetResult cancelled gsr ≠ -1 := by
  unfold packetResult packetError
  split_ifs with hcancelled hok <;> simp_all

/-- How a transfer of `text` ends that has started from `start`: with a driver that does not return from its
call, or with the result of that call, which a cancelled transaction hides. -/
def Uploaded (ops : DriverOps D) (R : Standing D → Standing D → Prop) (client : ℕ) (start : Standing D)
    (text : Text) (totalLines : ℤ) (metaData : MetaData) : Option (ℤ × Communicator (Session D)) → Prop
  | none => ∃ p, R start p ∧ ops.appendGCode p.1 text totalLines (some metaData) = none
  | some (rv, c) => Ready c ∧ ∃ p gsr, R start p ∧
      ops.appendGCode p.1 text totalLines (some metaData) = some (gsr, c.peer.server.driver) ∧
      c.peer.server.clients client = some { cancelled := p.2 } ∧
      rv = packetResult p.2 gsr ∧ c.error = packetError p.2 gsr none

section Packet

variable {sofar : Text} {firstPacket : Prop} [Decidable firstPacket] {start : Standing D} {rv : ℤ}
  (hothers : ∀ n s, Server.Leaves R client s (others n s)) (hR : Server.Ongoing R)
  (h : Uploading R client start sofar firstPacket rv c) (hfirst : firstPacket → sofar = [])
  (hargs : Sendable totalLines seqNum seqTtl source) (hdata : 0 ∉ data)
  (hle : data.length ≤ maxPacketSize) (lastPacket : Prop) [Decidable lastPacket]

include hothers hR h hfirst hargs hdata hle

theorem upload_kept (hlast : ¬ lastPacket) :
    ∃ result c', (sendPacket (serverPeer ops files client others) data (trxBits firstPacket lastPacket)
        totalLines seqNum seqTtl source).run c = some (result, c') ∧
      (if result ≥ 0 then rv else result) ≠ -1 ∧
      Uploading R client start (sofar ++ data) False (if result ≥ 0 then rv else result) c' := by
  obtain ⟨trx, htrx, hbuffer, hstart, hrv⟩ := h.next hothers hR
  obtain ⟨-, hbit, hbit'⟩ := trxBits_cases firstPacket lastPacket
  have henc := encodable_packetArgs (trxBits firstPacket lastPacket) hle hargs
  have hchunk : Chunk.ofArgs _ =
      some (packetChunk data firstPacket lastPacket totalLines seqNum seqTtl source) :=
    ofArgs_packetArgs firstPacket lastPacket hdata hargs
  obtain ⟨p, hserver, hrun⟩ := sendPacket_answered trx .ok h.ready hle hargs
    (Server.step_keptChunk htrx henc hchunk (hbit'.trans (decide_eq_false hlast))).2
  obtain ⟨hreturned, herror, hne⟩ := returned_packetResult .ok hrv
  refine ⟨_, _, hrun, ?_⟩
  rw [hreturned, herror]
  refine ⟨hne, ⟨h.ready.fd, h.ready.reads⟩, ?_⟩
  rw [hserver]
  refine ⟨_, Function.update_self .., fun _ => addChunk_packet hfirst hbit hbuffer, ?_⟩
  rw [cancelled_addChunk]
  refine ⟨hstart, ?_⟩
  unfold packetResult packetError
  cases trx.cancelled with
  | true => exact .inr ⟨rfl, rfl⟩
  | false => exact .inl ⟨rfl, rfl⟩

theorem upload_last (hlast : lastPacket) :
    ((sendPacket (serverPeer ops files client others) data (trxBits firstPacket lastPacket) totalLines
        seqNum seqTtl source).run c = none ∧ Uploaded ops R client start (sofar ++ data) totalLines
          { seqNumber := seqNum, seqTotal := seqTtl, source := source.map cString } none) ∨
      ∃ result c', (sendPacket (serverPeer ops files client others) data (trxBits firstPacket lastPacket)
          totalLines seqNum seqTtl source).run c = some (result, c') ∧
        Uploaded ops R client start (sofar ++ data) totalLines
          { seqNumber := seqNum, seqTotal := seqTtl, source := source.map cString }
          (some (if result ≥ 0 then rv else result, c')) := by
  obtain ⟨trx, htrx, hbuffer, hstart, hrv⟩ := h.next hothers hR
  obtain ⟨-, hbit, hbit'⟩ := trxBits_cases firstPacket lastPacket
  have henc := encodable_packetArgs (trxBits firstPacket lastPacket) hle hargs
  have hchunk : Chunk.ofArgs _ =
      some (packetChunk data firstPacket lastPacket totalLines seqNum seqTtl source) :=
    ofArgs_packetArgs firstPacket lastPacket hdata hargs
  have htext : (addChunk trx (packetChunk data firstPacket lastPacket totalLines seqNum seqTtl source)).buffer =
      sofar ++ data := addChunk_packet hfirst hbit hbuffer
  cases hcall : ops.appendGCode (c.peer.next others).driver (sofar ++ data) totalLines
      (some { seqNumber := seqNum, seqTotal := seqTtl, source := source.map cString }) with
  | none =>
    refine .inl ⟨sendPacket_none h.ready.fd henc ?_, _, hstart, hcall⟩
    have hexec : (c.peer.next others).exec ops files (.command client ipcCmdqGcodeAppend _ []) = _ :=
      Server.exec_lastChunk htrx henc hchunk (hbit'.trans (decide_eq_true hlast))
    rw [htext] at hexec
    exact hexec.trans (congrArg (Option.map _) hcall)
  | some r =>
    obtain ⟨gsr, driver⟩ := r
    right
    rw [← htext] at hcall
    obtain ⟨p, hserver, hrun⟩ := sendPacket_answered trx gsr h.ready hle hargs
      (Server.step_passedChunk htrx henc hchunk (hbit'.trans (decide_eq_true hlast)) hcall).2
    obtain ⟨hreturned, herror, -⟩ := returned_packetResult gsr hrv
    refine ⟨_, _, hrun, ?_⟩
    rw [hreturned, herror]
    refine ⟨⟨h.ready.fd, h.ready.reads⟩, _, gsr, hstart, ?_, ?_, rfl, rfl⟩
    · rw [hserver, ← htext]
      exact hcall
    · have hcancelled := cancelled_addChunk trx
        (packetChunk data firstPacket lastPacket totalLines seqNum seqTtl source)
      rw [hserver, ← hcancelled]
      exact Function.update_self ..

end Packet

/-! ### The loop -/

theorem uploaded_loop (hothers : ∀ n s, Server.Leaves R client s (others n s)) (hR : Server.Ongoing R)
    (hargs : Sendable totalLines seqNum seqTtl source) {start : Standing D} (n : ℕ) :
    ∀ {startP sofar : Text} {packetNum : ℕ} {rv : ℤ} {c : Communicator (Session D)},
    startP.length = n → startP ≠ [] → 0 ∉ startP → Chunks.Fits maxPacketSize newline startP → rv ≠ -1 →
    Uploading R client start sofar (packetNum = 0) rv c → (packetNum = 0 → sofar = []) →
    Uploaded ops R client start (sofar ++ startP) totalLines
      { seqNumber := seqNum, seqTotal := seqTtl, source := source.map cString }
      ((sendPackets (serverPeer ops files client others) totalLines seqNum seqTtl source startP packetNum
        rv).run c) := by
  induction n using Nat.strong_induction_on with
  | _ n ih =>
    intro startP sofar packetNum rv c hn hne hzero hfits hrv h hfirst
    have hsize : packetSize startP ≠ 0 := fun hsize => packetSize_eq_zero hne hsize hfits
    have htake : (startP.take (packetSize startP)).length = packetSize startP :=
      List.length_take_of_le (packetSize_le startP)
    have hdata : 0 ∉ startP.take (packetSize startP) := fun hmem => hzero (List.mem_of_mem_take hmem)
    have hle : (startP.take (packetSize startP)).length ≤ maxPacketSize :=
      htake.trans_le (packetSize_le_max startP)
    rw [sendPackets, if_neg hne, if_neg hsize]
    dsimp only
    by_cases hlast : packetSize startP = startP.length
    · have hdrop : startP.drop (packetSize startP) = [] := by rw [hlast, List.drop_length]
      have htext : sofar ++ startP.take (packetSize startP) = sofar ++ startP := by
        rw [hlast, List.take_length]
      rw [← htext]
      rcases upload_last hothers hR h hfirst hargs hdata hle (packetSize startP = startP.length) hlast with
        ⟨hrun, huploaded⟩ | ⟨result, c', hrun, huploaded⟩
      · rw [StateT.run_bind, hrun]
        exact huploaded
      · -- nothing is left, so that the loop ends with or without a break
        rw [run_bind_of_eq_some hrun, hdrop, sendPackets, if_pos rfl, ite_self]
        exact huploaded
    · obtain ⟨result, c', hrun, hrv', h'⟩ := upload_kept hothers hR h hfirst hargs hdata hle
        (packetSize startP = startP.length) hlast
      have hlt : packetSize startP < startP.length := lt_of_le_of_ne (packetSize_le startP) hlast
      have hdrop : startP.drop (packetSize startP) ≠ [] := fun hnil => by
        have := List.drop_eq_nil_iff.mp hnil
        omega
      have hrest : (startP.drop (packetSize startP)).length < n := by
        rw [List.length_drop]
        omega
      obtain ⟨trx, htrx, hbuffer, hstart⟩ := h'.transaction
      have hup : Uploading R client start (sofar ++ startP.take (packetSize startP)) (packetNum + 1 = 0) _ c' :=
        ⟨h'.ready, trx, htrx, fun _ => hbuffer not_false, hstart⟩
      have hnext := ih _ hrest rfl hdrop (fun hmem => hzero (List.mem_of_mem_drop hmem))
        ((fits_drop_packetSize hsize hlast).mpr hfits) hrv' hup
        (fun hnum => absurd hnum (Nat.succ_ne_zero packetNum))
      rw [run_bind_of_eq_some hrun, if_neg hrv']
      rwa [List.append_assoc, List.take_append_drop] at hnext

theorem uploaded {gcode : Text} {metadata : Option IpcGcodeMetadata} {trx : Transaction}
    (hothers : ∀ n s, Server.Leaves R client s (others n s)) (hR : Server.Ongoing R) (hready : Ready c)
    (htrx : c.peer.server.clients client = some trx) (hne : gcode ≠ []) (hzero : 0 ∉ gcode)
    (hfits : Chunks.Fits maxPacketSize newline gcode)
    (hargs : Sendable totalLines (metadata.elim (-1) (·.seqNumber)) (metadata.elim (-1) (·.seqTotal))
      (metadata.bind (·.source))) :
    Uploaded ops R client (c.peer.server.driver, trx.cancelled) gcode totalLines
      { seqNumber := metadata.elim (-1) (·.seqNumber)
        seqTotal := metadata.elim (-1) (·.seqTotal)
        source := (metadata.bind (·.source)).map cString }
      ((commSendGCodeData (serverPeer ops files client others) gcode totalLines metadata).run c) := by
  have hstart : Uploading R client (c.peer.server.driver, trx.cancelled) [] (0 = 0) 0
      { c with error := none } :=
    ⟨⟨hready.fd, hready.reads⟩, trx, htrx, fun hnot => absurd rfl hnot, hR.refl _, .inl ⟨rfl, rfl⟩⟩
  unfold commSendGCodeData
  rw [cString_of_notMem hzero, run_bind_of_eq_some rfl]
  exact uploaded_loop hothers hR hargs gcode.length rfl hne hzero hfits (by decide) hstart fun _ => rfl

/-- A transfer of gcode whose lines fit in packets, whatever happens between the packets: it returns 0 if and
only if the driver has taken the whole gcode and the transaction is not cancelled, -2 if the driver refuses
it. With -3 the driver has got the whole gcode all the same. -/
theorem commSendGCodeData_uploaded {gcode : Text} {metadata : Option IpcGcodeMetadata} {trx : Transaction}
    (hothers : ∀ n s, Server.Leaves R client s (others n s)) (hR : Server.Ongoing R) (hready : Ready c)
    (htrx : c.peer.server.clients client = some trx) (hne : gcode ≠ []) (hzero : 0 ∉ gcode)
    (hfits : Chunks.Fits maxPacketSize newline gcode)
    (hargs : Sendable totalLines (metadata.elim (-1) (·.seqNumber)) (metadata.elim (-1) (·.seqTotal))
      (metadata.bind (·.source))) :
    Uploaded ops R client (c.peer.server.driver, trx.cancelled) gcode totalLines
      { seqNumber := metadata.elim (-1) (·.seqNumber)
        seqTotal := metadata.elim (-1) (·.seqTotal)
        source := (metadata.bind (·.source)).map cString }
      ((commSendGCodeData (serverPeer ops files client others) gcode totalLines metadata).run c) :=
  uploaded hothers hR hready htrx hne hzero hfits hargs

/-- The other clients can cancel the transaction, and leave the driver alone. -/
def cancels (p q : Standing MarlinDriver) : Prop := q.1 = p.1 ∧ (p.2 = true → q.2 = true)

theorem ongoing_cancels : Server.Ongoing cancels where
  refl _ := ⟨rfl, id⟩
  trans _ _ _ h h' := ⟨h'.1.trans h.1, fun hp => h'.2 (h.2 hp)⟩
  cancelled _ _ h := h.2 rfl

theorem leaves_cancelAllTransactions (s : Server MarlinDriver) (client : ℕ) :
    Server.Leaves cancels client s (s.cancelAllTransactions none) := by
  intro trx htrx
  refine ⟨{ trx with cancelled := true }, ?_, rfl, rfl, fun _ => rfl⟩
  simp [Server.cancelAllTransactions, htrx]

theorem commSendGCodeData_uploaded_cancelled :
    Uploaded (MarlinDriver.ops fun _ => 0) cancels 0 ({}, false) (ascii "G1\nG2") (-1) {}
      ((commSendGCodeData (serverPeer (MarlinDriver.ops fun _ => 0) (fun _ => .error []) 0
        fun _ s => s.cancelAllTransactions none) (ascii "G1\nG2") (-1) none).run connected) := by
  have hready : Ready connected := ⟨by decide, rfl⟩
  have htrx : connected.peer.server.clients 0 = some {} := rfl
  exact commSendGCodeData_uploaded (fun _ s => leaves_cancelAllTransactions s 0) ongoing_cancels hready htrx
    (by decide) (by decide) (by decide)
    ⟨by unfold IsInt32; decide, by unfold IsInt32; decide, by unfold IsInt32; decide, fun _ h => by cases h⟩

end Communicator
end Print3D
