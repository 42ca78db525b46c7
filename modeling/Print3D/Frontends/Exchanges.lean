import Print3D.Frontends.Communicator
import Print3D.Library.Effects
import Print3D.Server.Requests

/-! Whether the calls of a client interpret the replies of the server one by one. -/
namespace Print3D
open Communicator CommandHandler Effects Transition

namespace Communicator

variable {σ : Type} {peer : Peer σ} {c c' c'' : Communicator σ}

/-! ### Calls as exchanges -/

/-- The connection, without the text of the last error. -/
def plain (c : Communicator σ) : Communicator σ := { c with error := none }

/-- A command is sent, and the buffer `l.2` comes back for it. -/
def Step (peer : Peer σ) (c : Communicator σ) (l : Text × Option Text) (c' : Communicator σ) : Prop :=
  0 ≤ c.socketFd ∧ ∃ error c₁,
    (sendAndReceiveData peer (some l.1)).run { c with error := error } = some (l.2, c₁) ∧ c' = c₁.plain

/-- From one state of an open connection `n` exchanges lead to the other. -/
def Exchanges (peer : Peer σ) (n : ℕ) (c c' : Communicator σ) : Prop :=
  0 ≤ c.socketFd → 0 ≤ c'.socketFd ∧ ∃ ls, ls.length = n ∧ Run (Step peer) c.plain ls c'.plain

theorem Exchanges.of_plain (h : c'.plain = c.plain) : Exchanges peer 0 c c' := by
  intro hopen
  have hfd : c'.plain.socketFd = c.plain.socketFd := by rw [h]
  refine ⟨hopen.trans_eq hfd.symm, [], rfl, ?_⟩
  rw [h]
  exact .nil _

theorem Exchanges.refl (c : Communicator σ) : Exchanges peer 0 c c := .of_plain rfl

theorem Exchanges.trans {m n : ℕ} (h : Exchanges peer m c c') (h' : Exchanges peer n c' c'') :
    Exchanges peer (m + n) c c'' := by
  intro hopen
  obtain ⟨hopen', ls, rfl, hls⟩ := h hopen
  obtain ⟨hopen'', ms, rfl, hms⟩ := h' hopen'
  exact ⟨hopen'', ls ++ ms, List.length_append, hls.append hms⟩

theorem within_local_bind {α β : Type} {n : ℕ} {m : Call σ α} {f : α → Call σ β}
    (hm : Within (Exchanges peer 0) m)
    (hf : ∀ a, Within (Exchanges peer n) (f a)) : Within (Exchanges peer n) (m >>= f) := by
  refine .comp (fun s t u h h' => ?_) hm hf
  rw [← Nat.zero_add n]
  exact h.trans h'

theorem within_bind_local {α β : Type} {n : ℕ} {m : Call σ α} {f : α → Call σ β}
    (hm : Within (Exchanges peer n) m)
    (hf : ∀ a, Within (Exchanges peer 0) (f a)) : Within (Exchanges peer n) (m >>= f) :=
  .comp (fun _ _ _ h h' => h.trans h') hm hf

theorem within_setError (message : Text) : Within (Exchanges peer 0) (setError message : Call σ Unit) :=
  .modify fun _ => .of_plain rfl

theorem within_clearError : Within (Exchanges peer 0) (clearError : Call σ Unit) :=
  .modify fun _ => .of_plain rfl

theorem send_eq {cmd : Text} {rv : ℤ} (h : (send peer cmd).run c = some (rv, c')) :
    ∃ reads state, peer cmd c.peer = some (rv, reads, state) ∧ c' = { c with
      reads := c.reads ++ reads
      peer := state } := by
  obtain ⟨c₀, c₁, hget, h⟩ := run_bind_eq_some h
  cases hget
  cases hpeer : peer cmd c.peer with
  | none =>
    rw [hpeer] at h
    cases h
  | some p =>
    obtain ⟨rv', reads, state⟩ := p
    rw [hpeer] at h
    cases h
    exact ⟨reads, state, rfl, rfl⟩

theorem receive_eq {rbuf : Option Text} (h : receive.run c = some (rbuf, c')) :
    ∃ rv buf reads, readAndAppendAvailableData ipcWaitTimeout true c.reads [] 0 = some (rv, buf, reads) ∧
      rbuf = (if buf = [] then none else some buf) ∧ c' = { c with reads := reads } := by
  obtain ⟨c₀, c₁, hget, h⟩ := run_bind_eq_some h
  cases hget
  cases hread : readAndAppendAvailableData ipcWaitTimeout true c.reads [] 0 with
  | none =>
    rw [hread] at h
    cases h
  | some p =>
    obtain ⟨rv, buf, reads⟩ := p
    rw [hread] at h
    cases h
    exact ⟨rv, buf, reads, rfl, rfl, rfl⟩

theorem sendAndReceiveData_cases {cmd : Text} {rbuf : Option Text} (hopen : 0 ≤ c.socketFd)
    (h : (sendAndReceiveData peer (some cmd)).run c = some (rbuf, c')) :
    ∃ rv c₁ error, (send peer cmd).run c = some (rv, c₁) ∧
      (rv < 0 ∧ rbuf = none ∧ c' = { c₁ with error := error } ∨
        0 ≤ rv ∧ receive.run { c₁ with error := error } = some (rbuf, c')) := by
  unfold sendAndReceiveData at h
  obtain ⟨c₀, c₁, hget, h⟩ := run_bind_eq_some h
  cases hget
  rw [if_neg (not_lt.mpr hopen)] at h
  obtain ⟨rv, c₁, hsend, h⟩ := run_bind_eq_some h
  split_ifs at h with hrv
  · cases h
    exact ⟨rv, c₁, _, hsend, .inl ⟨hrv, rfl, rfl⟩⟩
  · obtain ⟨_, c₂, hset, h⟩ := run_bind_eq_some h
    unfold setErrorIf at hset
    split_ifs at hset
    · cases hset
      exact ⟨rv, c₁, _, hsend, .inr ⟨not_lt.mp hrv, h⟩⟩
    · cases hset
      exact ⟨rv, c₁, c₁.error, hsend, .inr ⟨not_lt.mp hrv, h⟩⟩

theorem sendAndReceiveData_socketFd {cmd : Text} {rbuf : Option Text} (hopen : 0 ≤ c.socketFd)
    (h : (sendAndReceiveData peer (some cmd)).run c = some (rbuf, c')) : c'.socketFd = c.socketFd := by
  obtain ⟨rv, c₁, error, hsend, h⟩ := sendAndReceiveData_cases hopen h
  obtain ⟨reads, state, -, rfl⟩ := send_eq hsend
  rcases h with ⟨-, -, rfl⟩ | ⟨-, h⟩
  · rfl
  · obtain ⟨rv, buf, reads', -, -, rfl⟩ := receive_eq h
    rfl

theorem within_sendAndReceiveData (cmd : Text) :
    Within (Exchanges peer 1) (sendAndReceiveData peer (some cmd)) := by
  intro c rbuf c' h hopen
  have hfd := sendAndReceiveData_socketFd hopen h
  refine ⟨hopen.trans_eq hfd.symm, [(cmd, rbuf)], rfl, ?_⟩
  exact .cons ⟨hopen, c.error, c', h, rfl⟩ (.nil _)

/-- Memory is granted, so that a command that can be constructed is there. -/
theorem ipcVaConstructCmd_ok {code : ℕ} {args : List FormatArg} {r : Except ℤ Text}
    (h : ipcVaConstructCmd heap code args = some r) : ∃ cmd, r = .ok cmd := by
  obtain ⟨d, -, h⟩ := Option.bind_eq_some_iff.mp h
  rw [ipcCmdSet_eq heap_grants] at h
  obtain ⟨cmd, -, rfl⟩ := Option.map_eq_some_iff.mp h
  exact ⟨cmd, rfl⟩

theorem within_construct {α : Type} {n : ℕ} (code : ℕ) (args : List FormatArg) {f : Option Text → Call σ α}
    (hf : ∀ cmd, Within (Exchanges peer n) (f (some cmd))) :
    Within (Exchanges peer n)
      (liftM (ipcVaConstructCmd heap code args) >>= fun scmd => f scmd.toOption : Call σ α) := by
  intro c a c' h
  cases hcmd : ipcVaConstructCmd heap code args with
  | none =>
    rw [hcmd] at h
    cases h
  | some r =>
    obtain ⟨cmd, rfl⟩ := ipcVaConstructCmd_ok hcmd
    rw [run_lift_bind hcmd] at h
    exact hf cmd c a c' h

theorem within_lift_bind {α β : Type} {n : ℕ} (x : Option α) {f : α → Call σ β}
    (hf : ∀ a, Within (Exchanges peer n) (f a)) : Within (Exchanges peer n) (liftM x >>= f) :=
  within_local_bind (.lift Exchanges.refl x) hf

theorem within_handleBasicResponse (rcmd : Option Text) (expectedArgCount : ℤ) :
    Within (Exchanges peer 0) (handleBasicResponse rcmd expectedArgCount : Call σ ℤ) := by
  have hreport : ∀ (message : Text) (rv : ℤ),
      Within (Exchanges peer 0) (setError message >>= fun _ => pure rv : Call σ ℤ) :=
    fun message rv => within_local_bind (within_setError message) fun _ => .pure Exchanges.refl rv
  unfold handleBasicResponse
  cases rcmd with
  | none => exact .pure Exchanges.refl _
  | some rcmd =>
    refine within_lift_bind _ fun code => .ite (fun _ => ?_) fun _ => .ite (fun _ => ?_) fun _ =>
      .ite (fun _ => ?_) fun _ => .ite (fun _ => ?_) fun _ => .ite (fun _ => ?_) fun _ => ?_
    · exact within_lift_bind _ fun _ => .pure Exchanges.refl _
    · exact within_lift_bind _ fun _ => hreport _ _
    · exact within_lift_bind _ fun _ => within_lift_bind _ fun _ => hreport _ _
    · exact hreport _ _
    · exact hreport _ _
    · exact hreport _ _

theorem within_request (code : ℕ) (args : List FormatArg) :
    Within (Exchanges peer 1) (request peer code args) :=
  within_local_bind within_clearError fun _ => within_construct code args fun cmd =>
    within_sendAndReceiveData cmd

theorem within_requestPlain (code : ℕ) (args : List FormatArg) :
    Within (Exchanges peer 1) (requestPlain peer code args) :=
  within_bind_local (within_request code args) fun _ =>
    within_bind_local (within_handleBasicResponse _ 0) fun _ => .pure Exchanges.refl _

theorem within_requestValue {α : Type} (code : ℕ) (args : List FormatArg) (expectedArgCount : ℤ)
    (read : Text → Option (ℤ × Option α)) :
    Within (Exchanges peer 1) (requestValue peer code args expectedArgCount read) := by
  refine within_bind_local (within_request code args) fun rcmd => ?_
  refine within_bind_local (within_handleBasicResponse rcmd expectedArgCount) fun _ => ?_
  refine .ite (fun _ => ?_) fun _ => .pure Exchanges.refl _
  exact within_lift_bind _ fun _ => .lift Exchanges.refl _

theorem within_sendPacket (data : Text) (bits totalLines seqNum seqTtl : ℤ) (source : Option Text) :
    Within (Exchanges peer 1) (sendPacket peer data bits totalLines seqNum seqTtl source) := by
  refine within_construct _ _ (f := fun scmd => sendAndReceiveData peer scmd >>= fun rcmd =>
    handleBasicResponse rcmd 0) fun cmd => ?_
  exact within_bind_local (within_sendAndReceiveData cmd) fun rcmd => within_handleBasicResponse rcmd 0

theorem within_sendPackets (totalLines seqNum seqTtl : ℤ) (source : Option Text) (startP : Text) (packetNum : ℕ)
    (rv : ℤ) : Within (fun c c' => ∃ n, Exchanges peer n c c')
      (sendPackets peer totalLines seqNum seqTtl source startP packetNum rv) := by
  have hrefl : ∀ c : Communicator σ, ∃ n, Exchanges peer n c c := fun c => ⟨0, .refl c⟩
  fun_induction sendPackets peer totalLines seqNum seqTtl source startP packetNum rv with
  | case1 => exact .pure hrefl _
  | case2 => exact .pure hrefl _
  | case3 startP packetNum rv _ _ n ih =>
    refine .comp ?_ (within_sendPacket _ _ _ _ _ _) fun result => .ite (fun _ => .pure hrefl _) fun h => ih _ h
    exact fun _ _ _ h ⟨n, h'⟩ => ⟨1 + n, h.trans h'⟩

end Communicator

namespace CommCall

variable {σ : Type} {peer : Peer σ}

theorem within_map {α β : Type} {n : ℕ} (f : α → β) {m : Call σ α} (h : Within (Exchanges peer n) m) :
    Within (Exchanges peer n) (f <$> m) := by
  rw [map_eq_pure_bind]
  exact within_bind_local h fun _ => .pure Exchanges.refl _

/-- The calls that send one command. -/
def Single : CommCall → Prop
  | sendGCodeData .. => False
  | _ => True

theorem within_exec (call : CommCall) :
    Within (fun c c' => ∃ n, (call.Single → n = 1) ∧ Exchanges peer n c c') (call.exec peer) := by
  have hone : ∀ {m : Call σ ℤ}, Within (Exchanges peer 1) m →
      Within (fun c c' => ∃ n, (call.Single → n = 1) ∧ Exchanges peer n c c') m :=
    fun h => h.mono fun _ _ hc => ⟨1, fun _ => rfl, hc⟩
  cases call with
  | testCommand question => exact hone (within_map _ (within_requestValue _ _ _ _))
  | clearGCode => exact hone (within_requestPlain _ _)
  | startPrintGCode => exact hone (within_requestPlain _ _)
  | stopPrintGCode endCode => exact hone (within_requestPlain _ _)
  | sendGCodeFile file => exact hone (within_requestPlain _ _)
  | sendGCodeData gcode totalLines metadata =>
    have hclear : Within (Exchanges peer 0) clearError := within_clearError
    refine .comp ?_ hclear fun _ => within_sendPackets _ _ _ _ _ _ _
    exact fun _ _ _ h ⟨n, h'⟩ => ⟨0 + n, False.elim, h.trans h'⟩
  | getTemperature which => exact hone (within_map _ (within_requestValue _ _ _ _))
  | heatup temperature =>
    exact hone (within_bind_local (within_request _ _) fun _ => within_handleBasicResponse _ 0)
  | getProgress => exact hone (within_map _ (within_requestValue _ _ _ _))
  | getState => exact hone (within_map _ (within_requestValue _ _ _ _))

theorem execAll_exchanges {calls : List CommCall} {c c' : Communicator σ} {rvs : List ℤ}
    (hopen : 0 ≤ c.socketFd) (h : (execAll peer calls).run c = some (rvs, c')) :
    ∃ lss, List.Forall₂ (fun call ls => Single call → List.length ls = 1) calls lss ∧
      Run (Communicator.Step peer) c.plain lss.flatten c'.plain := by
  induction calls generalizing c rvs with
  | nil =>
    cases h
    exact ⟨[], .nil, .nil _⟩
  | cons call calls ih =>
    obtain ⟨rv, c₁, hcall, h⟩ := run_bind_eq_some h
    obtain ⟨rvs', c₂, hcalls, h⟩ := run_bind_eq_some h
    cases h
    obtain ⟨n, hn, hexchanges⟩ := within_exec call _ _ _ hcall
    obtain ⟨hopen', ls, hls, hrun⟩ := hexchanges hopen
    obtain ⟨lss, hlss, hrest⟩ := ih hopen' hcalls
    exact ⟨ls :: lss, .cons (fun hsingle => hls.trans (hn hsingle)) hlss, hrun.append hrest⟩

end CommCall

/-! ### Replies in pieces -/

/-- The most that one `read` asks for. -/
def readBufSize : ℕ := 1024

/-- A reply, and what the reads of the client find from then on until its next command. -/
structure Exchange where
  reply : Text
  arrivals : List ReadResult
  deriving DecidableEq

/-- The bytes that some reads find. -/
def bytesOf (reads : List ReadResult) : Text := reads.flatMap fun
  | .data bytes => bytes
  | _ => []

/-- What the first read that finds bytes finds. -/
def firstRead : List ReadResult → Option Text
  | [] => none
  | .data bytes :: _ => some bytes
  | _ :: reads => firstRead reads

/-- A server that sends these replies, one for each command. -/
def script : Peer (List Exchange) := fun cmd xs => match xs with
  | [] => none
  | x :: xs => some (cmd.length, x.arrivals, xs)

/-- Reads that find bytes, or wait for them, or are interrupted. -/
inductive Arriving : List ReadResult → Prop
  | nil : Arriving []
  | data {bytes : Text} {reads : List ReadResult} : bytes ≠ [] → bytes.length ≤ readBufSize → Arriving reads →
      Arriving (.data bytes :: reads)
  | waits {reads : List ReadResult} : Arriving reads → Arriving (.wouldBlock true :: reads)
  | interrupted {reads : List ReadResult} : Arriving reads → Arriving (.interrupted :: reads)

/-- The replies are messages, and reads find their bytes in order, in pieces that begin and end
anywhere; `held` is what has been sent and not been found yet. -/
inductive Fragments : Text → List Exchange → Prop
  | nil (held : Text) : Fragments held []
  | cons {held held' : Text} {x : Exchange} {xs : List Exchange} : Client.WellFormed x.reply →
      Arriving x.arrivals → bytesOf x.arrivals ++ held' = held ++ x.reply → Fragments held' xs →
      Fragments held (x :: xs)

/-- The reply is there as a whole for the first read. -/
def Exchange.Whole (x : Exchange) : Prop := firstRead x.arrivals = some x.reply

/-- The buffer is the reply, which is complete wherever it lies, and no reader leaves it. -/
structure Exchange.Framed (x : Exchange) (rbuf : Option Text) : Prop where
  received : rbuf = some x.reply
  complete : ∀ b : Placement, x.reply.length = b.size → b.ipcCmdIsComplete x.reply = some (x.reply.length : ℤ)
  inside : (ipcCmdGet x.reply).isSome ∧ (ipcCmdNumArgs x.reply).isSome ∧
    ∀ b : Placement, x.reply.length = b.size →
      ∀ argidx addzero, (b.ipcCmdGetArg x.reply heap argidx addzero).isSome

variable {reads reads' : List ReadResult} {buf : Text}

theorem Arriving.append (h : Arriving reads) (h' : Arriving reads') : Arriving (reads ++ reads') := by
  induction h with
  | nil => exact h'
  | data hne hle _ ih => exact .data hne hle ih
  | waits _ ih => exact .waits ih
  | interrupted _ ih => exact .interrupted ih

theorem Arriving.readOnce (hreads : Arriving reads) {timeout : ℕ} {rv total : ℤ} (ht : 0 < timeout)
    (h : readAndAppendAvailableData timeout true reads [] total = some (rv, buf, reads')) :
    firstRead reads = some buf ∧ buf ≠ [] ∧ bytesOf reads = buf ++ bytesOf reads' ∧ Arriving reads' := by
  induction hreads with
  | nil => cases h
  | data hne _ hrest _ =>
    cases h
    exact ⟨rfl, hne, rfl, hrest⟩
  | waits _ ih =>
    rw [readAndAppendAvailableData, if_pos ⟨ht, rfl⟩] at h
    exact ih h
  | interrupted _ ih => exact ih h

theorem Arriving.firstRead_append (h : Arriving reads) (hnone : bytesOf reads = []) :
    firstRead (reads ++ reads') = firstRead reads' := by
  induction h with
  | nil => rfl
  | data hne _ _ _ => exact absurd (List.append_eq_nil_iff.mp hnone).1 hne
  | waits _ ih => exact ih hnone
  | interrupted _ ih => exact ih hnone

/-- A message is read to its end by all readers. -/
theorem framed_iff {x : Exchange} (h : Client.WellFormed x.reply) {rbuf : Option Text} :
    x.Framed rbuf ↔ rbuf = some x.reply := by
  constructor
  · exact fun hframed => hframed.received
  · intro hreceived
    obtain ⟨code, args, henc, he⟩ := h
    have hdecodes : ∀ b : Placement, x.reply.length = b.size →
        b.Decodes heap x.reply x.reply.length code args := by
      intro b hsize
      rw [he] at hsize ⊢
      have hdecodes := Placement.decodes_encode heap_grants henc (r := []) (by rwa [List.append_nil])
      rwa [List.append_nil] at hdecodes
    have hget := ipcCmdGet_encode henc []
    have hnum := ipcCmdNumArgs_encode henc []
    rw [List.append_nil, ← he] at hget hnum
    refine ⟨hreceived, fun b hsize => (hdecodes b hsize).complete, ?_, ?_, fun b hsize argidx addzero => ?_⟩
    · rw [hget]
      rfl
    · rw [hnum]
      rfl
    · by_cases hi : argidx < args.length
      · rw [(hdecodes b hsize).arg argidx hi addzero (.inr rfl)]
        rfl
      · rw [((hdecodes b hsize).beyond argidx (not_lt.mp hi)).1 addzero]
        rfl

theorem step_script {c c' : Communicator (List Exchange)} {l : Text × Option Text} (h : Step script c l c')
    (hreads : ∀ x ∈ c.peer, Arriving x.arrivals) (hrest : Arriving c.reads) :
    ∃ x xs bytes, c.peer = x :: xs ∧ c'.peer = xs ∧ l.2 = some bytes ∧
      firstRead (c.reads ++ x.arrivals) = some bytes ∧
      bytesOf c.reads ++ bytesOf x.arrivals = bytes ++ bytesOf c'.reads ∧ Arriving c'.reads := by
  obtain ⟨hopen, error, c₁, hrun, rfl⟩ := h
  obtain ⟨rv, c₂, error', hsend, h⟩ := sendAndReceiveData_cases (c := { c with error := error }) hopen hrun
  obtain ⟨reads, state, hpeer, rfl⟩ := send_eq hsend
  cases hxs : c.peer with
  | nil =>
    dsimp only at hpeer
    rw [hxs] at hpeer
    cases hpeer
  | cons x xs =>
    dsimp only at hpeer
    rw [hxs] at hpeer
    cases hpeer
    rcases h with ⟨hneg, -⟩ | ⟨-, h⟩
    · exact absurd hneg (not_lt.mpr (Int.natCast_nonneg _))
    · obtain ⟨rv, buf, reads', hread, hbuf, rfl⟩ := receive_eq h
      have harriving := hrest.append (hreads x (hxs ▸ List.mem_cons_self ..))
      obtain ⟨hfirst, hne, hbytes, hleft⟩ := harriving.readOnce (by decide) hread
      rw [if_neg hne] at hbuf
      have happend : bytesOf (c.reads ++ x.arrivals) = bytesOf c.reads ++ bytesOf x.arrivals :=
        List.flatMap_append
      exact ⟨x, _, buf, rfl, rfl, hbuf, hfirst, happend.symm.trans hbytes, hleft⟩

theorem Fragments.arriving {held : Text} {xs : List Exchange} (h : Fragments held xs) :
    ∀ x ∈ xs, Arriving x.arrivals := by
  induction h with
  | nil => exact nofun
  | cons _ harriving _ _ ih =>
    intro x hx
    rcases List.mem_cons.mp hx with rfl | hx
    · exact harriving
    · exact ih x hx

/-- As long as nothing is left over, a buffer is the reply to its command if and only if that has been
there as a whole. -/
theorem run_framed_iff {c c' : Communicator (List Exchange)} {ls : List (Text × Option Text)}
    (h : Run (Step script) c ls c') (hreads : Arriving c.reads) (hnone : bytesOf c.reads = [])
    (hscript : Fragments [] c.peer) :
    List.Forall₂ Exchange.Framed (c.peer.take ls.length) (ls.map (·.2)) ↔
      ∀ x ∈ c.peer.take ls.length, x.Whole := by
  induction h with
  | nil => exact iff_of_true .nil nofun
  | @cons c c₁ c' l ls hstep _ ih =>
    obtain ⟨x, xs, bytes, hpeer, hpeer', hl, hfirst, hbytes, hleft⟩ := step_script hstep hscript.arriving hreads
    rw [hpeer] at hscript ⊢
    cases hscript with
    | @cons _ held _ _ hwell harriving hheld hscript =>
      rw [hreads.firstRead_append hnone] at hfirst
      rw [hnone, List.nil_append] at hbytes
      rw [List.nil_append] at hheld
      have hhead : x.Framed l.2 ↔ x.Whole := by
        rw [framed_iff hwell, hl, Exchange.Whole, hfirst]
      rw [List.length_cons, List.take_succ_cons, List.map_cons, List.forall₂_cons, List.forall_mem_cons, hhead]
      refine and_congr_right fun hwhole => ?_
      have hreply : bytes = x.reply := Option.some.inj (hfirst.symm.trans hwhole)
      have hover : bytesOf c₁.reads ++ held = [] := by
        rw [hbytes, hreply, List.append_assoc] at hheld
        exact List.append_right_eq_self.mp hheld
      obtain ⟨hnone₁, rfl⟩ := List.append_eq_nil_iff.mp hover
      rw [← hpeer'] at hscript ⊢
      exact ih hleft hnone₁ hscript

theorem step_read {c : Communicator (List Exchange)} {x : Exchange} {xs : List Exchange} {rv : ℤ} {bytes : Text}
    {reads : List ReadResult} (cmd : Text) (hopen : 0 ≤ c.socketFd) (hpeer : c.peer = x :: xs)
    (hreads : c.reads = [])
    (hread : readAndAppendAvailableData ipcWaitTimeout true x.arrivals [] 0 = some (rv, bytes, reads))
    (hne : bytes ≠ []) :
    Step script c (cmd, some bytes) { socketFd := c.socketFd, reads := reads, peer := xs } := by
  let c₁ : Communicator (List Exchange) := { c with
    reads := x.arrivals
    peer := xs }
  have hsend : (send script cmd).run c = some ((cmd.length : ℤ), c₁) := by
    unfold send
    rw [run_bind_of_eq_some rfl, run_lift_bind (a := ((cmd.length : ℤ), x.arrivals, xs))
      (by rw [hpeer, script]), hreads]
    rfl
  have hreceive : receive.run c₁ = some (some bytes, { c₁ with reads := reads }) := by
    unfold receive
    rw [run_bind_of_eq_some rfl, run_lift_bind hread]
    dsimp only
    rw [if_neg hne]
    rfl
  refine ⟨hopen, c.error, { c₁ with reads := reads }, ?_, rfl⟩
  unfold sendAndReceiveData setErrorIf
  rw [run_bind_of_eq_some rfl, if_neg (not_lt.mpr hopen)]
  dsimp only
  rw [run_bind_of_eq_some hsend, if_neg (by omega), if_neg (by omega), pure_bind, hreceive]

/-- Calls on a new connection are sequences of exchanges, of one if they send one command; and the buffers in
these are the replies, one by one, if and only if every reply is there as a whole for the first read. -/
theorem replies_framed_iff {fd : ℤ} {xs : List Exchange} (hopen : 0 ≤ fd) (hscript : Fragments [] xs) :
    (∀ calls rvs c, (CommCall.execAll script calls).run { socketFd := fd, peer := xs } = some (rvs, c) →
      ∃ lss, List.Forall₂ (fun call ls => CommCall.Single call → List.length ls = 1) calls lss ∧
        Run (Step script) { socketFd := fd, peer := xs } lss.flatten c.plain) ∧
    ∀ ls c, Run (Step script) { socketFd := fd, peer := xs } ls c →
      (List.Forall₂ Exchange.Framed (xs.take ls.length) (ls.map (·.2)) ↔ ∀ x ∈ xs.take ls.length, x.Whole) := by
  refine ⟨fun calls rvs c hrun => ?_, fun ls c hrun => run_framed_iff hrun .nil rfl hscript⟩
  exact CommCall.execAll_exchanges hopen hrun

private def stateIdle : Text := encode ipcCmdrOk [ascii "idle"]

/-- Three replies: one that has to be waited for, one whose read is interrupted, and one that refuses. -/
private def threeReplies : List Exchange :=
  [⟨okReply, [.wouldBlock true, .data okReply]⟩,
    ⟨stateIdle, [.interrupted, .wouldBlock true, .data stateIdle]⟩,
    ⟨retryLater, [.data retryLater]⟩]

private def threeCalls : List CommCall := [.clearGCode, .getState, .sendGCodeFile (ascii "/tmp/part.gcode")]

set_option maxRecDepth 4000 in
theorem replies_framed_iff_clear :
    (∃ lss, List.Forall₂ (fun call ls => CommCall.Single call → List.length ls = 1) threeCalls lss ∧
      Run (Step script) { socketFd := 3, peer := threeReplies } lss.flatten { socketFd := 3, peer := [] }) ∧
    List.Forall₂ Exchange.Framed threeReplies [some okReply, some stateIdle, some retryLater] := by
  have hok : Client.WellFormed okReply := ⟨ipcCmdrOk, [], ⟨by decide, by decide, by decide⟩, rfl⟩
  have hstate : Client.WellFormed stateIdle :=
    ⟨ipcCmdrOk, [ascii "idle"], ⟨by decide, by decide, by decide⟩, rfl⟩
  have hretry : Client.WellFormed retryLater :=
    ⟨ipcCmdrRetryLater, [ascii "transaction in progress"], ⟨by decide, by decide, by decide⟩, rfl⟩
  have hscript : Fragments [] threeReplies := by
    refine .cons hok (.waits (.data (by decide) (by decide) .nil)) rfl ?_
    refine .cons hstate (.interrupted (.waits (.data (by decide) (by decide) .nil))) rfl ?_
    exact .cons hretry (.data (by decide) (by decide) .nil) rfl (.nil [])
  have hopen : (0 : ℤ) ≤ 3 := by decide
  refine ⟨(replies_framed_iff hopen hscript).1 threeCalls [0, 0, -4]
    { socketFd := 3, peer := [], error := some retryLaterString } rfl, ?_⟩
  have hrun : Run (Step script) { socketFd := 3, peer := threeReplies }
      [(encode ipcCmdqGcodeClear [], some okReply), (encode ipcCmdqGetState [], some stateIdle),
        (encode ipcCmdqGcodeAppendFile [ascii "/tmp/part.gcode"], some retryLater)]
      { socketFd := 3, peer := [] } := by
    refine .cons (step_read _ hopen rfl rfl rfl (by decide)) ?_
    refine .cons (step_read _ hopen rfl rfl rfl (by decide)) ?_
    exact .cons (step_read _ hopen rfl rfl rfl (by decide)) (.nil _)
  exact ((replies_framed_iff hopen hscript).2 _ _ hrun).mpr fun x hx => by
    simp only [threeReplies, List.length_cons, List.length_nil, List.take_succ_cons, List.take_zero,
      List.mem_cons, List.not_mem_nil, or_false] at hx
    rcases hx with rfl | rfl | rfl <;> rfl

/-- The answer to a question of a thousand letters. -/
private def longAnswer : Text := encode ipcCmdrOk [testAnswer (List.replicate 1000 97)]

private theorem longAnswer_length : longAnswer.length = 1051 := by
  rw [longAnswer, encode_length, LengthPrefixed.fields_cons, LengthPrefixed.fields_nil, List.append_nil,
    LengthPrefixed.field_length, testAnswer, List.length_append, List.length_append, List.length_replicate]
  rfl

/-- It does not fit a read. -/
theorem not_framed_longAnswer : ¬ ∀ xs ls c, Fragments [] xs →
    Run (Step script) { socketFd := 3, peer := xs } ls c →
    List.Forall₂ Exchange.Framed (xs.take ls.length) (ls.map (·.2)) := by
  intro h
  have hlength := longAnswer_length
  have hwell : Client.WellFormed longAnswer := by
    refine ⟨ipcCmdrOk, [testAnswer (List.replicate 1000 97)], ⟨by decide, by decide, ?_⟩, rfl⟩
    exact hlength.trans_lt (by decide)
  have hne : longAnswer.take readBufSize ≠ [] := by
    refine List.ne_nil_of_length_pos ?_
    rw [List.length_take, hlength]
    decide
  have hne' : longAnswer.drop readBufSize ≠ [] := by
    refine List.ne_nil_of_length_pos ?_
    rw [List.length_drop, hlength]
    decide
  let x : Exchange := ⟨longAnswer, [.data (longAnswer.take readBufSize), .data (longAnswer.drop readBufSize)]⟩
  have hscript : Fragments [] [x] := by
    refine @Fragments.cons [] [] x [] hwell (.data hne ?_ (.data hne' ?_ .nil)) ?_ (.nil [])
    · exact List.length_take_le ..
    · rw [List.length_drop, hlength]
      decide
    · rw [List.append_nil, List.nil_append]
      change longAnswer.take readBufSize ++ (longAnswer.drop readBufSize ++ []) = longAnswer
      rw [List.append_nil, List.take_append_drop]
  have hstep : Step script { socketFd := 3, peer := [x] }
      (encode ipcCmdqTest [List.replicate 1000 97], some (longAnswer.take readBufSize)) _ :=
    step_read _ (by decide) rfl rfl rfl hne
  have hframed := h [x] _ _ hscript (.cons hstep (.nil _))
  have hreceived := (List.forall₂_cons.mp hframed).1.received
  have hlengths := congrArg List.length (Option.some.inj hreceived)
  rw [List.length_take, hlength] at hlengths
  exact absurd hlengths (by decide)

end Print3D
