import Print3D.Server.Frame

/-! What a stop or a clear does to the transactions of the other clients, and what their
later commands still do. -/
namespace Print3D
open CommandHandler

namespace Server

variable {D : Type} {ops : DriverOps D} {files : Option Text → Except Text Text}
  {s s' : Server D} {o o' : Output} {client code : ℕ} {args : List Text} {rest : Text} {trx : Transaction}

/-! ### Cancelled transactions stay cancelled -/

/-- The clients of `q` are clients of `p`, and those that were cancelled still are. -/
def Keeps (p q : Server D × Output) : Prop :=
  q.1.accepted = p.1.accepted ∧ ∀ c trx', q.1.clients c = some trx' →
    ∃ trx, p.1.clients c = some trx ∧ (trx.cancelled = true → trx'.cancelled = true)

theorem Keeps.refl (p : Server D × Output) : Keeps p p := ⟨rfl, fun _ trx' h => ⟨trx', h, id⟩⟩

theorem Keeps.trans (p q r : Server D × Output) (h : Keeps p q) (h' : Keeps q r) : Keeps p r := by
  refine ⟨h'.1.trans h.1, fun c trx'' hc => ?_⟩
  obtain ⟨trx', hc', hcancelled'⟩ := h'.2 c trx'' hc
  obtain ⟨trx, hc, hcancelled⟩ := h.2 c trx' hc'
  exact ⟨trx, hc, fun ht => hcancelled' (hcancelled ht)⟩

theorem Keeps.of_clients_eq {p q : Server D × Output} (hc : q.1.clients = p.1.clients)
    (ha : q.1.accepted = p.1.accepted) : Keeps p q :=
  ⟨ha, fun c trx' h => ⟨trx', by rwa [← hc], id⟩⟩

theorem Keeps.cancelAll (s : Server D) (o : Output) (exclude : Option ℕ) :
    Keeps (s, o) (s.cancelAllTransactions exclude, o) := by
  refine ⟨rfl, fun c trx' hc => ?_⟩
  unfold cancelAllTransactions at hc
  dsimp only at hc
  split_ifs at hc
  · exact ⟨trx', hc, id⟩
  · obtain ⟨trx, htrx, rfl⟩ := Option.map_eq_some_iff.mp hc
    exact ⟨trx, htrx, fun _ => rfl⟩

theorem Keeps.setTransaction (htrx : s.clients client = some trx) {trx' : Transaction}
    (h : trx'.cancelled = trx.cancelled) (hs : s'.clients = s.clients) (ha : s'.accepted = s.accepted) :
    Keeps (s, o) (s'.setTransaction client trx', o') := by
  refine ⟨ha, fun c trx'' hc => ?_⟩
  change Function.update s'.clients client (some trx') c = some trx'' at hc
  by_cases hcl : c = client
  · subst hcl
    rw [Function.update_self, Option.some.injEq] at hc
    subst hc
    exact ⟨trx, htrx, fun ht => h.trans ht⟩
  · rw [Function.update_of_ne hcl, hs] at hc
    exact ⟨trx'', hc, id⟩

theorem addChunk_cancelled (trx : Transaction) (chunk : Chunk) :
    (addChunk trx chunk).cancelled = trx.cancelled := by
  unfold addChunk
  dsimp only
  split_ifs <;> rfl

theorem keeps_frame : Frame (D := D) Keeps fun _ => True where
  refl := Keeps.refl
  trans := Keeps.trans
  send _ _ _ := .of_clients_eq rfl rfl
  cancelAll s o exclude := .cancelAll s o exclude
  call _ _ _ _ _ := .of_clients_eq rfl rfl

theorem command_keeps (hclient : s.clients client ≠ none) (h : Encodable code args)
    (hexec : s.exec ops files (.command client code args rest) = some (s', o)) : Keeps (s, {}) (s', o) := by
  by_cases hcode : code = ipcCmdqGcodeAppend
  · subst hcode
    obtain ⟨trx, htrx⟩ := Option.ne_none_iff_exists'.mp hclient
    rcases append_cases htrx h hexec with ⟨-, rfl, rfl⟩ |
      ⟨chunk, -, ⟨-, rfl, rfl⟩ | ⟨-, gsr, driver, -, rfl, rfl⟩⟩
    · exact .of_clients_eq rfl rfl
    · exact .setTransaction htrx (addChunk_cancelled trx chunk) rfl rfl
    · exact .setTransaction htrx (addChunk_cancelled trx chunk) rfl rfl
  · exact keeps_frame.command (fun _ _ => trivial) (fun _ _ => trivial) hcode h hexec

/-- The commands that cancel the transactions of the other clients. -/
def Cancels (code : ℕ) : Prop := code = ipcCmdqGcodeStopprint ∨ code = ipcCmdqGcodeClear

theorem cancels_others (hcode : Cancels code) (h : Encodable code args)
    (hexec : s.exec ops files (.command client code args rest) = some (s', o)) {c : ℕ} (hc : c ≠ client)
    (htrx : s'.clients c = some trx) : trx.cancelled = true := by
  have hclients : s'.clients = (s.cancelAllTransactions (some client)).clients := by
    rcases hcode with rfl | rfl
    · rw [exec_gcodeStopPrint h] at hexec
      obtain ⟨p, -, he⟩ := Option.map_eq_some_iff.mp hexec
      cases he
      rfl
    · rw [exec_gcodeClear h] at hexec
      obtain ⟨driver, -, he⟩ := Option.map_eq_some_iff.mp hexec
      cases he
      rfl
  rw [hclients] at htrx
  unfold cancelAllTransactions at htrx
  dsimp only at htrx
  rw [if_neg fun heq => hc (Option.some.inj heq).symm] at htrx
  obtain ⟨trx₁, -, rfl⟩ := Option.map_eq_some_iff.mp htrx
  rfl

/-! ### Runs -/

/-- A client that is cancelled for as long as it stays connected. -/
def Cancelled (c : ℕ) (s : Server D) : Prop :=
  c < s.accepted ∧ ∀ trx, s.clients c = some trx → trx.cancelled = true

theorem numbered_step (s : Server D) (l : ServerEvent × Output) (s' : Server D)
    (h : ∀ c, s.clients c ≠ none → c < s.accepted) (hstep : s.Step ops files l s') :
    ∀ c, s'.clients c ≠ none → c < s'.accepted := by
  obtain ⟨e, o⟩ := l
  obtain ⟨hvalid, hexec⟩ := hstep
  intro c hc
  cases e with
  | connect =>
    cases hexec
    change Function.update s.clients s.accepted (some {}) c ≠ none at hc
    change c < s.accepted + 1
    by_cases hca : c = s.accepted
    · omega
    · rw [Function.update_of_ne hca] at hc
      exact Nat.lt_succ_of_lt (h c hc)
  | disconnect client =>
    cases hexec
    change Function.update s.clients client none c ≠ none at hc
    by_cases hca : c = client
    · rw [hca, Function.update_self] at hc
      exact absurd rfl hc
    · rw [Function.update_of_ne hca] at hc
      exact h c hc
  | command client code args rest =>
    have hkeeps := command_keeps hvalid.1 hvalid.2 hexec
    obtain ⟨trx', htrx'⟩ := Option.ne_none_iff_exists'.mp hc
    obtain ⟨trx, htrx, -⟩ := hkeeps.2 c trx' htrx'
    have hlt := h c (by rw [htrx]; exact Option.some_ne_none trx)
    rwa [← hkeeps.1] at hlt

theorem cancelled_step {c : ℕ} (s : Server D) (l : ServerEvent × Output) (s' : Server D)
    (h : Cancelled c s) (hstep : s.Step ops files l s') : Cancelled c s' := by
  obtain ⟨e, o⟩ := l
  obtain ⟨hvalid, hexec⟩ := hstep
  obtain ⟨hlt, hcancelled⟩ := h
  cases e with
  | connect =>
    cases hexec
    refine ⟨Nat.lt_succ_of_lt hlt, fun trx htrx => hcancelled trx ?_⟩
    change Function.update s.clients s.accepted (some {}) c = some trx at htrx
    rwa [Function.update_of_ne (Nat.ne_of_lt hlt)] at htrx
  | disconnect client =>
    cases hexec
    refine ⟨hlt, fun trx htrx => ?_⟩
    change Function.update s.clients client none c = some trx at htrx
    by_cases hca : c = client
    · rw [hca, Function.update_self] at htrx
      cases htrx
    · rw [Function.update_of_ne hca] at htrx
      exact hcancelled trx htrx
  | command client code args rest =>
    have hkeeps := command_keeps hvalid.1 hvalid.2 hexec
    refine ⟨hlt.trans_eq hkeeps.1.symm, fun trx' htrx' => ?_⟩
    obtain ⟨trx, htrx, hkept⟩ := hkeeps.2 c trx' htrx'
    exact hkept (hcancelled trx htrx)

/-- An append that is turned away: its transaction is cancelled, it is told so, and the driver
is left alone. -/
structure Refused (s : Server D) (client : ℕ) (o : Output) (s' : Server D) : Prop where
  cancelled : ∃ trx, s.clients client = some trx ∧ trx.cancelled = true
  answered : o.sent.head? = some trxCancelled
  calls : o.calls = []
  driver : s'.driver = s.driver

/-- Whether the flags of a command have the bit of the last chunk; without flags it counts as
having it. -/
def carriesLastChunk (args : List Text) : Bool :=
  (args[1]?.elim (some 3) readShort).any fun flags => hasBit flags trxLastChunkBit

theorem carriesLastChunk_eq {chunk : Chunk} (h : Chunk.ofArgs args = some chunk) :
    carriesLastChunk args = chunk.last := by
  obtain ⟨flags, hflags, h⟩ := Option.bind_eq_some_iff.mp h
  obtain ⟨totalLines, -, h⟩ := Option.bind_eq_some_iff.mp h
  obtain ⟨seqNumber, -, h⟩ := Option.bind_eq_some_iff.mp h
  obtain ⟨seqTotal, -, h⟩ := Option.bind_eq_some_iff.mp h
  obtain ⟨data, -, h⟩ := Option.bind_eq_some_iff.mp h
  cases h
  rw [carriesLastChunk, hflags]
  rfl

/-- What is wanted of all runs: after a stop or clear of one client, the appends of the others
are turned away. -/
def CancellationSafe (ops : DriverOps D) (files : Option Text → Except Text Text) (driver : D) : Prop :=
  ∀ (before between : List (ServerEvent × Output)) (s₁ s₂ s₃ s₄ : Server D) (a b code : ℕ)
    (stopArgs args : List Text) (stopRest rest : Text) (stopped out : Output),
    Transition.Run (Step ops files) { driver := driver } before s₁ →
    Cancels code → s₁.Step ops files (.command a code stopArgs stopRest, stopped) s₂ →
    Transition.Run (Step ops files) s₂ between s₃ →
    s₁.clients b ≠ none → b ≠ a →
    s₃.Step ops files (.command b ipcCmdqGcodeAppend args rest, out) s₄ → Refused s₃ b out s₄

theorem refused_iff (hcancelled : ∀ trx, s.clients client = some trx → trx.cancelled = true)
    (hstep : s.Step ops files (.command client ipcCmdqGcodeAppend args rest, o) s') :
    Refused s client o s' ↔ args ≠ [] ∧ carriesLastChunk args = false := by
  obtain ⟨trx, htrx⟩ := Option.ne_none_iff_exists'.mp hstep.1.1
  have hnotice : notice trx = [trxCancelled] := if_pos (hcancelled trx htrx)
  rcases append_cases htrx hstep.1.2 hstep.2 with ⟨rfl, rfl, rfl⟩ |
    ⟨chunk, hchunk, ⟨hlast, rfl, rfl⟩ | ⟨hlast, gsr, driver, -, rfl, rfl⟩⟩
  · constructor
    · intro h
      exact absurd (Option.some.inj h.answered) (by decide)
    · exact fun h => absurd rfl h.1
  · constructor
    · intro _
      refine ⟨?_, (carriesLastChunk_eq hchunk).trans hlast⟩
      rintro rfl
      cases hchunk
    · exact fun _ => ⟨⟨trx, htrx, hcancelled trx htrx⟩, by rw [hnotice]; rfl, rfl, rfl⟩
  · constructor
    · intro h
      cases h.calls
    · intro h
      rw [carriesLastChunk_eq hchunk, hlast] at h
      cases h.2

/-- After a stop or clear of client `a`, in every run, the later appends of a client `b` that
was connected then are turned away exactly if they have an argument and are not the last chunk
of their transaction. -/
theorem append_after_stop_refused_iff {driver : D} {before between : List (ServerEvent × Output)}
    {s₁ s₂ s₃ s₄ : Server D} {a b : ℕ} {stopArgs : List Text} {stopRest : Text} {stopped out : Output}
    (hbefore : Transition.Run (Step ops files) { driver := driver } before s₁) (hcode : Cancels code)
    (hstop : s₁.Step ops files (.command a code stopArgs stopRest, stopped) s₂)
    (hbetween : Transition.Run (Step ops files) s₂ between s₃) (hb : s₁.clients b ≠ none) (hba : b ≠ a)
    (happend : s₃.Step ops files (.command b ipcCmdqGcodeAppend args rest, out) s₄) :
    Refused s₃ b out s₄ ↔ args ≠ [] ∧ carriesLastChunk args = false := by
  have hnumbered := hbefore.invariant (fun s => ∀ c, s.clients c ≠ none → c < s.accepted) numbered_step
    (fun c hc => absurd rfl hc)
  have hlt : b < s₂.accepted :=
    (hnumbered b hb).trans_eq (command_keeps hstop.1.1 hstop.1.2 hstop.2).1.symm
  have h₂ : Cancelled b s₂ := ⟨hlt, fun trx htrx => cancels_others hcode hstop.1.2 hstop.2 hba htrx⟩
  have h₃ := hbetween.invariant (Cancelled b) cancelled_step h₂
  exact refused_iff h₃.2 happend

/-- Two clients, of which the first stops the print of an idle printer. -/
private def idleDriver : MarlinDriver := { state := .idle, isConnected := true, checkConnection := false }

private def twoClients : Server MarlinDriver := ({ driver := idleDriver } : Server MarlinDriver).connect.connect

private def stoppedByFirst : Server MarlinDriver := twoClients.cancelAllTransactions (some 0)

private theorem run_twoClients : Transition.Run (Step (MarlinDriver.ops fun _ => 0) fun _ => .error [])
    { driver := idleDriver } [(.connect, {}), (.connect, {})] twoClients :=
  .cons ⟨trivial, rfl⟩ (.cons ⟨trivial, rfl⟩ (.nil twoClients))

private theorem step_stoppedByFirst : twoClients.Step (MarlinDriver.ops fun _ => 0) (fun _ => .error [])
    (.command 0 ipcCmdqGcodeStopprint [] [], { sent := [okReply], calls := [.stopPrint []] })
    stoppedByFirst := by
  have h : Encodable ipcCmdqGcodeStopprint [] := ⟨by decide, by decide, by decide⟩
  have hcall : (MarlinDriver.ops fun _ => 0).stopPrint idleDriver [] = some (true, idleDriver) := by decide
  refine ⟨⟨by decide, h⟩, ?_⟩
  rw [exec_gcodeStopPrint h]
  exact congrArg (Option.map _) hcall

private theorem client_stoppedByFirst : stoppedByFirst.clients 1 = some { cancelled := true } := rfl

theorem append_after_stop_refused_iff_middle :
    Refused stoppedByFirst 1 { sent := [trxCancelled, okReply] }
        (stoppedByFirst.setTransaction 1 { buffer := ascii "G1 X1", active := true, cancelled := true }) ↔
      [ascii "G1 X1", [0, 1]] ≠ [] ∧ carriesLastChunk [ascii "G1 X1", [0, 1]] = false := by
  have h : Encodable ipcCmdqGcodeAppend [ascii "G1 X1", [0, 1]] := ⟨by decide, by decide, by decide⟩
  have hchunk : Chunk.ofArgs [ascii "G1 X1", [0, 1]] = some
      { transactionFlags := 1, totalLines := -1, metaData := {}, data := ascii "G1 X1" } := by decide
  have hexec : stoppedByFirst.exec (MarlinDriver.ops fun _ => 0) (fun _ => .error [])
      (.command 1 ipcCmdqGcodeAppend [ascii "G1 X1", [0, 1]] []) = _ := exec_gcodeAppend client_stoppedByFirst h
  rw [if_neg (by decide), hchunk, Option.bind_some, if_neg (by decide)] at hexec
  exact append_after_stop_refused_iff run_twoClients (.inl rfl) step_stoppedByFirst (.nil _) (by decide)
    (by decide) ⟨⟨by decide, h⟩, hexec⟩

/-- A whole append of the second client goes to the driver after the stop of the first. -/
theorem not_cancellationSafe : ¬ CancellationSafe (MarlinDriver.ops fun _ => 0) (fun _ => .error [])
    { state := .idle, isConnected := true, checkConnection := false } := by
  intro hsafe
  have h : Encodable ipcCmdqGcodeAppend [ascii "G1 X1"] := ⟨by decide, by decide, by decide⟩
  have hchunk : Chunk.ofArgs [ascii "G1 X1"] = some
      { transactionFlags := 3, totalLines := -1, metaData := {}, data := ascii "G1 X1" } := by decide
  have hcall : (MarlinDriver.ops fun _ => 0).appendGCode idleDriver (ascii "G1 X1") (-1) (some {}) =
      some (.ok, { idleDriver with
        state := .buffering
        gcodeBuffer :=
          { buckets := [ascii "G1 X1\n"], bufferedLines := 1, totalLinesSent := 1, bufferSize := 6 } }) := by
    decide
  have hexec : stoppedByFirst.exec (MarlinDriver.ops fun _ => 0) (fun _ => .error [])
      (.command 1 ipcCmdqGcodeAppend [ascii "G1 X1"] []) = _ := exec_gcodeAppend client_stoppedByFirst h
  rw [if_neg (by decide), hchunk, Option.bind_some, if_pos (by decide)] at hexec
  have happend := hexec.trans (congrArg (Option.map _) hcall)
  have hrefused := hsafe _ _ _ _ _ _ 0 1 _ _ _ _ _ _ _ run_twoClients (.inl rfl) step_stoppedByFirst (.nil _)
    (by decide) (by decide) ⟨⟨by decide, h⟩, happend⟩
  cases hrefused.calls

end Server
end Print3D
