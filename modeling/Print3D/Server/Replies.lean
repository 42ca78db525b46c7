import Print3D.Server.Requests

/-! How many replies a request gets, and to which request a reply belongs. -/
namespace Print3D
open CommandHandler Transition

namespace CommandHandler

theorem readShort_isSome (a : Text) : (readShort a).isSome ↔ 2 ≤ a.length := by
  unfold readShort readNs
  split_ifs with h <;> simp_all

theorem readLong_isSome (a : Text) : (readLong a).isSome ↔ 4 ≤ a.length := by
  unfold readLong readNl
  split_ifs with h <;> simp_all

/-- The numbers of a `gcodeAppend` command are as long as their types. -/
def WideNumbers (args : List Text) : Prop :=
  (∀ a, args[1]? = some a → 2 ≤ a.length) ∧ ∀ i, 2 ≤ i → i ≤ 4 → ∀ a, args[i]? = some a → 4 ≤ a.length

private theorem elim_isSome {read : Text → Option ℤ} {n : ℕ} (hread : ∀ a, (read a).isSome ↔ n ≤ a.length)
    (init : ℤ) (arg : Option Text) : (arg.elim (some init) read).isSome ↔ ∀ a, arg = some a → n ≤ a.length := by
  cases arg with
  | none => simp
  | some a => simpa using hread a

theorem chunk_isSome (args : List Text) : (Chunk.ofArgs args).isSome ↔ args ≠ [] ∧ WideNumbers args := by
  have hdata : args[0]?.isSome ↔ args ≠ [] := by cases args <;> simp
  have hwide : WideNumbers args ↔ (∀ a, args[1]? = some a → 2 ≤ a.length) ∧
      (∀ a, args[2]? = some a → 4 ≤ a.length) ∧
      (∀ a, args[3]? = some a → 4 ≤ a.length) ∧ ∀ a, args[4]? = some a → 4 ≤ a.length := by
    unfold WideNumbers
    constructor
    · exact fun h => ⟨h.1, h.2 2 (by omega) (by omega), h.2 3 (by omega) (by omega),
        h.2 4 (by omega) (by omega)⟩
    · rintro ⟨h1, h2, h3, h4⟩
      refine ⟨h1, fun i hi hi' => ?_⟩
      obtain rfl | rfl | rfl : i = 2 ∨ i = 3 ∨ i = 4 := by omega
      exacts [h2, h3, h4]
  rw [hwide, ← hdata, ← elim_isSome readShort_isSome 3, ← elim_isSome readLong_isSome (-1) args[2]?,
    ← elim_isSome readLong_isSome (-1) args[3]?, ← elim_isSome readLong_isSome (-1) args[4]?]
  unfold Chunk.ofArgs
  cases args[0]? <;> cases args[1]?.elim (some 3) readShort <;> cases args[2]?.elim (some (-1)) readLong <;>
    cases args[3]?.elim (some (-1)) readLong <;> cases args[4]?.elim (some (-1)) readLong <;> simp

end CommandHandler

namespace Server

variable {D : Type} {ops : DriverOps D} {files : Option Text → Except Text Text} {s s' : Server D} {client : ℕ}
  {args : List Text} {rest : Text} {trx : Transaction} {o : Output}

def AnsweredOnce (x : Option (Server D × Output)) : Prop := ∃ s' o, x = some (s', o) ∧ o.sent.length = 1

theorem answeredOnce_none : ¬ AnsweredOnce (none : Option (Server D × Output)) := fun ⟨_, _, h, _⟩ => by cases h

theorem answeredOnce_some : AnsweredOnce (some (s, o)) ↔ o.sent.length = 1 := by
  constructor
  · rintro ⟨s', o', h, hlen⟩
    cases h
    exact hlen
  · exact fun h => ⟨s, o, rfl, h⟩

/-- The number of replies does not depend on the result of the driver, only on a condition `c`. -/
theorem answeredOnce_map_iff {α : Type} {x : Option α} {f : α → Server D × Output} {c : Prop}
    (h : ∀ a, (f a).2.sent.length = 1 ↔ c) : AnsweredOnce (x.map f) ↔ x.isSome ∧ c := by
  cases x with
  | none => exact iff_of_false answeredOnce_none (by simp)
  | some a =>
    refine Iff.trans answeredOnce_some ?_
    simpa using h a

theorem answeredOnce_map {α : Type} {x : Option α} {f : α → Server D × Output}
    (h : ∀ a, (f a).2.sent.length = 1) : AnsweredOnce (x.map f) ↔ x.isSome := by
  rw [answeredOnce_map_iff fun a => iff_true_intro (h a), and_true]

theorem answeredOnce_ite {c : Prop} [Decidable c] : AnsweredOnce (if c then some (s, o) else none) ↔
    c ∧ o.sent.length = 1 := by
  split_ifs with hc
  · rw [answeredOnce_some, and_iff_right hc]
  · exact iff_of_false answeredOnce_none fun h => hc h.1

/-- When a request is answered by one reply: numbers are complete, the reply fits its size, the driver
returns, and the request is neither a chunk for a cancelled transaction nor a file without a name. -/
def Answerable (ops : DriverOps D) (files : Option Text → Except Text Text) (s : Server D) (client : ℕ)
    (args : List Text) : Request → Prop
  | .test => ∀ a, args[0]? = some a → Fits (testAnswer (cString a))
  | .getTemperature => ∀ a, args[0]? = some a → 2 ≤ a.length
  | .gcodeClear => (ops.clearGCode s.driver).isSome
  | .gcodeAppend => args ≠ [] → ∀ trx, s.clients client = some trx → trx.cancelled = false ∧ WideNumbers args ∧
      ∀ chunk, Chunk.ofArgs args = some chunk → chunk.last = true →
        (ops.appendGCode s.driver (addChunk trx chunk).buffer chunk.totalLines (some chunk.metaData)).isSome
  | .gcodeAppendFile => args ≠ [] ∧ ∀ trx, s.clients client = some trx → trx.active = false →
      match files (args[0]?.map cString) with
      | .ok data => (ops.appendGCode s.driver (cString data) (-1) none).isSome
      | .error message => Fits message
  | .gcodeStartPrint => (ops.startPrint s.driver).isSome
  | .gcodeStopPrint => (ops.stopPrint s.driver (endCode args)).isSome
  | .heatup => ∀ a, args[0]? = some a → 2 ≤ a.length ∧
      ∀ temperature, readShort a = some temperature → (ops.heatup s.driver temperature).isSome
  | .getProgress => True
  | .getState => True

theorem length_notice_append (trx : Transaction) (reply : Text) :
    (notice trx ++ [reply]).length = 1 ↔ trx.cancelled = false := by
  unfold notice
  cases trx.cancelled <;> simp

theorem length_argumentNotice_append (args : List Text) (reply : Text) :
    (argumentNotice args ++ [reply]).length = 1 ↔ args ≠ [] := by
  unfold argumentNotice
  split_ifs with hargs <;> simp [hargs]

theorem answeredOnce_test_iff (h : Encodable Request.test.code args) :
    AnsweredOnce (s.exec ops files (.command client Request.test.code args rest)) ↔
      s.Answerable ops files client args .test := by
  rw [exec_request _ h]
  unfold Request.handler Answerable
  dsimp only
  rw [hndTest_run h]
  cases args[0]? with
  | none => exact iff_of_true (answeredOnce_some.mpr rfl) (by simp)
  | some a =>
    dsimp only
    split_ifs with hfits
    · exact iff_of_true (answeredOnce_some.mpr rfl) (by simpa using hfits)
    · exact iff_of_false answeredOnce_none (by simpa using hfits)

theorem answeredOnce_getTemperature_iff (h : Encodable Request.getTemperature.code args) :
    AnsweredOnce (s.exec ops files (.command client Request.getTemperature.code args rest)) ↔
      s.Answerable ops files client args .getTemperature := by
  rw [exec_request _ h]
  unfold Request.handler Answerable
  dsimp only
  rw [hndGetTemperature_run h]
  cases args[0]? with
  | none => exact iff_of_true (answeredOnce_some.mpr rfl) (by simp)
  | some a =>
    dsimp only
    rw [Option.map_map, answeredOnce_map fun _ => rfl, readShort_isSome]
    simp

theorem answeredOnce_heatup_iff (h : Encodable Request.heatup.code args) :
    AnsweredOnce (s.exec ops files (.command client Request.heatup.code args rest)) ↔
      s.Answerable ops files client args .heatup := by
  rw [exec_request _ h]
  unfold Request.handler Answerable
  dsimp only
  rw [hndHeatup_run h]
  cases args[0]? with
  | none => exact iff_of_true (answeredOnce_some.mpr rfl) (by simp)
  | some a =>
    simp only [Option.some.injEq, forall_eq', ← readShort_isSome]
    cases ha : readShort a with
    | none => exact iff_of_false answeredOnce_none (by simp)
    | some temperature =>
      rw [Option.bind_some, Option.map_map, answeredOnce_map fun _ => rfl]
      simp

theorem answeredOnce_gcodeAppend_iff (htrx : s.clients client = some trx)
    (h : Encodable Request.gcodeAppend.code args) :
    AnsweredOnce (s.exec ops files (.command client Request.gcodeAppend.code args rest)) ↔
      s.Answerable ops files client args .gcodeAppend := by
  have hexec : s.exec ops files (.command client Request.gcodeAppend.code args rest) = _ :=
    exec_gcodeAppend htrx h
  rw [hexec]
  unfold Answerable
  split_ifs with hargs
  · exact iff_of_true (answeredOnce_some.mpr rfl) fun hne => absurd hargs hne
  · simp only [htrx, Option.some.injEq, forall_eq', ne_eq, hargs, not_false_eq_true, forall_const]
    have hwide := chunk_isSome args
    cases hchunk : Chunk.ofArgs args with
    | none =>
      rw [hchunk] at hwide
      refine iff_of_false answeredOnce_none fun ha => ?_
      exact absurd (hwide.mpr ⟨hargs, ha.2.1⟩) (by simp)
    | some chunk =>
      rw [hchunk] at hwide
      have hwide : WideNumbers args := (hwide.mp rfl).2
      simp only [Option.bind_some, Option.some.injEq, forall_eq', hwide, true_and]
      split_ifs with hlast
      · rw [answeredOnce_map_iff fun p => length_notice_append trx _, and_comm]
        simp [hlast]
      · rw [answeredOnce_some, length_notice_append]
        simp [hlast]

theorem answeredOnce_gcodeAppendFile_iff (htrx : s.clients client = some trx)
    (h : Encodable Request.gcodeAppendFile.code args) :
    AnsweredOnce (s.exec ops files (.command client Request.gcodeAppendFile.code args rest)) ↔
      s.Answerable ops files client args .gcodeAppendFile := by
  have hexec : s.exec ops files (.command client Request.gcodeAppendFile.code args rest) = _ :=
    exec_gcodeAppendFile htrx h
  rw [hexec]
  unfold Answerable
  simp only [htrx, Option.some.injEq, forall_eq']
  cases hactive : trx.active with
  | true =>
    rw [if_pos rfl, answeredOnce_some, length_argumentNotice_append]
    simp
  | false =>
    simp only [Bool.false_eq_true, if_false, forall_const]
    cases files (args[0]?.map cString) with
    | ok data =>
      dsimp only
      rw [answeredOnce_map_iff fun p => length_argumentNotice_append args _, and_comm]
    | error message =>
      dsimp only
      rw [answeredOnce_ite, length_argumentNotice_append, and_comm]

/-- A request is answered by exactly one reply if and only if it is answerable. -/
theorem answeredOnce_iff (htrx : s.clients client = some trx) (request : Request)
    (h : Encodable request.code args) :
    AnsweredOnce (s.exec ops files (.command client request.code args rest)) ↔
      s.Answerable ops files client args request := by
  cases request with
  | test => exact answeredOnce_test_iff h
  | getTemperature => exact answeredOnce_getTemperature_iff h
  | gcodeAppend => exact answeredOnce_gcodeAppend_iff htrx h
  | gcodeAppendFile => exact answeredOnce_gcodeAppendFile_iff htrx h
  | heatup => exact answeredOnce_heatup_iff h
  | gcodeClear =>
    have hexec : s.exec ops files (.command client Request.gcodeClear.code args rest) = _ := exec_gcodeClear h
    rw [hexec]
    exact answeredOnce_map fun _ => rfl
  | gcodeStartPrint =>
    have hexec : s.exec ops files (.command client Request.gcodeStartPrint.code args rest) = _ :=
      exec_gcodeStartPrint h
    rw [hexec]
    exact answeredOnce_map fun _ => rfl
  | gcodeStopPrint =>
    have hexec : s.exec ops files (.command client Request.gcodeStopPrint.code args rest) = _ :=
      exec_gcodeStopPrint h
    rw [hexec]
    exact answeredOnce_map fun _ => rfl
  | getProgress =>
    rw [exec_request _ h]
    unfold Request.handler
    rw [hndGetProgress_run]
    exact iff_of_true (answeredOnce_some.mpr rfl) trivial
  | getState =>
    rw [exec_request _ h]
    unfold Request.handler
    rw [hndGetState_run]
    exact iff_of_true (answeredOnce_some.mpr rfl) trivial

/-! ### Runs -/

/-- A request that is answerable, or no request at all. -/
def Served (ops : DriverOps D) (files : Option Text → Except Text Text) (s : Server D) : ServerEvent → Prop
  | .command client code args _ => ∃ request : Request, request.code = code ∧
      s.Answerable ops files client args request
  | _ => True

end Server

def ServerEvent.isCommandOf (client : ℕ) : ServerEvent → Bool
  | .command c _ _ _ => c = client
  | _ => false

namespace Server

variable {D : Type} {ops : DriverOps D} {files : Option Text → Except Text Text} {s s' : Server D} {client : ℕ}
  {args : List Text} {rest : Text} {trx : Transaction} {o : Output}

def requests (client : ℕ) (ls : List (ServerEvent × Output)) : List (ServerEvent × Output) :=
  ls.filter (·.1.isCommandOf client)

def replies (client : ℕ) (ls : List (ServerEvent × Output)) : List Text :=
  (requests client ls).flatMap (·.2.sent)

theorem length_sent_of_served {l : ServerEvent × Output} (hstep : s.Step ops files l s')
    (h : Served ops files s l.1) (hl : l.1.isCommandOf client = true) : l.2.sent.length = 1 := by
  obtain ⟨e, o⟩ := l
  cases e with
  | connect => cases hl
  | disconnect => cases hl
  | command c code args rest =>
    obtain ⟨request, rfl, hanswerable⟩ := h
    obtain ⟨hvalid, hexec⟩ := hstep
    obtain ⟨trx, htrx⟩ := Option.ne_none_iff_exists'.mp hvalid.1
    obtain ⟨s'', o', he, hlen⟩ := (answeredOnce_iff htrx request hvalid.2).mpr hanswerable
    rw [hexec] at he
    cases he
    exact hlen

/-- In a run of answerable requests, the n-th reply on a connection answers its n-th request. -/
theorem replies_match {t : Server D} {ls : List (ServerEvent × Output)}
    (hrun : RunWith (Step ops files) (fun s l _ => Served ops files s l.1) s ls t) (client : ℕ) :
    List.Forall₂ (fun l reply => l.2.sent = [reply]) (requests client ls) (replies client ls) := by
  unfold RunWith at hrun
  induction hrun with
  | nil => exact .nil
  | @cons s t u l ls hl _ ih =>
    unfold replies requests at ih ⊢
    rw [List.filter_cons]
    split_ifs with hc
    · obtain ⟨reply, hreply⟩ := List.length_eq_one_iff.mp (length_sent_of_served hl.1 hl.2 hc)
      rw [List.flatMap_cons, hreply]
      exact .cons hreply ih
    · exact ih

/-- A chunk for a cancelled transaction is answered twice. -/
theorem not_answeredOnce_cancelled : ¬ ∀ (s : Server MarlinDriver) (client : ℕ) (trx : Transaction)
    (request : Request) (args : List Text) (rest : Text), s.clients client = some trx →
    Encodable request.code args →
    AnsweredOnce (s.exec (MarlinDriver.ops fun _ => 0) (fun _ => .error [])
      (.command client request.code args rest)) := by
  intro h
  have hargs : Encodable Request.gcodeAppend.code [ascii "G1"] := ⟨by decide, by decide, by decide⟩
  let s : Server MarlinDriver := { driver := {}, clients := fun _ => some { cancelled := true }, accepted := 1 }
  have honce := h s 0 { cancelled := true } .gcodeAppend [ascii "G1"] [] rfl hargs
  have hanswerable := (answeredOnce_gcodeAppend_iff rfl hargs).mp honce
  exact absurd (hanswerable (by decide) _ rfl).1 (by decide)

/-- In every state a request is answered by exactly one reply if and only if it is answerable; and in
every run of answerable requests the n-th reply on a connection answers its n-th request. -/
theorem one_reply_per_request :
    (∀ (s : Server D) (client : ℕ) (trx : Transaction) (request : Request) (args : List Text) (rest : Text),
      s.clients client = some trx → Encodable request.code args →
      (AnsweredOnce (s.exec ops files (.command client request.code args rest)) ↔
        s.Answerable ops files client args request)) ∧
    ∀ (driver : D) (ls : List (ServerEvent × Output)) (t : Server D),
      RunWith (Step ops files) (fun s l _ => Served ops files s l.1) { driver := driver } ls t →
      ∀ client, List.Forall₂ (fun l reply => l.2.sent = [reply]) (requests client ls) (replies client ls) :=
  ⟨fun _ _ _ request _ _ htrx h => answeredOnce_iff htrx request h,
    fun _ _ _ hrun client => replies_match hrun client⟩

private def oneClient : Server MarlinDriver := ({ driver := {} } : Server MarlinDriver).connect

private theorem step_getState : oneClient.Step (MarlinDriver.ops fun _ => 0) (fun _ => .error [])
    (.command 0 ipcCmdqGetState [] [], { sent := [stateReply (MarlinDriver.ops fun _ => 0) {}] })
    oneClient := by
  have h : Encodable Request.getState.code [] := ⟨by decide, by decide, by decide⟩
  have hexec : oneClient.exec (MarlinDriver.ops fun _ => 0) (fun _ => .error [])
      (.command 0 ipcCmdqGetState [] []) = _ := exec_request .getState h
  unfold Request.handler at hexec
  rw [hndGetState_run] at hexec
  exact ⟨⟨by decide, h⟩, hexec⟩

theorem one_reply_per_request_getState :
    (AnsweredOnce (oneClient.exec (MarlinDriver.ops fun _ => 0) (fun _ => .error [])
        (.command 0 Request.heatup.code [[0, 20]] [])) ↔
      oneClient.Answerable (MarlinDriver.ops fun _ => 0) (fun _ => .error []) 0 [[0, 20]] .heatup) ∧
    List.Forall₂ (fun l reply => l.2.sent = [reply])
      (requests 0 [(.connect, {}), (.command 0 ipcCmdqGetState [] [],
        { sent := [stateReply (MarlinDriver.ops fun _ => 0) {}] })])
      (replies 0 [(.connect, {}), (.command 0 ipcCmdqGetState [] [],
        { sent := [stateReply (MarlinDriver.ops fun _ => 0) {}] })]) := by
  have h : Encodable Request.heatup.code [[0, 20]] := ⟨by decide, by decide, by decide⟩
  have hconnect : ({ driver := {} } : Server MarlinDriver).Step (MarlinDriver.ops fun _ => 0)
      (fun _ => .error []) (.connect, {}) oneClient := ⟨trivial, rfl⟩
  have hrun : RunWith (Step (MarlinDriver.ops fun _ => 0) fun _ => .error [])
      (fun s l _ => Served (MarlinDriver.ops fun _ => 0) (fun _ => .error []) s l.1)
      { driver := {} } _ oneClient :=
    .cons ⟨hconnect, trivial⟩ (.cons ⟨step_getState, .getState, rfl, trivial⟩ (.nil oneClient))
  exact ⟨one_reply_per_request.1 oneClient 0 {} .heatup [[0, 20]] [] rfl h,
    one_reply_per_request.2 {} _ oneClient hrun 0⟩

end Server
end Print3D
