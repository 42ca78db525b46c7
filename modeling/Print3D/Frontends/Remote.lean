import Print3D.Frontends.Transfer
import Print3D.Server.Requests

/-! A call of a frontend is the method of the driver that it stands for, done at the server: the values
that come back are those of the driver, in the widths of the messages. -/
namespace Print3D
open CommandHandler FixedWidth LengthPrefixed Effects

namespace Communicator

variable {D : Type} {ops : DriverOps D} {files : Option Text → Except Text Text} {client : ℕ}
  {others : ℕ → Server D → Server D} {c : Communicator (Session D)} {code : ℕ} {args : List FormatArg}

/-- The server when it runs the next command, after what the other clients do before. -/
def Session.next (others : ℕ → Server D → Server D) (p : Session D) : Server D := others p.log.length p.server

/-- The connection after a command that has made the server what it is in `r`, and put out `r.2`. -/
def after (c : Communicator (Session D)) (code : ℕ) (args : List FormatArg) (r : Server D × Output)
    (error : Option Text := none) : Communicator (Session D) :=
  { c with
    error := error
    peer := c.peer.add (encode code (payloads args)) r.2 r.1 }

/-- An open connection on which nothing is left from before. -/
structure Ready (c : Communicator (Session D)) : Prop where
  fd : 0 ≤ c.socketFd
  reads : c.reads = []

theorem Ready.after (h : Ready c) (code : ℕ) (args : List FormatArg) (r : Server D × Output)
    (error : Option Text := none) : Ready (c.after code args r error) := ⟨h.fd, h.reads⟩

/-! ### A command and its reply -/

theorem request_run (h : Ready c) (hcode : (findCommandDescription code).isSome)
    (henc : Encodable code (payloads args))
    (hreply : ∀ s o, (c.peer.next others).exec ops files (.command client code (payloads args) []) =
      some (s, o) →
      o.sent.flatten ≠ []) :
    (request (serverPeer ops files client others) code args).run c =
      ((c.peer.next others).exec ops files (.command client code (payloads args) [])).map fun r =>
        (some r.2.sent.flatten, c.after code args r) := by
  have hrun : (runCommand ops client (encode code (payloads args)) files).run
      (c.peer.next others, {}) = _ := run_eq_exec
  unfold request
  rw [run_bind_of_eq_some rfl, run_lift_bind (ipcVaConstructCmd_eq heap_grants hcode henc)]
  cases hexec : (c.peer.next others).exec ops files (.command client code (payloads args) []) with
  | none =>
    rw [hexec] at hrun
    exact sendAndReceiveData_none h.fd hrun
  | some r =>
    rw [hexec] at hrun
    exact sendAndReceiveData_run h.fd h.reads hrun (hreply _ _ hexec)

theorem encode_ne_nil (code : ℕ) (args : List Text) : encode code args ≠ [] := fun hnil => by
  have hlen := encode_length code args
  rw [hnil, List.length_nil] at hlen
  omega

theorem requestPlain_ok {α : Type} {x : Option α} {f : α → Server D} {call : DriverCall} (h : Ready c)
    (hcode : (findCommandDescription code).isSome) (henc : Encodable code (payloads args))
    (hexec : (c.peer.next others).exec ops files (.command client code (payloads args) []) =
      x.map fun a => (f a, { sent := [okReply], calls := [call] })) :
    (requestPlain (serverPeer ops files client others) code args).run c =
      x.map fun a => (0, c.after code args (f a, { sent := [okReply], calls := [call] })) := by
  have hrun := request_run h hcode henc (fun s o hs => by
    rw [hexec] at hs
    obtain ⟨a, -, he⟩ := Option.map_eq_some_iff.mp hs
    cases he
    rw [List.flatten_singleton]
    exact encode_ne_nil _ _)
  unfold requestPlain
  rw [StateT.run_bind, hrun, hexec]
  cases x with
  | none => rfl
  | some a =>
    rw [Option.map_some, Option.map_some, Option.map_some, Option.bind_eq_bind, Option.bind_some]
    dsimp only
    rw [List.flatten_singleton, run_bind_of_eq_some response_ok]
    rfl

/-- A command with one reply that is not `okReply`. -/
theorem requestPlain_refused {reply : Text} {s : Server D} {rv : ℤ} {error : Option Text} (h : Ready c)
    (hcode : (findCommandDescription code).isSome) (henc : Encodable code (payloads args))
    (hexec : (c.peer.next others).exec ops files (.command client code (payloads args) []) =
      some (s, { sent := [reply] })) (hreply : reply ≠ [])
    (hresponse : ∀ c : Communicator (Session D), (handleBasicResponse (some reply) 0).run c =
      some (rv, { c with error := error })) (hrv : ¬ rv ≥ 0) :
    (requestPlain (serverPeer ops files client others) code args).run c =
      some (rv, c.after code args (s, { sent := [reply] }) error) := by
  have hrun := request_run h hcode henc (fun s o hs => by
    rw [hexec] at hs
    cases hs
    rwa [List.flatten_singleton])
  rw [hexec, Option.map_some] at hrun
  dsimp only at hrun
  rw [List.flatten_singleton] at hrun
  unfold requestPlain
  rw [run_bind_of_eq_some hrun, run_bind_of_eq_some (hresponse _), if_neg hrv]
  rfl

def serverError (message : Text) : Text := ascii "server returned error (" ++ cString message ++ ascii ")"

theorem response_error {message : Text} (h : Fits message) (n : ℤ) :
    (handleBasicResponse (some (encode ipcCmdrError [message])) n).run c =
      some (-1, { c with error := some (serverError message) }) := by
  have henc : Encodable ipcCmdrError [message] := encodable_singleton (by decide) h
  have hget := ipcCmdGet_encode henc []
  have harg := stringArg_encode henc (r := []) 0
  rw [List.append_nil] at hget harg
  unfold handleBasicResponse
  dsimp only
  rw [run_lift_bind hget, if_neg (by decide), if_pos rfl, harg, Option.bind_some, id_eq,
    List.getElem?_cons_zero, Option.map_some, run_lift_bind rfl]
  rfl

theorem response_values {values : List Text} (h : Encodable ipcCmdrOk values) :
    (handleBasicResponse (some (encode ipcCmdrOk values)) values.length).run c = some (0, c) := by
  have hget := ipcCmdGet_encode h []
  have hnum := ipcCmdNumArgs_encode h []
  rw [List.append_nil] at hget hnum
  unfold handleBasicResponse
  dsimp only
  rw [run_lift_bind hget, if_pos rfl, run_lift_bind hnum, if_neg (not_not.mpr rfl)]
  rfl

theorem requestValue_values {α : Type} {values : List Text} {n : ℤ} {s : Server D} {value : ℤ × Option α}
    {read : Text → Option (ℤ × Option α)} (h : Ready c) (hcode : (findCommandDescription code).isSome)
    (henc : Encodable code (payloads args)) (hvalues : Encodable ipcCmdrOk values)
    (hexec : (c.peer.next others).exec ops files (.command client code (payloads args) []) =
      some (s, { sent := [encode ipcCmdrOk values] }))
    (hn : n = values.length) (hread : read (encode ipcCmdrOk values) = some value) :
    (requestValue (serverPeer ops files client others) code args n read).run c =
      some (value, c.after code args (s, { sent := [encode ipcCmdrOk values] })) := by
  have hrun := request_run h hcode henc (fun s o hs => by
    rw [hexec] at hs
    cases hs
    rw [List.flatten_singleton]
    exact encode_ne_nil _ _)
  rw [hexec, Option.map_some] at hrun
  dsimp only at hrun
  rw [List.flatten_singleton] at hrun
  subst hn
  unfold requestValue
  rw [run_bind_of_eq_some hrun, run_bind_of_eq_some (response_values hvalues), if_pos le_rfl,
    run_lift_bind rfl, hread]
  rfl

theorem requestValue_error {α : Type} {message : Text} {s : Server D} {n : ℤ}
    {read : Text → Option (ℤ × Option α)} (h : Ready c) (hcode : (findCommandDescription code).isSome)
    (henc : Encodable code (payloads args)) (hfits : Fits message)
    (hexec : (c.peer.next others).exec ops files (.command client code (payloads args) []) =
      some (s, { sent := [encode ipcCmdrError [message]] })) :
    (requestValue (serverPeer ops files client others) code args n read).run c =
      some ((-1, none), c.after code args (s, { sent := [encode ipcCmdrError [message]] })
        (some (serverError message))) := by
  have hrun := request_run h hcode henc (fun s o hs => by
    rw [hexec] at hs
    cases hs
    rw [List.flatten_singleton]
    exact encode_ne_nil _ _)
  rw [hexec, Option.map_some] at hrun
  dsimp only at hrun
  rw [List.flatten_singleton] at hrun
  unfold requestValue
  rw [run_bind_of_eq_some hrun, run_bind_of_eq_some (response_error hfits n), if_neg (by decide)]
  rfl

/-! ### The values -/

theorem readShort_word (v : ℤ) : readShort (bigEndian 2 (v % 2 ^ 16).toNat) = some (i16 v) := by
  rw [readShort, readNs_word, Option.map_some, i16_word]

theorem getStringArg_encode {message : Text} (h : Encodable ipcCmdrOk [message]) :
    (ipcCmdGetStringArg heap (encode ipcCmdrOk [message]) 0).map (fun text => stored (text.map cString)) =
      some (0, some (cString message)) := by
  have harg := ipcCmdGetArg_getElem? (r := []) h 0 true
  rw [List.append_nil] at harg
  rw [ipcCmdGetStringArg, harg]
  simp [Except.map, stored, cString_append_zero]

theorem getShortArg_encode (v : ℤ) :
    (ipcCmdGetShortArg heap (encode ipcCmdrOk [bigEndian 2 (v % 2 ^ 16).toNat]) 0).map stored =
      some (0, some (i16 v)) := by
  have h : Encodable ipcCmdrOk [bigEndian 2 (v % 2 ^ 16).toNat] :=
    encodable_singleton (by decide) (by simp [Fits])
  have harg := ipcCmdGetArg_getElem? (r := []) h 0 false
  rw [List.append_nil, List.getElem?_cons_zero] at harg
  have hword := readNs_word v
  rw [ipcCmdGetShortArg, harg]
  simp only [Bool.false_eq_true, if_false, List.append_nil, hword, Option.bind_eq_bind,
    Option.bind_some, i16_word]
  rfl

theorem getLongArg_encode {vs : List ℤ}
    (h : Encodable ipcCmdrOk (vs.map fun v => bigEndian 4 (v % 2 ^ 32).toNat))
    {i : ℕ} {v : ℤ} (hi : vs[i]? = some v) :
    ipcCmdGetLongArg heap (encode ipcCmdrOk (vs.map fun v => bigEndian 4 (v % 2 ^ 32).toNat)) i =
      some (.ok (i32 v)) := by
  have harg := ipcCmdGetArg_getElem? (r := []) h i false
  rw [List.append_nil, List.getElem?_map, hi, Option.map_some] at harg
  have hlong := readNl_long v
  rw [ipcCmdGetLongArg, harg]
  simp only [Bool.false_eq_true, if_false, List.append_nil, hlong, Option.bind_eq_bind,
    Option.bind_some, i32_long]

theorem readLongs_encode {vs : List ℤ}
    (h : Encodable ipcCmdrOk (vs.map fun v => bigEndian 4 (v % 2 ^ 32).toNat))
    {is : List ℕ} {ws : List ℤ} (his : is.map (vs[·]?) = ws.map some) :
    readLongs (encode ipcCmdrOk (vs.map fun v => bigEndian 4 (v % 2 ^ 32).toNat)) is =
      some (0, ws.map i32) := by
  induction is generalizing ws with
  | nil =>
    cases ws with
    | nil => rfl
    | cons w ws => cases his
  | cons i is ih =>
    cases ws with
    | nil => cases his
    | cons w ws =>
      obtain ⟨hi, his⟩ := List.cons.inj his
      rw [readLongs, getLongArg_encode h hi, Option.bind_eq_bind, Option.bind_some]
      dsimp only
      rw [ih his]
      rfl

theorem response_retryLater :
    (handleBasicResponse (some retryLater) 0).run c = some (-4, { c with error := some retryLaterString }) := by
  have h : Encodable ipcCmdrRetryLater [ascii "transaction in progress"] := ⟨by decide, by decide, by decide⟩
  have hget := ipcCmdGet_encode h []
  rw [List.append_nil] at hget
  unfold handleBasicResponse retryLater
  dsimp only
  rw [run_lift_bind hget, if_neg (by decide), if_neg (by decide), if_neg (by decide), if_neg (by decide),
    if_pos rfl]
  rfl

/-! ### The calls -/

def InOneRead (message : Text) : Prop := message.length + 8 ≤ 1024

theorem InOneRead.fits {message : Text} (h : InOneRead message) : Fits message := by
  unfold Fits
  unfold InOneRead at h
  omega

/-- The line, the buffered lines and all lines, the size of the buffer and its bound, and the numbers of the
sequence. -/
def progressOf (ops : DriverOps D) (driver : D) : List ℤ :=
  [ops.getCurrentLine driver, ops.getBufferedLines driver,
  ops.getTotalLines driver, ops.getBufferSize driver, ops.getMaxBufferSize driver,
  (ops.getMetaData driver).seqNumber, (ops.getMetaData driver).seqTotal]

/-- The answer of the server to a test command. -/
def answerTo : Option Text → Text
  | none => ascii "printserver test answer without question"
  | some question => testAnswer (cString question)

/-- All calls but the transfer of gcode, with what the driver of the server does, where the server is
`server` when it runs the command. -/
structure Transparent (ops : DriverOps D) (files : Option Text → Except Text Text) (client : ℕ)
    (peer : Peer (Session D)) (server : Server D) (c : Communicator (Session D)) : Prop where
  clearGCode : (commClearGCode peer).run c = (ops.clearGCode server.driver).map fun driver =>
    (0, c.after ipcCmdqGcodeClear [] ({ server.cancelAllTransactions (some client) with driver := driver },
      { sent := [okReply], calls := [.clearGCode] }))
  startPrint : (commStartPrintGCode peer).run c = (ops.startPrint server.driver).map fun p =>
    (0, c.after ipcCmdqGcodeStartprint [] ({ server with driver := p.2 },
      { sent := [okReply], calls := [.startPrint] }))
  stopPrint : ∀ endCode : Option Text, Fits (endCode.elim [] cString) →
    (commStopPrintGCode peer endCode).run c =
      (ops.stopPrint server.driver (endCode.elim [] cString)).map fun p =>
        (0, c.after ipcCmdqGcodeStopprint [.x (some (endCode.elim [] cString))]
          ({ server.cancelAllTransactions (some client) with driver := p.2 },
            { sent := [okReply], calls := [.stopPrint (endCode.elim [] cString)] }))
  heatup : ∀ temperature, (commHeatup peer temperature).run c =
    (ops.heatup server.driver (i16 temperature)).map fun driver =>
      (0, c.after ipcCmdqHeatup [.w temperature] ({ server with driver := driver },
        { sent := [okReply], calls := [.heatup (i16 temperature)] }))
  getTemperature : ∀ which, (commGetTemperature peer which).run c =
    some (match temperatureOf ops server.driver (i16 which) with
      | some temp => ((0, some (i16 temp)), c.after ipcCmdqGetTemperature [.w which]
          (server, { sent := [temperatureReply ops server.driver (i16 which)] }))
      | none => ((-1, none), c.after ipcCmdqGetTemperature [.w which]
          (server, { sent := [temperatureReply ops server.driver (i16 which)] })
          (some (serverError (ascii "unknown temperature parameter value")))))
  getProgress : (commGetProgress peer).run c =
    some ((0, some ((progressOf ops server.driver).map i32)),
      c.after ipcCmdqGetProgress [] (server, { sent := [progressReply ops server.driver] }))
  getState : (commGetState peer).run c =
    some ((0, some (ascii (ops.getState server.driver).name)),
      c.after ipcCmdqGetState [] (server, { sent := [stateReply ops server.driver] }))
  testCommand : ∀ question, InOneRead (answerTo question) → (commTestCommand peer question).run c =
    some ((0, some (answerTo question)), c.after ipcCmdqTest
      (question.toList.map fun q => .x (some (cString q)))
      (server, { sent := [encode ipcCmdrOk [answerTo question]] }))
  sendGCodeFile : ∀ file trx, server.clients client = some trx → Fits (cString file) →
    (∀ message, files (some (cString file)) = .error message → InOneRead message) →
    (commSendGCodeFile peer file).run c =
      if trx.active then some (-4, c.after ipcCmdqGcodeAppendFile [.x (some (cString file))]
        (server, { sent := [retryLater] }) (some retryLaterString))
      else match files (some (cString file)) with
        | .ok data => (ops.appendGCode server.driver (cString data) (-1) none).map fun p =>
            (0, c.after ipcCmdqGcodeAppendFile [.x (some (cString file))] ({ server with driver := p.2 },
              { sent := [okReply], calls := [.appendGCode (cString data) (-1) none] }))
        | .error message => some (-1, c.after ipcCmdqGcodeAppendFile [.x (some (cString file))]
            (server, { sent := [encode ipcCmdrError [message]] }) (some (serverError message)))

theorem cString_cString (text : Text) : cString (cString text) = cString text :=
  cString_of_notMem (zero_notMem_cString text)

theorem payloads_text (text : Text) : payloads [.x (some text)] = [text] := rfl

theorem payloads_word (v : ℤ) : payloads [.w v] = [bigEndian 2 (v % 2 ^ 16).toNat] := rfl

theorem encodable_word {code : ℕ} (hcode : code < 2 ^ 16) (v : ℤ) :
    Encodable code [bigEndian 2 (v % 2 ^ 16).toNat] := encodable_singleton hcode (by simp [Fits])

section Server

variable {s : Server D}

theorem exec_heatup (temperature : ℤ) :
    s.exec ops files (.command client ipcCmdqHeatup [bigEndian 2 (temperature % 2 ^ 16).toNat] []) =
      (ops.heatup s.driver (i16 temperature)).map fun driver => ({ s with driver := driver },
        { sent := [okReply], calls := [.heatup (i16 temperature)] }) := by
  have hword : Encodable Request.heatup.code _ := encodable_word (by decide) temperature
  have hexec : s.exec ops files (.command client ipcCmdqHeatup _ []) = _ := Server.exec_request .heatup hword
  rw [hexec]
  unfold Request.handler
  rw [hndHeatup_run hword, List.getElem?_cons_zero]
  dsimp only
  rw [readShort_word, Option.bind_some, Option.map_map]
  rfl

theorem exec_getTemperature (which : ℤ) :
    s.exec ops files (.command client ipcCmdqGetTemperature [bigEndian 2 (which % 2 ^ 16).toNat] []) =
      some (s, { sent := [temperatureReply ops s.driver (i16 which)] }) := by
  have hword : Encodable Request.getTemperature.code _ := encodable_word (by decide) which
  have hexec : s.exec ops files (.command client ipcCmdqGetTemperature _ []) = _ :=
    Server.exec_request .getTemperature hword
  rw [hexec]
  unfold Request.handler
  rw [hndGetTemperature_run hword, List.getElem?_cons_zero]
  dsimp only
  rw [readShort_word]
  rfl

theorem exec_getProgress : s.exec ops files (.command client ipcCmdqGetProgress [] []) =
    some (s, { sent := [progressReply ops s.driver] }) := by
  have hempty : Encodable Request.getProgress.code [] := ⟨by decide, by decide, by decide⟩
  have hexec : s.exec ops files (.command client ipcCmdqGetProgress [] []) = _ :=
    Server.exec_request .getProgress hempty
  rw [hexec]
  unfold Request.handler
  rw [hndGetProgress_run]
  rfl

theorem exec_getState : s.exec ops files (.command client ipcCmdqGetState [] []) =
    some (s, { sent := [stateReply ops s.driver] }) := by
  have hempty : Encodable Request.getState.code [] := ⟨by decide, by decide, by decide⟩
  have hexec : s.exec ops files (.command client ipcCmdqGetState [] []) = _ :=
    Server.exec_request .getState hempty
  rw [hexec]
  unfold Request.handler
  rw [hndGetState_run]
  rfl

theorem exec_test (question : Option Text) (henc : Encodable ipcCmdqTest (question.toList.map cString))
    (h : Fits (answerTo question)) :
    s.exec ops files (.command client ipcCmdqTest (question.toList.map cString) []) =
      some (s, { sent := [encode ipcCmdrOk [answerTo question]] }) := by
  have hexec : s.exec ops files (.command client ipcCmdqTest (question.toList.map cString) []) =
      ((hndTest (encode ipcCmdqTest (question.toList.map cString) ++ [])).run (s, {})).map (·.2) :=
    Server.exec_request .test henc
  rw [hexec, hndTest_run henc]
  cases question with
  | none => rfl
  | some question =>
    rw [Option.toList_some, List.map_singleton, List.getElem?_cons_zero]
    dsimp only
    rw [cString_cString]
    rw [answerTo] at h
    rw [if_pos h]
    rfl

end Server

/-! ### Each call -/

theorem stopPrint_run (h : Ready c) (endCode : Option Text) (hfits : Fits (endCode.elim [] cString)) :
    (commStopPrintGCode (serverPeer ops files client others) endCode).run c =
      (ops.stopPrint (c.peer.next others).driver (endCode.elim [] cString)).map fun p =>
        (0, c.after ipcCmdqGcodeStopprint [.x (some (endCode.elim [] cString))]
          ({ (c.peer.next others).cancelAllTransactions (some client) with driver := p.2 },
            { sent := [okReply], calls := [.stopPrint (endCode.elim [] cString)] })) := by
  have henc : Encodable ipcCmdqGcodeStopprint [endCode.elim [] cString] :=
    encodable_singleton (by decide) hfits
  have hend : CommandHandler.endCode [endCode.elim [] cString] = endCode.elim [] cString := by
    cases endCode with
    | none => rfl
    | some text => exact cString_cString text
  refine requestPlain_ok h rfl henc ?_
  rw [payloads_text, Server.exec_gcodeStopPrint henc, hend]

theorem heatup_run (h : Ready c) (temperature : ℤ) :
    (commHeatup (serverPeer ops files client others) temperature).run c =
      (ops.heatup (c.peer.next others).driver (i16 temperature)).map fun driver =>
        (0, c.after ipcCmdqHeatup [.w temperature] ({ c.peer.next others with driver := driver },
          { sent := [okReply], calls := [.heatup (i16 temperature)] })) := by
  have henc : Encodable ipcCmdqHeatup (payloads [.w temperature]) := encodable_word (by decide) temperature
  have hrun : (request (serverPeer ops files client others) ipcCmdqHeatup [.w temperature]).run c = _ :=
    request_run h rfl henc fun s o hs => by
      rw [payloads_word, exec_heatup] at hs
      obtain ⟨a, -, he⟩ := Option.map_eq_some_iff.mp hs
      cases he
      rw [List.flatten_singleton]
      exact encode_ne_nil _ _
  unfold commHeatup
  rw [StateT.run_bind, hrun, payloads_word, exec_heatup]
  cases ops.heatup (c.peer.next others).driver (i16 temperature) with
  | none => rfl
  | some driver =>
    rw [Option.map_some, Option.map_some, Option.map_some, Option.bind_eq_bind, Option.bind_some]
    dsimp only
    rw [List.flatten_singleton, response_ok]

theorem getTemperature_run (h : Ready c) (which : ℤ) :
    (commGetTemperature (serverPeer ops files client others) which).run c =
      some (match temperatureOf ops (c.peer.next others).driver (i16 which) with
        | some temp => ((0, some (i16 temp)), c.after ipcCmdqGetTemperature [.w which]
            (c.peer.next others, { sent := [temperatureReply ops (c.peer.next others).driver (i16 which)] }))
        | none => ((-1, none), c.after ipcCmdqGetTemperature [.w which]
            (c.peer.next others, { sent := [temperatureReply ops (c.peer.next others).driver (i16 which)] })
            (some (serverError (ascii "unknown temperature parameter value"))))) := by
  have henc : Encodable ipcCmdqGetTemperature (payloads [.w which]) := encodable_word (by decide) which
  have hexec : (c.peer.next others).exec ops files (.command client ipcCmdqGetTemperature
      (payloads [.w which]) []) = _ := exec_getTemperature which
  cases htemp : temperatureOf ops (c.peer.next others).driver (i16 which) with
  | some temp =>
    have hreply : temperatureReply ops (c.peer.next others).driver (i16 which) =
        encode ipcCmdrOk [bigEndian 2 (temp % 2 ^ 16).toNat] := by
      unfold temperatureReply
      rw [htemp]
    dsimp only
    rw [hreply] at hexec ⊢
    unfold commGetTemperature
    exact requestValue_values h rfl henc (encodable_word (by decide) temp) hexec rfl (getShortArg_encode temp)
  | none =>
    have hreply : temperatureReply ops (c.peer.next others).driver (i16 which) =
        encode ipcCmdrError [ascii "unknown temperature parameter value"] := by
      unfold temperatureReply
      rw [htemp]
    have hfits : Fits (ascii "unknown temperature parameter value") := by decide
    dsimp only
    rw [hreply] at hexec ⊢
    unfold commGetTemperature
    exact requestValue_error h rfl henc hfits hexec

theorem getProgress_run (h : Ready c) : (commGetProgress (serverPeer ops files client others)).run c =
    some ((0, some ((progressOf ops (c.peer.next others).driver).map i32)),
      c.after ipcCmdqGetProgress [] (c.peer.next others,
        { sent := [progressReply ops (c.peer.next others).driver] })) := by
  set driver := (c.peer.next others).driver with hdriver
  have hreply : progressReply ops driver = encode ipcCmdrOk
      ((progressOf ops driver).map fun v => bigEndian 4 (v % 2 ^ 32).toNat) := rfl
  have hvalues : Encodable ipcCmdrOk ((progressOf ops driver).map fun v => bigEndian 4 (v % 2 ^ 32).toNat) :=
    ⟨by decide, by simp [progressOf], by simp [progressOf]⟩
  have hexec : (c.peer.next others).exec ops files (.command client ipcCmdqGetProgress (payloads []) []) = _ :=
    exec_getProgress
  have hread : readLongs (encode ipcCmdrOk _) (List.range 7) = some (0, (progressOf ops driver).map i32) :=
    readLongs_encode hvalues rfl
  rw [← hdriver, hreply] at hexec
  rw [hreply]
  unfold commGetProgress
  refine requestValue_values h rfl ⟨by decide, by decide, by decide⟩ hvalues hexec rfl ?_
  rw [hread]
  rfl

theorem getState_run (h : Ready c) : (commGetState (serverPeer ops files client others)).run c =
    some ((0, some (ascii (ops.getState (c.peer.next others).driver).name)),
      c.after ipcCmdqGetState [] (c.peer.next others,
        { sent := [stateReply ops (c.peer.next others).driver] })) := by
  have hvalues : Encodable ipcCmdrOk [ascii (ops.getState (c.peer.next others).driver).name] := by
    cases ops.getState (c.peer.next others).driver <;> exact ⟨by decide, by decide, by decide⟩
  have hexec : (c.peer.next others).exec ops files (.command client ipcCmdqGetState (payloads []) []) = _ :=
    exec_getState
  have hname : cString (ascii (ops.getState (c.peer.next others).driver).name) =
      ascii (ops.getState (c.peer.next others).driver).name := by
    cases ops.getState (c.peer.next others).driver <;> decide
  have hread := getStringArg_encode hvalues
  rw [hname] at hread
  unfold commGetState
  exact requestValue_values h rfl ⟨by decide, by decide, by decide⟩ hvalues hexec rfl hread

theorem zero_notMem_answerTo (question : Option Text) : 0 ∉ answerTo question := by
  cases question with
  | none => decide
  | some question =>
    intro hmem
    rcases List.mem_append.mp hmem with hmem | hmem
    · rcases List.mem_append.mp hmem with hmem | hmem
      · exact absurd hmem (by decide)
      · exact zero_notMem_cString question hmem
    · exact absurd hmem (by decide)

theorem testCommand_run (h : Ready c) (question : Option Text) (hanswer : InOneRead (answerTo question)) :
    (commTestCommand (serverPeer ops files client others) question).run c =
      some ((0, some (answerTo question)),
        c.after ipcCmdqTest (question.toList.map fun q => .x (some (cString q)))
          (c.peer.next others, { sent := [encode ipcCmdrOk [answerTo question]] })) := by
  have hpayloads : payloads (question.toList.map fun q => .x (some (cString q))) =
      question.toList.map cString := by
    cases question <;> rfl
  have henc : Encodable ipcCmdqTest (question.toList.map cString) := by
    cases question with
    | none => exact ⟨by decide, by decide, by decide⟩
    | some question =>
      refine encodable_singleton (by decide) ?_
      unfold InOneRead answerTo testAnswer at hanswer
      unfold Fits
      simp only [List.length_append] at hanswer
      omega
  have hexec : (c.peer.next others).exec ops files
      (.command client ipcCmdqTest (question.toList.map cString) []) =
      _ := exec_test question henc hanswer.fits
  have hvalues : Encodable ipcCmdrOk [answerTo question] := encodable_singleton (by decide) hanswer.fits
  have hread := getStringArg_encode hvalues
  rw [cString_of_notMem (zero_notMem_answerTo question)] at hread
  rw [← hpayloads] at henc hexec
  unfold commTestCommand
  exact requestValue_values h rfl henc hvalues hexec rfl hread

theorem sendGCodeFile_run (h : Ready c) {file : Text} {trx : Transaction}
    (htrx : (c.peer.next others).clients client = some trx) (hfits : Fits (cString file))
    (herror : ∀ message, files (some (cString file)) = .error message → InOneRead message) :
    (commSendGCodeFile (serverPeer ops files client others) file).run c =
      if trx.active then some (-4, c.after ipcCmdqGcodeAppendFile [.x (some (cString file))]
        (c.peer.next others, { sent := [retryLater] }) (some retryLaterString))
      else match files (some (cString file)) with
        | .ok data => (ops.appendGCode (c.peer.next others).driver (cString data) (-1) none).map fun p =>
            (0, c.after ipcCmdqGcodeAppendFile [.x (some (cString file))]
              ({ c.peer.next others with driver := p.2 },
                { sent := [okReply], calls := [.appendGCode (cString data) (-1) none] }))
        | .error message => some (-1, c.after ipcCmdqGcodeAppendFile [.x (some (cString file))]
            (c.peer.next others, { sent := [encode ipcCmdrError [message]] })
            (some (serverError message))) := by
  have henc : Encodable ipcCmdqGcodeAppendFile (payloads [.x (some (cString file))]) :=
    encodable_singleton (by decide) hfits
  have hexec : (c.peer.next others).exec ops files (.command client ipcCmdqGcodeAppendFile
      (payloads [.x (some (cString file))]) []) = _ := Server.exec_gcodeAppendFile htrx henc
  rw [payloads_text, List.getElem?_cons_zero, Option.map_some, cString_cString] at hexec
  unfold commSendGCodeFile
  split_ifs at hexec ⊢ with hactive
  · exact requestPlain_refused h rfl henc hexec (encode_ne_nil _ _) (fun c => response_retryLater) (by decide)
  · cases hfile : files (some (cString file)) with
    | ok data =>
      rw [hfile] at hexec
      exact requestPlain_ok h rfl henc hexec
    | error message =>
      have hshort := (herror message hfile).fits
      rw [hfile] at hexec
      dsimp only at hexec
      rw [if_pos hshort] at hexec
      exact requestPlain_refused h rfl henc hexec (encode_ne_nil _ _) (fun c => response_error hshort 0)
        (by decide)

theorem transparent_of_ready (h : Ready c) :
    Transparent ops files client (serverPeer ops files client others) (c.peer.next others) c where
  clearGCode := requestPlain_ok h rfl ⟨by decide, by decide, by decide⟩
    (Server.exec_gcodeClear ⟨by decide, by decide, by decide⟩)
  startPrint := requestPlain_ok h rfl ⟨by decide, by decide, by decide⟩
    (Server.exec_gcodeStartPrint ⟨by decide, by decide, by decide⟩)
  stopPrint := stopPrint_run h
  heatup := heatup_run h
  getTemperature := getTemperature_run h
  getProgress := getProgress_run h
  getState := getState_run h
  testCommand := testCommand_run h
  sendGCodeFile _ _ := sendGCodeFile_run h

/-- Whatever the other clients do before it, each call returns what its method returns for the driver of
the server, and has done to that driver what its method does. -/
theorem calls_transparent (h : Ready c) :
    Transparent ops files client (serverPeer ops files client others) (c.peer.next others) c :=
  transparent_of_ready h

def connected : Communicator (Session MarlinDriver) :=
  { socketFd := 3, peer := { server := ({ driver := {} } : Server MarlinDriver).connect } }

theorem calls_transparent_connected :
    Transparent (MarlinDriver.ops fun _ => 0) (fun _ => .error []) 0
      (serverPeer (MarlinDriver.ops fun _ => 0) (fun _ => .error []) 0 fun _ s => s) connected.peer.server
      connected := by
  have hready : Ready connected := ⟨by decide, rfl⟩
  exact calls_transparent hready

end Communicator
end Print3D
