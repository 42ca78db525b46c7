import Print3D.Server.Runs

/-! What each single request does to the server and to its client, beside those of `Runs`. -/
namespace Print3D
open CommandHandler FixedWidth LengthPrefixed Effects

namespace CommandHandler

variable {D : Type} {ops : DriverOps D} {s : Server D} {o : Output} {code : ℕ} {args : List Text} {r : Text}

/-- A message that fits an `int` with the rest of its reply. -/
def Fits (message : Text) : Prop := message.length + 8 < 2 ^ 31

instance (message : Text) : Decidable (Fits message) := by
  unfold Fits
  infer_instance

theorem encodable_singleton {message : Text} (hcode : code < 2 ^ 16) (h : Fits message) :
    Encodable code [message] := by
  refine ⟨hcode, by simp, ?_⟩
  rw [encode_length, fields_cons, fields_nil, List.append_nil, field_length]
  unfold Fits at h
  omega

/-- A message that does not fit is written outside of the buffer. -/
theorem sendText_run (hcode : code < 2 ^ 16) (hfound : (findCommandDescription code).isSome) (message : Text) :
    (sendCmd code [.x (some message)] : Handler D Unit).run (s, o) =
      if Fits message then some ((), s, { o with sent := o.sent ++ [encode code [message]] }) else none := by
  split_ifs with h
  · exact sendCmd_run hfound (encodable_singleton hcode h)
  · obtain ⟨d, hd⟩ := Option.isSome_iff_exists.mp hfound
    have hlarge : (encode code []).length + 4 + message.length ≥ 2 ^ 31 := by
      unfold Fits at h
      rw [encode_length, fields_nil, List.length_nil]
      omega
    have hnone : ipcVaConstructCmd heap code [.x (some message)] = none := by
      rw [ipcVaConstructCmd, hd, Option.bind_eq_bind, Option.bind_some, ipcCmdSet_eq heap_grants]
      dsimp only
      rw [constructArgs]
      simp only [FormatArg.bytes]
      rw [ipcCmdAddArg, Option.getD_some, if_pos hlarge]
      rfl
    rw [sendCmd, hnone]
    rfl

def testAnswer (question : Text) : Text :=
  ascii "printserver test answer to the question: '" ++ question ++ ascii "'"

def testReply : Text := encode ipcCmdrOk [ascii "printserver test answer without question"]

theorem hndTest_run (h : Encodable code args) :
    (hndTest (encode code args ++ r) : Handler D Unit).run (s, o) = match args[0]? with
      | none => some ((), s, { o with sent := o.sent ++ [testReply] })
      | some a => if Fits (testAnswer (cString a)) then
          some ((), s, { o with sent := o.sent ++ [encode ipcCmdrOk [testAnswer (cString a)]] })
        else none := by
  unfold hndTest
  rw [run_lift_bind (ipcCmdNumArgs_encode h r)]
  cases args with
  | nil =>
    rw [if_neg (by simp)]
    exact sendCmd_run rfl ⟨by decide, by decide, by decide⟩
  | cons a args =>
    rw [if_pos (by simp), stringArg_encode h]
    exact sendText_run (by decide) rfl _

def temperatureReply (ops : DriverOps D) (driver : D) (which : ℤ) : Text :=
  match temperatureOf ops driver which with
  | some temp => encode ipcCmdrOk [bigEndian 2 (temp % 2 ^ 16).toNat]
  | none => encode ipcCmdrError [ascii "unknown temperature parameter value"]

private theorem sendTemperature_run (temp : ℤ) : (sendCmd ipcCmdrOk [.w temp] : Handler D Unit).run (s, o) =
    some ((), s, { o with sent := o.sent ++ [encode ipcCmdrOk [bigEndian 2 (temp % 2 ^ 16).toNat]] }) :=
  sendCmd_run rfl (encodable_singleton (by decide) (by simp [Fits]))

private theorem sendUnknown_run :
    (sendError (ascii "unknown temperature parameter value") : Handler D Unit).run (s, o) =
      some ((), s, { o with
        sent := o.sent ++ [encode ipcCmdrError [ascii "unknown temperature parameter value"]] }) :=
  sendReply_run (some _) rfl ⟨by decide, by decide, by decide⟩

theorem hndGetTemperature_run (h : Encodable code args) :
    (hndGetTemperature ops (encode code args ++ r)).run (s, o) = match args[0]? with
      | none => some ((), s, { o with sent := o.sent ++ [missingArgument] })
      | some a => (readShort a).map fun which =>
          ((), s, { o with sent := o.sent ++ [temperatureReply ops s.driver which] }) := by
  unfold hndGetTemperature
  rw [run_lift_bind (ipcCmdNumArgs_encode h r)]
  cases args with
  | nil =>
    rw [if_neg (by simp)]
    exact sendError_run
  | cons a args =>
    rw [if_pos (by simp), run_bind_of_eq_some (show getDriver.run (s, o) = some (s.driver, s, o) from rfl)]
    have hread : ipcCmdGetShortArg heap (encode code (a :: args) ++ r) 0 = (readShort a).map .ok := by
      rw [ipcCmdGetShortArg, ipcCmdGetArg_getElem? h]
      cases hv : readNs a 0 <;> simp [readShort, hv]
    change _ = (readShort a).map _
    cases ha : readShort a with
    | none =>
      rw [hread, ha]
      rfl
    | some which =>
      rw [run_lift_bind (hread.trans (congrArg _ ha)), Option.map_some]
      unfold temperatureReply
      cases htemp : temperatureOf ops s.driver which with
      | none =>
        dsimp only
        rw [htemp]
        exact sendUnknown_run
      | some temp =>
        dsimp only
        rw [htemp]
        exact sendTemperature_run temp

theorem hndGcodeStartPrint_run : (hndGcodeStartPrint ops).run (s, o) = (ops.startPrint s.driver).map fun p =>
    ((), { s with driver := p.2 }, { sent := o.sent ++ [okReply], calls := o.calls ++ [.startPrint] }) := by
  unfold hndGcodeStartPrint
  rw [StateT.run_bind, callDriver_run]
  cases ops.startPrint s.driver with
  | none => rfl
  | some p => exact sendOk_run

theorem hndHeatup_run (h : Encodable code args) :
    (hndHeatup ops (encode code args ++ r)).run (s, o) = match args[0]? with
      | none => some ((), s, { o with sent := o.sent ++ [missingArgument] })
      | some a => (readShort a).bind fun temperature => (ops.heatup s.driver temperature).map fun driver =>
          ((), { s with driver := driver },
            { sent := o.sent ++ [okReply], calls := o.calls ++ [.heatup temperature] }) := by
  unfold hndHeatup
  rw [run_lift_bind (ipcCmdNumArgs_encode h r)]
  cases args with
  | nil =>
    rw [if_neg (by simp)]
    exact sendError_run
  | cons a args =>
    rw [if_pos (by simp)]
    have hread : shortArg (encode code (a :: args) ++ r) 0 0 = readShort a := shortArg_encode h 0 0
    change _ = (readShort a).bind _
    cases ha : readShort a with
    | none =>
      rw [hread, ha]
      rfl
    | some temperature =>
      rw [run_lift_bind (hread.trans ha), Option.bind_some, StateT.run_bind, callDriver_run, Option.map_map]
      cases ops.heatup s.driver temperature with
      | none => rfl
      | some driver => exact sendOk_run

def progressReply (ops : DriverOps D) (driver : D) : Text :=
  encode ipcCmdrOk ([ops.getCurrentLine driver, ops.getBufferedLines driver, ops.getTotalLines driver,
    ops.getBufferSize driver, ops.getMaxBufferSize driver, (ops.getMetaData driver).seqNumber,
    (ops.getMetaData driver).seqTotal].map fun v => bigEndian 4 (v % 2 ^ 32).toNat)

theorem hndGetProgress_run : (hndGetProgress ops).run (s, o) =
    some ((), s, { o with sent := o.sent ++ [progressReply ops s.driver] }) := by
  unfold hndGetProgress
  rw [run_bind_of_eq_some (show getDriver.run (s, o) = some (s.driver, s, o) from rfl)]
  refine sendCmd_run rfl ⟨by decide, by simp [payloads, FormatArg.bytes], ?_⟩
  simp [payloads, FormatArg.bytes]

def stateReply (ops : DriverOps D) (driver : D) : Text := encode ipcCmdrOk [ascii (ops.getState driver).name]

theorem hndGetState_run : (hndGetState ops).run (s, o) =
    some ((), s, { o with sent := o.sent ++ [stateReply ops s.driver] }) := by
  unfold hndGetState
  rw [run_bind_of_eq_some (show getDriver.run (s, o) = some (s.driver, s, o) from rfl)]
  refine sendCmd_run rfl ?_
  change Encodable ipcCmdrOk [ascii (ops.getState s.driver).name]
  cases ops.getState s.driver <;> exact ⟨by decide, by decide, by decide⟩

def retryLater : Text := encode ipcCmdrRetryLater [ascii "transaction in progress"]

/-- The reply that comes first if there is no argument. -/
def argumentNotice (args : List Text) : List Text := if args = [] then [missingArgument] else []

theorem hndGcodeAppendFile_run {client : ℕ} {trx : Transaction} {files : Option Text → Except Text Text}
    (htrx : s.clients client = some trx) (h : Encodable code args) :
    (hndGcodeAppendFile ops client (encode code args ++ r) files).run (s, o) =
      if trx.active then some ((), s, { o with sent := o.sent ++ argumentNotice args ++ [retryLater] })
      else match files (args[0]?.map cString) with
        | .ok data => (ops.appendGCode s.driver (cString data) (-1) none).map fun p =>
            ((), { s with driver := p.2 },
              { sent := o.sent ++ argumentNotice args ++ [okReply]
                calls := o.calls ++ [.appendGCode (cString data) (-1) none] })
        | .error message => if Fits message then
            some ((), s, { o with sent := o.sent ++ argumentNotice args ++ [encode ipcCmdrError [message]] })
          else none := by
  have hnotice : (sendIf ((args.length : ℤ) = 0) (sendError (ascii "missing argument")) :
      Handler D Unit).run (s, o) = some ((), s, { o with sent := o.sent ++ argumentNotice args }) := by
    unfold sendIf argumentNotice
    cases args with
    | nil => exact sendError_run
    | cons a args =>
      rw [if_neg (by simp; omega), if_neg (List.cons_ne_nil _ _), List.append_nil]
      rfl
  unfold hndGcodeAppendFile
  rw [run_lift_bind (ipcCmdNumArgs_encode h r), run_bind_of_eq_some hnotice,
    run_bind_of_eq_some (getTransaction_run htrx)]
  split_ifs with hactive
  · exact sendReply_run (some _) rfl ⟨by decide, by decide, by decide⟩
  · rw [run_lift_bind (stringArg_encode h 0)]
    cases hfile : files (args[0]?.map cString) with
    | error message => exact sendText_run (by decide) rfl message
    | ok data =>
      dsimp only
      rw [StateT.run_bind, callDriver_run]
      cases ops.appendGCode s.driver (cString data) (-1) none with
      | none => rfl
      | some p => exact sendOk_run

end CommandHandler

inductive Request
  | test
  | getTemperature
  | gcodeClear
  | gcodeAppend
  | gcodeAppendFile
  | gcodeStartPrint
  | gcodeStopPrint
  | heatup
  | getProgress
  | getState
  deriving DecidableEq

def Request.code : Request → ℕ
  | test => ipcCmdqTest
  | getTemperature => ipcCmdqGetTemperature
  | gcodeClear => ipcCmdqGcodeClear
  | gcodeAppend => ipcCmdqGcodeAppend
  | gcodeAppendFile => ipcCmdqGcodeAppendFile
  | gcodeStartPrint => ipcCmdqGcodeStartprint
  | gcodeStopPrint => ipcCmdqGcodeStopprint
  | heatup => ipcCmdqHeatup
  | getProgress => ipcCmdqGetProgress
  | getState => ipcCmdqGetState

def Request.all : List Request := [test, getTemperature, gcodeClear, gcodeAppend, gcodeAppendFile,
  gcodeStartPrint, gcodeStopPrint, heatup, getProgress, getState]

def Request.handler {D : Type} (ops : DriverOps D) (client : ℕ) (buf : Text)
    (files : Option Text → Except Text Text) : Request → Handler D Unit
  | test => hndTest buf
  | getTemperature => hndGetTemperature ops buf
  | gcodeClear => hndGcodeClear ops client
  | gcodeAppend => hndGcodeAppend ops client buf
  | gcodeAppendFile => hndGcodeAppendFile ops client buf files
  | gcodeStartPrint => hndGcodeStartPrint ops
  | gcodeStopPrint => hndGcodeStopPrint ops client buf
  | heatup => hndHeatup ops buf
  | getProgress => hndGetProgress ops
  | getState => hndGetState ops

/-- The table of the handlers, as a table of the requests. -/
theorem handlers_eq {D : Type} (ops : DriverOps D) (client : ℕ) (buf : Text)
    (files : Option Text → Except Text Text) : handlers ops client buf files = Request.all.map fun request =>
      (request.code, request.handler ops client buf files) := rfl

theorem Request.mem_all (request : Request) : request ∈ Request.all := by
  cases request <;> decide

namespace Server

variable {D : Type} {ops : DriverOps D} {files : Option Text → Except Text Text} {s : Server D} {client : ℕ}
  {args : List Text} {rest : Text} {trx : Transaction}

theorem exec_request (request : Request) (h : Encodable request.code args) :
    s.exec ops files (.command client request.code args rest) =
      ((request.handler ops client (encode request.code args ++ rest) files).run (s, {})).map (·.2) := by
  rw [exec, runCommand_of_mem ops h]
  rw [handlers_eq]
  exact List.mem_map.mpr ⟨request, request.mem_all, rfl⟩

theorem exec_gcodeAppendFile (htrx : s.clients client = some trx) (h : Encodable ipcCmdqGcodeAppendFile args) :
    s.exec ops files (.command client ipcCmdqGcodeAppendFile args rest) =
      if trx.active then some (s, { sent := argumentNotice args ++ [retryLater] })
      else match files (args[0]?.map cString) with
        | .ok data => (ops.appendGCode s.driver (cString data) (-1) none).map fun p =>
            ({ s with driver := p.2 },
              { sent := argumentNotice args ++ [okReply], calls := [.appendGCode (cString data) (-1) none] })
        | .error message => if Fits message then
            some (s, { sent := argumentNotice args ++ [encode ipcCmdrError [message]] })
          else none := by
  have hexec : s.exec ops files (.command client ipcCmdqGcodeAppendFile args rest) =
      ((hndGcodeAppendFile ops client (encode ipcCmdqGcodeAppendFile args ++ rest) files).run (s, {})).map
        (·.2) :=
    exec_request .gcodeAppendFile h
  rw [hexec, hndGcodeAppendFile_run htrx h]
  split_ifs with hactive
  · rfl
  · cases files (args[0]?.map cString) with
    | ok data =>
      rw [Option.map_map]
      rfl
    | error message =>
      dsimp only
      split_ifs <;> rfl

theorem exec_gcodeStartPrint (h : Encodable ipcCmdqGcodeStartprint args) :
    s.exec ops files (.command client ipcCmdqGcodeStartprint args rest) = (ops.startPrint s.driver).map fun p =>
      ({ s with driver := p.2 }, { sent := [okReply], calls := [.startPrint] }) := by
  have hexec : s.exec ops files (.command client ipcCmdqGcodeStartprint args rest) =
      ((hndGcodeStartPrint ops).run (s, {})).map (·.2) := exec_request .gcodeStartPrint h
  rw [hexec, hndGcodeStartPrint_run, Option.map_map]
  rfl

end Server
end Print3D
