import Print3D.Server.CommandHandler
import Print3D.Ipc.RoundTrip
import Print3D.Library.Effects

/-! What the handlers do with a complete command, whatever follows it in the buffer. -/
namespace Print3D
open FixedWidth LengthPrefixed Effects

namespace CommandHandler

variable {D : Type} {s s' : Server D} {o o' : Output} {code : ℕ} {args : List Text} {r : Text}

/-! ### Replies -/

theorem heap_grants : ∀ n, 0 < n → heap n = true := fun _ _ => rfl

theorem sendCmd_run {fmt : List FormatArg} (hcode : (findCommandDescription code).isSome)
    (h : Encodable code (payloads fmt)) :
    (sendCmd code fmt : Handler D Unit).run (s, o) =
      some ((), s, { o with sent := o.sent ++ [encode code (payloads fmt)] }) := by
  have hcmd := ipcVaConstructCmd_eq heap_grants hcode h
  rw [sendCmd, hcmd]
  rfl

theorem sendReply_run (message : Option Text) (hcode : (findCommandDescription code).isSome)
    (h : Encodable code message.toList) :
    (sendReply code message : Handler D Unit).run (s, o) =
      some ((), s, { o with sent := o.sent ++ [encode code message.toList] }) := by
  cases message <;> exact sendCmd_run hcode h

theorem sendOk_run : (sendOk : Handler D Unit).run (s, o) =
    some ((), s, { o with sent := o.sent ++ [encode ipcCmdrOk []] }) :=
  sendReply_run none rfl ⟨by decide, by decide, by decide⟩

/-! ### Reading arguments -/

theorem ipcCmdGetArg_getElem? (h : Encodable code args) (i : ℕ) (addzero : Bool) :
    ipcCmdGetArg heap (encode code args ++ r) i addzero = some (match args[i]? with
      | some a => .ok (a ++ if addzero then [0] else [])
      | none => .error (-2)) := by
  by_cases hi : i < args.length
  · rw [ipcCmdGetArg_encode h r hi rfl, List.getElem?_eq_getElem hi]
  · rw [ipcCmdGetArg_beyond h r (not_lt.mp hi), List.getElem?_eq_none (not_lt.mp hi)]

/-- The number in an argument of at least 2 bytes. -/
def readShort (arg : Text) : Option ℤ := (readNs arg 0).map fun v : ℕ => i16 v

/-- The number in an argument of at least 4 bytes. -/
def readLong (arg : Text) : Option ℤ := (readNl arg 0).map fun v : ℕ => i32 v

theorem shortArg_encode (h : Encodable code args) (i : ℕ) (init : ℤ) :
    shortArg (encode code args ++ r) i init = args[i]?.elim (some init) readShort := by
  rw [shortArg, ipcCmdGetShortArg, ipcCmdGetArg_getElem? h]
  cases args[i]? with
  | none => rfl
  | some a => cases hv : readNs a 0 <;> simp [readShort, hv]

theorem longArg_encode (h : Encodable code args) (i : ℕ) (init : ℤ) :
    longArg (encode code args ++ r) i init = args[i]?.elim (some init) readLong := by
  rw [longArg, ipcCmdGetLongArg, ipcCmdGetArg_getElem? h]
  cases args[i]? with
  | none => rfl
  | some a => cases hv : readNl a 0 <;> simp [readLong, hv]

theorem stringArg_encode (h : Encodable code args) (i : ℕ) :
    stringArg (encode code args ++ r) i = some (args[i]?.map cString) := by
  rw [stringArg, ipcCmdGetStringArg, ipcCmdGetArg_getElem? h]
  cases args[i]? with
  | none => rfl
  | some a => simp [cString_append_zero]

/-- Whether there are enough arguments is whether this one is there. -/
theorem readIf_arg {α : Type} (read : Text → Option α) (init : α) (i : ℕ) {n : ℤ} (hn : n = i + 1) :
    readIf ((args.length : ℤ) ≥ n) (args[i]?.elim (some init) read) init =
      args[i]?.elim (some init) read := by
  unfold readIf
  split_ifs with hi
  · rfl
  · rw [List.getElem?_eq_none (by omega)]
    rfl

theorem readIf_source : readIf ((args.length : ℤ) ≥ 6) ((args[5]?.map cString).map some) none =
    some (args[5]?.map cString) := by
  unfold readIf
  split_ifs with hi
  · rw [List.getElem?_eq_getElem (show 5 < args.length by omega)]
    rfl
  · rw [List.getElem?_eq_none (by omega)]
    rfl

def Chunk.ofArgs (args : List Text) : Option Chunk := do
  let transactionFlags ← args[1]?.elim (some 3) readShort
  let totalLines ← args[2]?.elim (some (-1)) readLong
  let seqNumber ← args[3]?.elim (some (-1)) readLong
  let seqTotal ← args[4]?.elim (some (-1)) readLong
  let data ← args[0]?
  some { transactionFlags, totalLines, metaData := { seqNumber, seqTotal, source := args[5]?.map cString },
         data := cString data }

theorem readChunk_encode (h : Encodable code args) :
    readChunk (encode code args ++ r) args.length = Chunk.ofArgs args := by
  have hflags : trxFirstChunkBit.lor trxLastChunkBit = 3 := by decide
  unfold readChunk Chunk.ofArgs
  simp only [shortArg_encode h, longArg_encode h, stringArg_encode h, hflags, Option.bind_some, id_eq,
    readIf_arg (n := 2) readShort 3 1 rfl, readIf_arg (n := 3) readLong (-1) 2 rfl,
    readIf_arg (n := 4) readLong (-1) 3 rfl, readIf_arg (n := 5) readLong (-1) 4 rfl, readIf_source,
      Option.bind_eq_bind, Option.bind_map]
  rfl

/-! ### The append handler -/

def missingArgument : Text := encode ipcCmdrError [ascii "missing argument"]

def trxCancelled : Text := encode ipcCmdrTrxCancelled [ascii "transaction cancelled"]

def okReply : Text := encode ipcCmdrOk []

def addFailed (gsr : GcodeSetResult) : Text := encode ipcCmdrGcodeAddFailed [ascii gsr.name]

theorem sendError_run : (sendError (ascii "missing argument") : Handler D Unit).run (s, o) =
    some ((), s, { o with sent := o.sent ++ [missingArgument] }) :=
  sendReply_run (some _) rfl ⟨by decide, by decide, by decide⟩

theorem sendCancelled_run : (sendReply ipcCmdrTrxCancelled (some (ascii "transaction cancelled")) :
    Handler D Unit).run (s, o) = some ((), s, { o with sent := o.sent ++ [trxCancelled] }) :=
  sendReply_run (some _) rfl ⟨by decide, by decide, by decide⟩

theorem sendAddFailed_run (gsr : GcodeSetResult) :
    (sendReply ipcCmdrGcodeAddFailed (some (ascii gsr.name)) : Handler D Unit).run (s, o) =
      some ((), s, { o with sent := o.sent ++ [addFailed gsr] }) := by
  apply sendReply_run (some _) rfl
  cases gsr <;> exact ⟨by decide, by decide, by decide⟩

variable (ops : DriverOps D) {client : ℕ} {trx : Transaction} {chunk : Chunk}

/-- The reply that comes first if the transaction is cancelled. -/
def notice (trx : Transaction) : List Text := if trx.cancelled then [trxCancelled] else []

theorem hndGcodeAppend_nil (htrx : s.clients client = some trx) (h : Encodable code []) :
    (hndGcodeAppend ops client (encode code [] ++ r)).run (s, o) =
      some ((), s, { o with sent := o.sent ++ [missingArgument] }) := by
  unfold hndGcodeAppend getTransaction
  simp [ipcCmdNumArgs_encode h, htrx, sendError_run]

theorem lift_run {α : Type} (x : Option α) :
    (liftM x : Handler D α).run (s, o) = x.map fun a => (a, s, o) := by
  cases x <;> rfl

theorem getTransaction_run (htrx : s.clients client = some trx) :
    (getTransaction client : Handler D Transaction).run (s, o) = some (trx, s, o) := by
  rw [getTransaction]
  simp [htrx]

theorem modifyServer_run (f : Server D → Server D) :
    (modifyServer f : Handler D Unit).run (s, o) = some ((), f s, o) := rfl

theorem callDriver_run {α : Type} (call : DriverCall) (f : D → Option (α × D)) :
    (callDriver call f).run (s, o) = (f s.driver).map fun p =>
      (p.1, { s with driver := p.2 }, { o with calls := o.calls ++ [call] }) := by
  unfold callDriver
  cases hf : f s.driver <;> simp [hf]

private theorem notice_run (trx : Transaction) :
    (sendIf trx.cancelled (sendReply ipcCmdrTrxCancelled (some (ascii "transaction cancelled"))) :
      Handler D Unit).run (s, o) = some ((), s, { o with sent := o.sent ++ notice trx }) := by
  unfold notice sendIf
  split_ifs with hc
  · exact sendCancelled_run
  · rw [List.append_nil]
    rfl

theorem hndGcodeAppend_run (htrx : s.clients client = some trx) (h : Encodable code args)
    (hargs : args ≠ []) :
    (hndGcodeAppend ops client (encode code args ++ r)).run (s, o) =
      (Chunk.ofArgs args).bind fun chunk =>
        (if chunk.last then passTransaction ops client (addChunk trx chunk) chunk
          else do
            modifyServer fun server => server.setTransaction client (addChunk trx chunk)
            sendOk : Handler D Unit).run (s, { o with sent := o.sent ++ notice trx }) := by
  have hne : ¬ (args.length : ℤ) = 0 := by simpa using hargs
  unfold hndGcodeAppend
  rw [StateT.run_bind, getTransaction_run htrx, Option.bind_eq_bind, Option.bind_some, StateT.run_bind,
    ipcCmdNumArgs_encode h, lift_run, Option.map_some, Option.bind_eq_bind, Option.bind_some, if_neg hne,
    StateT.run_bind, notice_run, Option.bind_eq_bind, Option.bind_some, StateT.run_bind, lift_run,
    readChunk_encode h]
  cases Chunk.ofArgs args <;> rfl

theorem passTransaction_run :
    (passTransaction ops client trx chunk).run (s, o) =
      (ops.appendGCode s.driver trx.buffer chunk.totalLines (some chunk.metaData)).map fun p =>
        ((), { s with driver := p.2 }.setTransaction client { trx with buffer := [], active := false },
          { sent := o.sent ++ [if p.1 = .ok then okReply else addFailed p.1]
            calls := o.calls ++ [.appendGCode trx.buffer chunk.totalLines (some chunk.metaData)] }) := by
  unfold passTransaction
  rw [StateT.run_bind, callDriver_run]
  cases ops.appendGCode s.driver trx.buffer chunk.totalLines (some chunk.metaData) with
  | none => rfl
  | some p =>
    obtain ⟨gsr, driver⟩ := p
    rw [Option.map_some, Option.bind_eq_bind, Option.bind_some, StateT.run_bind, modifyServer_run,
      Option.bind_eq_bind, Option.bind_some, Option.map_some]
    by_cases hok : gsr = .ok
    · rw [if_neg (not_not.mpr hok), if_pos hok, sendOk_run]
      rfl
    · rw [if_pos hok, if_neg hok, sendAddFailed_run]

/-! ### The handlers that cancel -/

theorem hndGcodeClear_run :
    (hndGcodeClear ops client).run (s, o) = (ops.clearGCode s.driver).map fun driver =>
      ((), { s.cancelAllTransactions (some client) with driver := driver },
        { sent := o.sent ++ [okReply], calls := o.calls ++ [.clearGCode] }) := by
  unfold hndGcodeClear
  rw [StateT.run_bind, modifyServer_run, Option.bind_eq_bind, Option.bind_some, StateT.run_bind, callDriver_run]
  change ((Option.map _ (Option.map _ (ops.clearGCode s.driver))).bind _) = _
  cases ops.clearGCode s.driver with
  | none => rfl
  | some driver => exact sendOk_run

def endCode (args : List Text) : Text := (args[0]?.map cString).getD []

theorem hndGcodeStopPrint_run (h : Encodable code args) :
    (hndGcodeStopPrint ops client (encode code args ++ r)).run (s, o) =
      (ops.stopPrint s.driver (endCode args)).map fun p =>
        ((), { s.cancelAllTransactions (some client) with driver := p.2 },
          { sent := o.sent ++ [okReply], calls := o.calls ++ [.stopPrint (endCode args)] }) := by
  have harg : readIf ((args.length : ℤ) > 0) (args[0]?.map cString) [] = some (endCode args) := by
    unfold readIf endCode
    split_ifs with hi
    · rw [List.getElem?_eq_getElem (show 0 < args.length by omega)]
      rfl
    · rw [List.getElem?_eq_none (by omega)]
      rfl
  unfold hndGcodeStopPrint
  rw [StateT.run_bind, modifyServer_run, Option.bind_eq_bind, Option.bind_some, StateT.run_bind,
    ipcCmdNumArgs_encode h, lift_run, Option.map_some, Option.bind_eq_bind, Option.bind_some,
    StateT.run_bind, stringArg_encode h, Option.bind_some, id_eq, harg, lift_run, Option.map_some,
    Option.bind_eq_bind, Option.bind_some, StateT.run_bind, callDriver_run]
  change ((Option.map _ (ops.stopPrint s.driver (endCode args))).bind _) = _
  cases ops.stopPrint s.driver (endCode args) with
  | none => rfl
  | some p => exact sendOk_run

/-! ### Dispatch -/

variable {files : Option Text → Except Text Text}

theorem runCommand_run (h : Encodable code args) :
    (runCommand ops client (encode code args ++ r) files).run (s, o) =
      ((handlers ops client (encode code args ++ r) files).forM fun p =>
        if p.1 = code then p.2 else pure ()).run (s, o) := by
  unfold runCommand
  rw [StateT.run_bind, ipcCmdGet_encode h, lift_run]
  rfl

/-- The codes of the table differ, so that one handler is run. -/
theorem runCommand_of_mem (h : Encodable code args) {hnd : Handler D Unit}
    (hmem : (code, hnd) ∈ handlers ops client (encode code args ++ r) files) :
    (runCommand ops client (encode code args ++ r) files).run (s, o) = hnd.run (s, o) := by
  have hcodes : ((handlers ops client (encode code args ++ r) files).map (·.1)).Nodup := by
    change [ipcCmdqTest, ipcCmdqGetTemperature, ipcCmdqGcodeClear, ipcCmdqGcodeAppend,
      ipcCmdqGcodeAppendFile, ipcCmdqGcodeStartprint, ipcCmdqGcodeStopprint, ipcCmdqHeatup,
      ipcCmdqGetProgress, ipcCmdqGetState].Nodup
    decide
  rw [runCommand_run ops h, forM_of_mem hcodes hmem]

theorem runCommand_gcodeAppend (h : Encodable ipcCmdqGcodeAppend args) :
    (runCommand ops client (encode ipcCmdqGcodeAppend args ++ r) files).run (s, o) =
      (hndGcodeAppend ops client (encode ipcCmdqGcodeAppend args ++ r)).run (s, o) :=
  runCommand_of_mem ops h (by simp [handlers])

theorem runCommand_gcodeClear (h : Encodable ipcCmdqGcodeClear args) :
    (runCommand ops client (encode ipcCmdqGcodeClear args ++ r) files).run (s, o) =
      (hndGcodeClear ops client).run (s, o) :=
  runCommand_of_mem ops h (by simp [handlers])

theorem runCommand_gcodeStopPrint (h : Encodable ipcCmdqGcodeStopprint args) :
    (runCommand ops client (encode ipcCmdqGcodeStopprint args ++ r) files).run (s, o) =
      (hndGcodeStopPrint ops client (encode ipcCmdqGcodeStopprint args ++ r)).run (s, o) :=
  runCommand_of_mem ops h (by simp [handlers])

end CommandHandler
end Print3D
