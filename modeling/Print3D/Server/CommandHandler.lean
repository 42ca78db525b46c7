import Print3D.Drivers.MakerbotDriver
import Print3D.Drivers.MarlinDriver
import Print3D.Ipc.Shared
import Mathlib.Data.Int.Bitwise

/-! The handlers of the server, with the transactions of its clients. Allocation is taken
to succeed. `none` stands for an undefined read and for a call of a driver that does not
return. -/
namespace Print3D

/-- The virtual functions of a driver that the handlers call, for a driver of type `D`. -/
structure DriverOps (D : Type) where
  getTemperature : D → ℕ
  getTargetTemperature : D → ℕ
  getBedTemperature : D → ℕ
  getTargetBedTemperature : D → ℕ
  isHeating : D → Bool
  getCurrentLine : D → ℤ
  getBufferedLines : D → ℤ
  getTotalLines : D → ℤ
  getBufferSize : D → ℤ
  getMaxBufferSize : D → ℤ
  getMetaData : D → MetaData
  getState : D → DriverState
  appendGCode : D → Text → ℤ → Option MetaData → Option (GcodeSetResult × D)
  clearGCode : D → Option D
  startPrint : D → Option (Bool × D)
  stopPrint : D → Text → Option (Bool × D)
  heatup : D → ℤ → Option D

/-- The calls that can change a driver. -/
inductive DriverCall
  | appendGCode (gcode : Text) (totalLines : ℤ) (metaData : Option MetaData)
  | clearGCode
  | startPrint
  | stopPrint (endcode : Text)
  | heatup (temperature : ℤ)
  deriving DecidableEq

structure Transaction where
  buffer : Text := []
  active : Bool := false
  cancelled : Bool := false
  deriving DecidableEq, Repr

/-- Clients are numbered in the order in which they connect. -/
structure Server (D : Type) where
  driver : D
  clients : ℕ → Option Transaction := fun _ => none
  accepted : ℕ := 0

/-- What is sent to the client of a command, and what is called on the driver. -/
structure Output where
  sent : List Text := []
  calls : List DriverCall := []
  deriving DecidableEq

namespace Server

variable {D : Type}

def setTransaction (s : Server D) (client : ℕ) (transaction : Transaction) : Server D :=
  { s with clients := Function.update s.clients client (some transaction) }

def cancelAllTransactions (s : Server D) (exclude : Option ℕ) : Server D :=
  { s with clients := fun c =>
      if exclude = some c then s.clients c else (s.clients c).map fun trx => { trx with cancelled := true } }

end Server

namespace CommandHandler

def trxFirstChunkBit : ℤ := 0x1
def trxLastChunkBit : ℤ := 0x2

def ipcTempHotend : ℤ := 1
def ipcTempHotendTgt : ℤ := 2
def ipcTempBed : ℤ := 3
def ipcTempBedTgt : ℤ := 4
def ipcTempHeating : ℤ := 5

def hasBit (flags bit : ℤ) : Bool := flags.land bit ≠ 0

def heap : ℕ → Bool := fun _ => true

/-! ### Reading arguments -/

/-- The variable keeps its value `init` if the reader fails. -/
def shortArg (buf : Text) (argidx : ℕ) (init : ℤ) : Option ℤ :=
  (ipcCmdGetShortArg heap buf argidx).map fun
    | .ok v => v
    | .error _ => init

def longArg (buf : Text) (argidx : ℕ) (init : ℤ) : Option ℤ :=
  (ipcCmdGetLongArg heap buf argidx).map fun
    | .ok v => v
    | .error _ => init

/-- The string, or a NULL pointer if the reader fails. -/
def stringArg (buf : Text) (argidx : ℕ) : Option (Option Text) :=
  (ipcCmdGetStringArg heap buf argidx).map fun
    | .ok arg => some (cString arg)
    | .error _ => none

/-- The arguments of a `gcodeAppend` command. -/
structure Chunk where
  transactionFlags : ℤ
  totalLines : ℤ
  metaData : MetaData
  data : Text
  deriving DecidableEq

def Chunk.first (c : Chunk) : Bool := hasBit c.transactionFlags trxFirstChunkBit

def Chunk.last (c : Chunk) : Bool := hasBit c.transactionFlags trxLastChunkBit

def readIf {α : Type} (enough : Prop) [Decidable enough] (read : Option α) (init : α) : Option α :=
  if enough then read else some init

/-- What `hnd_gcodeAppend` reads, with the values of the arguments that are not there. -/
def readChunk (buf : Text) (numArgs : ℤ) : Option Chunk := do
  let flags := trxFirstChunkBit.lor trxLastChunkBit
  let transactionFlags ← readIf (numArgs ≥ 2) (shortArg buf 1 flags) flags
  let totalLines ← readIf (numArgs ≥ 3) (longArg buf 2 (-1)) (-1)
  let seqNumber ← readIf (numArgs ≥ 4) (longArg buf 3 (-1)) (-1)
  let seqTotal ← readIf (numArgs ≥ 5) (longArg buf 4 (-1)) (-1)
  let source ← readIf (numArgs ≥ 6) (((stringArg buf 5).bind id).map some) none
  let data ← (stringArg buf 0).bind id
  some { transactionFlags, totalLines, metaData := { seqNumber, seqTotal, source }, data }

/-! ### Replies and calls -/

variable {D : Type}

/-- A computation on the server that collects what it puts out. -/
abbrev Handler (D : Type) := StateT (Server D × Output) Option

def sendData (cmd : Text) : Handler D Unit :=
  modify fun (s, o) => (s, { o with sent := o.sent ++ [cmd] })

def sendCmd (code : ℕ) (args : List FormatArg) : Handler D Unit := do
  match ← ipcVaConstructCmd heap code args with
  | .ok cmd => sendData cmd
  | .error _ => pure ()

def sendReply (code : ℕ) (message : Option Text := none) : Handler D Unit :=
  sendCmd code (match message with | some message => [.x (some message)] | none => [])

def sendOk : Handler D Unit := sendReply ipcCmdrOk

def sendError (message : Text) : Handler D Unit := sendReply ipcCmdrError (some message)

def sendIf (c : Prop) [Decidable c] (reply : Handler D Unit) : Handler D Unit := if c then reply else pure ()

def getDriver : Handler D D := do
  return (← get).1.driver

def getTransaction (client : ℕ) : Handler D Transaction := do
  (← get).1.clients client

def modifyServer (f : Server D → Server D) : Handler D Unit := modify fun (s, o) => (f s, o)

def callDriver {α : Type} (call : DriverCall) (f : D → Option (α × D)) : Handler D α := do
  let (s, o) ← get
  let (result, driver) ← f s.driver
  set ({ s with driver := driver }, { o with calls := o.calls ++ [call] })
  return result

/-! ### The handlers -/

variable (ops : DriverOps D) (client : ℕ) (buf : Text)

def hndTest : Handler D Unit := do
  let numargs ← ipcCmdNumArgs buf
  if numargs > 0 then do
    let arg ← (stringArg buf 0).bind id
    sendCmd ipcCmdrOk [.x (some (ascii "printserver test answer to the question: '" ++ arg ++ ascii "'"))]
  else sendCmd ipcCmdrOk [.x (some (ascii "printserver test answer without question"))]

/-- The value for a parameter of `getTemperature`. -/
def temperatureOf (driver : D) (which : ℤ) : Option ℤ :=
  if which = ipcTempHotend then some (ops.getTemperature driver)
  else if which = ipcTempHotendTgt then some (ops.getTargetTemperature driver)
  else if which = ipcTempBed then some (ops.getBedTemperature driver)
  else if which = ipcTempBedTgt then some (ops.getTargetBedTemperature driver)
  else if which = ipcTempHeating then some (if ops.isHeating driver then 1 else 0)
  else none

/-- `arg` has no value if its reader fails. -/
def hndGetTemperature : Handler D Unit := do
  let numArgs ← ipcCmdNumArgs buf
  if numArgs > 0 then do
    let driver ← getDriver
    match ← ipcCmdGetShortArg heap buf 0 with
    | .error _ => failure
    | .ok which =>
      match temperatureOf ops driver which with
      | some temp => sendCmd ipcCmdrOk [.w temp]
      | none => sendError (ascii "unknown temperature parameter value")
  else sendError (ascii "missing argument")

def hndGcodeClear : Handler D Unit := do
  modifyServer fun server => server.cancelAllTransactions (some client)
  callDriver .clearGCode fun driver => (ops.clearGCode driver).map fun driver => ((), driver)
  sendOk

/-- The transaction with a chunk; the first one clears it. -/
def addChunk (transaction : Transaction) (chunk : Chunk) : Transaction :=
  let transaction := if chunk.first then { transaction with buffer := [], active := true } else transaction
  { transaction with buffer := transaction.buffer ++ chunk.data }

/-- Gives the text of the transaction to the driver and clears it. -/
def passTransaction (transaction : Transaction) (chunk : Chunk) : Handler D Unit := do
  let gsr ← callDriver (.appendGCode transaction.buffer chunk.totalLines (some chunk.metaData))
    fun driver => ops.appendGCode driver transaction.buffer chunk.totalLines (some chunk.metaData)
  modifyServer fun server => server.setTransaction client { transaction with buffer := [], active := false }
  if gsr ≠ .ok then sendReply ipcCmdrGcodeAddFailed (some (ascii gsr.name)) else sendOk

/-- A cancelled transaction is reported, and goes on. -/
def hndGcodeAppend : Handler D Unit := do
  let transaction ← getTransaction client
  let numArgs ← ipcCmdNumArgs buf
  if numArgs = 0 then sendError (ascii "missing argument")
  else do
    sendIf transaction.cancelled
      (sendReply ipcCmdrTrxCancelled (some (ascii "transaction cancelled")))
    let chunk ← readChunk buf numArgs
    let transaction := addChunk transaction chunk
    if chunk.last then passTransaction ops client transaction chunk
    else do
      modifyServer fun server => server.setTransaction client transaction
      sendOk

/-- `readFileContents` returns the bytes of a file, or the text of the error. The handler goes
on if there is no argument. -/
def hndGcodeAppendFile (readFileContents : Option Text → Except Text Text) : Handler D Unit := do
  let numArgs ← ipcCmdNumArgs buf
  sendIf (numArgs = 0) (sendError (ascii "missing argument"))
  let transaction ← getTransaction client
  if transaction.active then sendReply ipcCmdrRetryLater (some (ascii "transaction in progress"))
  else do
    let filename ← stringArg buf 0
    match readFileContents filename with
    | .ok data => do
      let s := cString data
      let _ ← callDriver (.appendGCode s (-1) none) fun driver => ops.appendGCode driver s (-1) none
      sendOk
    | .error message => sendError message

def hndGcodeStartPrint : Handler D Unit := do
  let _ ← callDriver .startPrint ops.startPrint
  sendOk

/-- Without an argument the end code is empty. -/
def hndGcodeStopPrint : Handler D Unit := do
  modifyServer fun server => server.cancelAllTransactions (some client)
  let numArgs ← ipcCmdNumArgs buf
  let endCode ← readIf (numArgs > 0) ((stringArg buf 0).bind id) []
  let _ ← callDriver (.stopPrint endCode) fun driver => ops.stopPrint driver endCode
  sendOk

def hndHeatup : Handler D Unit := do
  let numArgs ← ipcCmdNumArgs buf
  if numArgs > 0 then do
    let temperature ← shortArg buf 0 0
    callDriver (.heatup temperature) fun driver =>
      (ops.heatup driver temperature).map fun driver => ((), driver)
    sendOk
  else sendError (ascii "missing argument")

def hndGetProgress : Handler D Unit := do
  let driver ← getDriver
  let md := ops.getMetaData driver
  sendCmd ipcCmdrOk [.W (ops.getCurrentLine driver), .W (ops.getBufferedLines driver),
    .W (ops.getTotalLines driver), .W (ops.getBufferSize driver), .W (ops.getMaxBufferSize driver),
    .W md.seqNumber, .W md.seqTotal]

def hndGetState : Handler D Unit := do
  let driver ← getDriver
  sendCmd ipcCmdrOk [.x (some (ascii (ops.getState driver).name))]

def handlers (readFileContents : Option Text → Except Text Text) : List (ℕ × Handler D Unit) := [
  (ipcCmdqTest, hndTest buf),
  (ipcCmdqGetTemperature, hndGetTemperature ops buf),
  (ipcCmdqGcodeClear, hndGcodeClear ops client),
  (ipcCmdqGcodeAppend, hndGcodeAppend ops client buf),
  (ipcCmdqGcodeAppendFile, hndGcodeAppendFile ops client buf readFileContents),
  (ipcCmdqGcodeStartprint, hndGcodeStartPrint ops),
  (ipcCmdqGcodeStopprint, hndGcodeStopPrint ops client buf),
  (ipcCmdqHeatup, hndHeatup ops buf),
  (ipcCmdqGetProgress, hndGetProgress ops),
  (ipcCmdqGetState, hndGetState ops)]

/-- Runs the command at the start of `buf`. -/
def runCommand (readFileContents : Option Text → Except Text Text) : Handler D Unit := do
  let code ← ipcCmdGet buf
  (handlers ops client buf readFileContents).forM fun (c, hnd) => if c = code then hnd else pure ()

end CommandHandler

def MarlinDriver.ops (atof : Text → Int32) : DriverOps MarlinDriver where
  getTemperature d := d.temperature
  getTargetTemperature d := d.targetTemperature
  getBedTemperature d := d.bedTemperature
  getTargetBedTemperature d := d.targetBedTemperature
  isHeating d := d.heating
  getCurrentLine d := d.gcodeBuffer.getCurrentLine
  getBufferedLines d := d.gcodeBuffer.getBufferedLines
  getTotalLines d := d.gcodeBuffer.getTotalLines
  getBufferSize d := d.gcodeBuffer.getBufferSize
  getMaxBufferSize _ := GCodeBuffer.getMaxBufferSize
  getMetaData d := d.gcodeBuffer.getMetaData
  getState d := d.state
  appendGCode d gcode totalLines metaData := d.appendGCode atof gcode totalLines metaData
  clearGCode d := some d.clearGCode
  startPrint d := d.startPrint atof
  stopPrint d endcode := d.stopPrint atof endcode
  heatup d := d.heatup atof

def MakerbotDriver.ops {σ : Type} (gpx : Gpx σ) (atof : Text → Int32) : DriverOps (MakerbotDriver σ) where
  getTemperature d := d.temperature
  getTargetTemperature d := d.targetTemperature
  getBedTemperature d := d.bedTemperature
  getTargetBedTemperature d := d.targetBedTemperature
  isHeating d := d.heating
  getCurrentLine d := d.gcodeBuffer.getCurrentLine
  getBufferedLines d := d.gcodeBuffer.getBufferedLines
  getTotalLines d := d.gcodeBuffer.getTotalLines
  getBufferSize d := d.gcodeBuffer.getBufferSize
  getMaxBufferSize _ := GCodeBuffer.getMaxBufferSize
  getMetaData d := d.gcodeBuffer.getMetaData
  getState d := d.state
  appendGCode d gcode totalLines metaData := (d.appendGCode atof gcode totalLines metaData).toOption
  clearGCode d := some (d.clearGCode gpx)
  startPrint d := some d.startPrint
  stopPrint d endcode := (d.stopPrint gpx atof endcode).toOption
  heatup d temperature := some (d.heatup temperature)

end Print3D
