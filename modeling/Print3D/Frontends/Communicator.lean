import Print3D.Server.Client
import Print3D.Server.CommandHandler
import Print3D.Library.Chunks

/-! The sending side of a connection: `comm_sendGCodeData` and what it calls. A pointer into
the gcode is the text from there on. `none` stands for undefined behaviour and for a read that
does not return. -/
namespace Print3D
open CommandHandler Chunks

structure IpcGcodeMetadata where
  seqNumber : ℤ
  seqTotal : ℤ
  source : Option Text
  deriving DecidableEq, Repr

/-- The state of the module, the outcomes of the reads to come, and what is behind the socket. -/
structure Communicator (σ : Type) where
  socketFd : ℤ := -1
  error : Option Text := none
  reads : List ReadResult := []
  peer : σ

namespace Communicator

def ipcWaitTimeout : ℕ := 60 * 1000
def maxPacketSize : ℕ := 1024 - 8

def transactionCancelledString : Text := ascii "transaction_cancelled"
def retryLaterString : Text := ascii "retry_later"

/-- What `send` returns for some bytes, and the outcomes of reads that come from it. -/
abbrev Peer (σ : Type) := Text → σ → Option (ℤ × List ReadResult × σ)

abbrev Call (σ : Type) := StateT (Communicator σ) Option

variable {σ : Type}

def clearError : Call σ Unit := modify fun c => { c with error := none }

def setError (message : Text) : Call σ Unit := modify fun c => { c with error := some message }

def setErrorIf (cond : Prop) [Decidable cond] (message : Text) : Call σ Unit :=
  if cond then setError message else pure ()

/-- A message that is used as a format; a conversion would read an argument that is not there. -/
def formatMessage : Text → Option Text
  | 37 :: 37 :: message => (formatMessage message).map (37 :: ·)
  | 37 :: _ => none
  | c :: message => (formatMessage message).map (c :: ·)
  | [] => some []

variable (peer : Peer σ)

def send (sbuf : Text) : Call σ ℤ := do
  let c ← get
  let (rv, reads, state) ← peer sbuf c.peer
  set { c with reads := c.reads ++ reads, peer := state }
  return rv

/-- One read, which waits for data; `none` is returned if there were none. -/
def receive : Call σ (Option Text) := do
  let c ← get
  let (_, rbuf, reads) ← readAndAppendAvailableData ipcWaitTimeout true c.reads [] 0
  set { c with reads := reads }
  return if rbuf = [] then none else some rbuf

/-- `none` for the command is a NULL pointer. -/
def sendAndReceiveData (sbuf : Option Text) : Call σ (Option Text) := do
  let c ← get
  if c.socketFd < 0 then return none
  else match sbuf with
    | none => do
      setError (ascii "ipc command construction failed")
      return none
    | some sbuf => do
      let rv ← send peer sbuf
      if rv < 0 then do
        setError (ascii "could not send ipc command")
        return none
      else do
        setErrorIf (rv < sbuf.length) (ascii "could not send complete ipc command")
        receive

/-- 0 on success, -1 on error, -2 if appending gcode failed, -3 if the transaction was
cancelled, -4 on retryable error. -/
def handleBasicResponse (rcmd : Option Text) (expectedArgCount : ℤ) : Call σ ℤ := do
  match rcmd with
  | none => return -1
  | some rcmd => do
    let code ← ipcCmdGet rcmd
    if code = ipcCmdrOk then do
      let numArgs ← ipcCmdNumArgs rcmd
      return if numArgs ≠ expectedArgCount then -1 else 0
    else if code = ipcCmdrError then do
      let errmsg ← (stringArg rcmd 0).bind id
      setError (ascii "server returned error (" ++ errmsg ++ ascii ")")
      return -1
    else if code = ipcCmdrGcodeAddFailed then do
      let errmsg ← (stringArg rcmd 0).bind id
      let message ← formatMessage errmsg
      setError message
      return -2
    else if code = ipcCmdrTrxCancelled then do
      setError transactionCancelledString
      return -3
    else if code = ipcCmdrRetryLater then do
      setError retryLaterString
      return -4
    else do
      setError (ascii "server returned unexpected response")
      return -1

/-- `endP - startP + 1`: all that is left, or up to the last newline in a packet. -/
def packetSize (startP : Text) : ℕ :=
  if startP.length ≤ maxPacketSize then startP.length else lastBreak newline startP maxPacketSize

theorem packetSize_le (startP : Text) : packetSize startP ≤ startP.length := by
  unfold packetSize
  split_ifs with h
  · exact le_rfl
  · exact (lastBreak_le startP maxPacketSize).trans (not_le.mp h).le

/-- The flags of a packet. -/
def trxBits (firstPacket lastPacket : Prop) [Decidable firstPacket] [Decidable lastPacket] : ℤ :=
  (if firstPacket then trxFirstChunkBit else 0).lor (if lastPacket then trxLastChunkBit else 0)

/-- The format `xwWWW`, or `xwWWWs` if there is a source. -/
def packetArgs (data : Text) (bits totalLines seqNum seqTtl : ℤ) (source : Option Text) : List FormatArg :=
  [.x (some data), .w bits, .W totalLines, .W seqNum, .W seqTtl] ++ source.toList.map .s

def sendPacket (data : Text) (bits totalLines seqNum seqTtl : ℤ) (source : Option Text) : Call σ ℤ := do
  let scmd ← ipcVaConstructCmd heap ipcCmdqGcodeAppend (packetArgs data bits totalLines seqNum seqTtl source)
  let rcmd ← sendAndReceiveData peer scmd.toOption
  handleBasicResponse rcmd 0

/-- The loop of `comm_sendGCodeData`. -/
def sendPackets (totalLines seqNum seqTtl : ℤ) (source : Option Text) (startP : Text) (packetNum : ℕ)
    (rv : ℤ) : Call σ ℤ :=
  if startP = [] then return rv
  else if packetSize startP = 0 then return -1
  else do
    let n := packetSize startP
    let result ← sendPacket peer (startP.take n) (trxBits (packetNum = 0) (n = startP.length)) totalLines seqNum
      seqTtl source
    let rv := if result ≥ 0 then rv else result
    if rv = -1 then return rv
    else sendPackets totalLines seqNum seqTtl source (startP.drop n) (packetNum + 1) rv
termination_by startP.length
decreasing_by
  have := packetSize_le startP
  rw [List.length_drop]
  omega

def commSendGCodeData (gcode : Text) (totalLines : ℤ) (metadata : Option IpcGcodeMetadata) : Call σ ℤ := do
  clearError
  let seqNum := metadata.elim (-1) (·.seqNumber)
  let seqTtl := metadata.elim (-1) (·.seqTotal)
  sendPackets peer totalLines seqNum seqTtl (metadata.bind (·.source)) (cString gcode) 0 0

/-! ### Calls with one command -/

/-- A new command, and what comes back for it. -/
def request (code : ℕ) (args : List FormatArg) : Call σ (Option Text) := do
  clearError
  let scmd ← ipcVaConstructCmd heap code args
  sendAndReceiveData peer scmd.toOption

def requestPlain (code : ℕ) (args : List FormatArg) : Call σ ℤ := do
  let rcmd ← request peer code args
  let result ← handleBasicResponse rcmd 0
  return if result ≥ 0 then 0 else result

/-- A command whose reply has `expectedArgCount` arguments, read by `read`. -/
def requestValue {α : Type} (code : ℕ) (args : List FormatArg) (expectedArgCount : ℤ)
    (read : Text → Option (ℤ × Option α)) : Call σ (ℤ × Option α) := do
  let rcmd ← request peer code args
  let result ← handleBasicResponse rcmd expectedArgCount
  if result ≥ 0 then do
    let rcmd ← rcmd
    let value ← read rcmd
    return value
  else return (result, none)

/-- The return value of a reader, and the value it has stored. -/
def stored {α : Type} : Except ℤ α → ℤ × Option α
  | .error rv => (rv, none)
  | .ok value => (0, some value)

/-- The question may be NULL. -/
def commTestCommand (question : Option Text) : Call σ (ℤ × Option Text) :=
  requestValue peer ipcCmdqTest (question.toList.map fun question => .x (some (cString question))) 1 fun rcmd =>
    (ipcCmdGetStringArg heap rcmd 0).map fun answer => stored (answer.map cString)

def commClearGCode : Call σ ℤ := requestPlain peer ipcCmdqGcodeClear []

def commStartPrintGCode : Call σ ℤ := requestPlain peer ipcCmdqGcodeStartprint []

/-- The end code may be NULL. -/
def commStopPrintGCode (endCode : Option Text) : Call σ ℤ :=
  requestPlain peer ipcCmdqGcodeStopprint [.x (some (endCode.elim [] cString))]

def commSendGCodeFile (file : Text) : Call σ ℤ :=
  requestPlain peer ipcCmdqGcodeAppendFile [.x (some (cString file))]

def commGetTemperature (which : ℤ) : Call σ (ℤ × Option ℤ) :=
  requestValue peer ipcCmdqGetTemperature [.w which] 1 fun rcmd => (ipcCmdGetShortArg heap rcmd 0).map stored

def commHeatup (temperature : ℤ) : Call σ ℤ := do
  let rcmd ← request peer ipcCmdqHeatup [.w temperature]
  handleBasicResponse rcmd 0

/-- The values that are stored before a reader fails. -/
def readLongs (rcmd : Text) : List ℕ → Option (ℤ × List ℤ)
  | [] => some (0, [])
  | argidx :: args => do
    match ← ipcCmdGetLongArg heap rcmd argidx with
    | .error rv => some (rv, [])
    | .ok value => do
      let (rv, values) ← readLongs rcmd args
      some (rv, value :: values)

/-- The current line, the buffered lines, the total lines, the size of the buffer and its maximum,
and the numbers of the sequence. -/
def commGetProgress : Call σ (ℤ × Option (List ℤ)) :=
  requestValue peer ipcCmdqGetProgress [] 7 fun rcmd =>
    (readLongs rcmd (List.range 7)).map fun (rv, values) => (rv, some values)

def commGetState : Call σ (ℤ × Option Text) :=
  requestValue peer ipcCmdqGetState [] 1 fun rcmd =>
    (ipcCmdGetStringArg heap rcmd 0).map fun state => stored (state.map cString)

end Communicator

/-- The calls that exchange messages with the server. -/
inductive CommCall
  | testCommand (question : Option Text)
  | clearGCode
  | startPrintGCode
  | stopPrintGCode (endCode : Option Text)
  | sendGCodeFile (file : Text)
  | sendGCodeData (gcode : Text) (totalLines : ℤ) (metadata : Option IpcGcodeMetadata)
  | getTemperature (which : ℤ)
  | heatup (temperature : ℤ)
  | getProgress
  | getState
  deriving DecidableEq

namespace CommCall

variable {σ : Type} (peer : Communicator.Peer σ)
open Communicator

/-- The return value of a call. -/
def exec : CommCall → Call σ ℤ
  | testCommand question => (·.1) <$> commTestCommand peer question
  | clearGCode => commClearGCode peer
  | startPrintGCode => commStartPrintGCode peer
  | stopPrintGCode endCode => commStopPrintGCode peer endCode
  | sendGCodeFile file => commSendGCodeFile peer file
  | sendGCodeData gcode totalLines metadata => commSendGCodeData peer gcode totalLines metadata
  | getTemperature which => (·.1) <$> commGetTemperature peer which
  | heatup temperature => commHeatup peer temperature
  | getProgress => (·.1) <$> commGetProgress peer
  | getState => (·.1) <$> commGetState peer

def execAll : List CommCall → Call σ (List ℤ)
  | [] => return []
  | call :: calls => do
    let rv ← call.exec peer
    let rvs ← execAll calls
    return rv :: rvs

end CommCall
end Print3D
