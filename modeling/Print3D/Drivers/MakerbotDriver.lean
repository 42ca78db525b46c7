import Print3D.Drivers.AbstractDriver
import Print3D.Drivers.S3GParser
import Print3D.Drivers.Serial

/-! The driver for printers that take binary commands in packets and answer each packet with a
frame of their own. Bytes of an array that have not been stored are undefined, and so is what lies
behind it; numbers in a response have their low byte first. -/
namespace Print3D

/-- The conversion library: a state, how it is cleared, and what it turns a text into. -/
structure Gpx (σ : Type) where
  clearState : σ → σ
  convert : σ → Text → Text × σ

structure MakerbotDriver (σ : Type) extends AbstractDriver where
  bufferSpace : UInt32 := 512
  queue : List Text := []
  validResponseReceived : Bool := false
  firmwareVersion : ℕ := 0
  /-- The static variable that counts the updates. -/
  counter : ℕ := 0
  serial : Serial := {}
  /-- The state of the conversion library. -/
  gpx : σ
  /-- The texts converted since the last full stop, with what came out, call by call. -/
  conversions : List (Text × Text) := []
  /-- The commands `processQueue` has handed to `sendPacket` since then. -/
  handed : List Text := []
  /-- The frames with a valid checksum that have been received, each with the command it answers. -/
  received : List (UInt8 × Text) := []
  deriving DecidableEq, Repr

namespace MakerbotDriver

def printerBufferSize : ℤ := 512
def gcodeCvtLines : ℕ := 25
def queueMinSize : ℕ := 10
def queueFillSize : ℕ := 30

variable {σ : Type} (gpx : Gpx σ) (atof : Text → Int32) (d : MakerbotDriver σ)

/-- What the constructor leaves; `state` is that of the conversion library. -/
def init (state : σ) : MakerbotDriver σ where
  gcodeBuffer := GCodeBuffer.setKeepGpxMacroComments {} true
  gpx := state

/-! ### Responses -/

def crcShift (crc : UInt8) : UInt8 := if crc &&& 1 ≠ 0 then (crc >>> 1) ^^^ 0x8C else crc >>> 1

def crcIbuttonUpdate (crc data : UInt8) : UInt8 := crcShift^[8] (crc ^^^ data)

def crcOf (payload : Text) : UInt8 := payload.foldl crcIbuttonUpdate 0

def read16 : Text → Except Halt ℕ
  | b₀ :: b₁ :: _ => .ok (b₀.toNat + b₁.toNat * 256)
  | _ => .error .undefined

def read32 : Text → Except Halt UInt32
  | b₀ :: b₁ :: b₂ :: b₃ :: _ =>
    .ok (b₀.toUInt32 + b₁.toUInt32 * 256 + b₂.toUInt32 * 65536 + b₃.toUInt32 * 16777216)
  | _ => .error .undefined

/-- Where the port is closed the process exits. -/
def handleReadError (serial : Serial) (rv : ℤ) : Except Halt Unit :=
  if rv = -2 ∨ rv = -1 ∧ (serial.errno = .enxio ∨ serial.errno = .ebadf) then .error .exited else .ok ()

/-- The overload that reads one byte. -/
def readAndCheckError (serial : Serial) (timeout : ℕ) : Except Halt (ℤ × Serial) := do
  let (rv, serial) := serial.readByteDirect timeout
  handleReadError serial rv
  return (rv, serial)

/-- The overload that reads into a buffer. -/
def readAndCheckErrorInto (serial : Serial) (buflen timeout : ℕ) : Except Halt ((ℤ × Text) × Serial) := do
  let ((rv, data), serial) := serial.readBytesDirect buflen timeout
  handleReadError serial rv
  return ((rv, data), serial)

def responseTimeout : ℕ := 250

/-- The first part of `parseResponse`: the payload of a frame, or the value it returns early. -/
def readFrame (serial : Serial) : Except Halt (Except ℤ Text × Serial) := do
  let (rv, serial) ← readAndCheckError serial responseTimeout
  if rv < 0 then return (.error rv, serial)
  else if rv ≠ 0xD5 then return (.error (-99), serial)
  else do
    let (len, serial) ← readAndCheckError serial responseTimeout
    if len ≤ 0 then return (.error len, serial)
    else do
      let ((rv, buf), serial) ← readAndCheckErrorInto serial len.toNat responseTimeout
      if rv ≤ 0 then return (.error rv, serial)
      else do
        let (crc, serial) ← readAndCheckError serial responseTimeout
        if crc < 0 then return (.error len, serial)
        -- the checksum is computed over `len` bytes, whether they have been read or not
        else if buf.length < len.toNat then .error .undefined
        else if crc ≠ (crcOf buf).toNat then return (.error (-3), serial)
        else return (.ok buf, serial)

def storeTemperature (toolcmd : ℤ) (t : ℕ) : MakerbotDriver σ :=
  if toolcmd = 2 then { d with temperature := t }
  else if toolcmd = 30 then { d with bedTemperature := t }
  else if toolcmd = 32 then { d with targetTemperature := t }
  else if toolcmd = 33 then { d with targetBedTemperature := t }
  else d

/-- The `switch` on the command that has been answered. -/
def interpret (cmd : UInt8) (toolcmd : ℤ) (buf : Text) : Except Halt (MakerbotDriver σ) :=
  if cmd = 0 then do
    let version ← read16 (buf.drop 1)
    return { d with firmwareVersion := version }
  else if cmd = 2 then do
    let space ← read32 (buf.drop 1)
    return { d with bufferSpace := space }
  else if cmd = 10 then do
    let t ← read16 (buf.drop 1)
    let d := d.storeTemperature toolcmd t
    return if d.state = .connecting then { d with state := .idle } else d
  else return d

def parseResponse (cmd : UInt8) (toolcmd : ℤ) : Except Halt (ℤ × MakerbotDriver σ) := do
  let (frame, serial) ← readFrame d.serial
  let d := { d with serial := serial }
  match frame with
  | .error rv => return (rv, d)
  | .ok buf => do
    let d ← { d with received := d.received ++ [(cmd, buf)] }.interpret cmd toolcmd buf
    return (0, d)

/-! ### Packets -/

/-- `payload[2]` for a tool query. A command from the queue has a NUL behind its last byte. -/
def toolCommand (payload : Text) : Except Halt ℤ :=
  if payload.headD 0 = 10 then defined ((payload ++ [0])[2]?.map fun b => (b.toNat : ℤ)) else .ok (-1)

def packet (payload : Text) : Text := 0xD5 :: UInt8.ofNat payload.length :: payload ++ [crcOf payload]

/-- The `switch` on the result of an attempt. -/
def noteResponse (rv : ℤ) : MakerbotDriver σ := if rv = 0 then { d with validResponseReceived := true } else d

/-- The loop of `sendPacket`. -/
def tryPacket (pktBuf : Text) (cmd : UInt8) (toolcmd : ℤ) :
    ℕ → MakerbotDriver σ → Except Halt (ℤ × MakerbotDriver σ)
  | 0, _ => .error .undefined
  | retriesLeft + 1, d => do
    let (rv, d) ← { d with serial := d.serial.write pktBuf }.parseResponse cmd toolcmd
    if rv = 0 ∨ rv = -3 ∨ retriesLeft = 0 then return (rv, d.noteResponse rv)
    else tryPacket pktBuf cmd toolcmd retriesLeft (d.noteResponse rv)

def retries : ℕ := 5

/-- The approximation of the space left in the printer's buffer. -/
def reserve (len : ℕ) (updateBufferSpace : Bool) : MakerbotDriver σ :=
  if updateBufferSpace then { d with bufferSpace := d.bufferSpace - UInt32.ofNat len } else d

def sendPacket (payload : Text) (updateBufferSpace : Bool := true) : Except Halt (Bool × MakerbotDriver σ) := do
  let ((_, stray), serial) ← readAndCheckErrorInto d.serial payload.length 0
  if stray.length > 100 then .error .undefined
  else do
    let toolcmd ← toolCommand payload
    let d := { d with serial := serial }.reserve payload.length updateBufferSpace
    let (rv, d) ← d.tryPacket (packet payload) (payload.headD 0) toolcmd retries
    return (rv = 0, d)

def getFirmwareVersion : Except Halt (ℕ × MakerbotDriver σ) := do
  let (_, d) ← d.sendPacket [0] false
  return (d.firmwareVersion, d)

def requestBufferSpace : Except Halt (ℤ × MakerbotDriver σ) := do
  let (_, d) ← d.sendPacket [2]
  return (i32 d.bufferSpace.toNat, d)

def updateTemperatures : Except Halt (Bool × MakerbotDriver σ) := do
  let (rv₁, d) ← d.sendPacket [10, 0, 2] false
  let (rv₂, d) ← d.sendPacket [10, 0, 30] false
  let (rv₃, d) ← d.sendPacket [10, 0, 32] false
  let (rv₄, d) ← d.sendPacket [10, 0, 33] false
  return (rv₁ && rv₂ && rv₃ && rv₄, d)

/-! ### The queue -/

/-- The loop of `processQueue`, on the commands in the queue. -/
def sendCommands : List Text → MakerbotDriver σ → Except Halt (MakerbotDriver σ)
  | [], d => .ok d
  | command :: queue, d =>
    if command.length > (d.bufferSpace - 5).toNat then .ok d
    else do
      let (_, d) ← { d with queue := queue, handed := d.handed ++ [command] }.sendPacket command
      sendCommands queue d

def processQueue : Except Halt (MakerbotDriver σ) :=
  if d.queue ≠ [] then do
    let (space, d) ← d.requestBufferSpace
    if space > 480 then sendCommands d.queue d else return d
  else do
    let (space, d) ← d.requestBufferSpace
    return if space < printerBufferSize then d else { d with state := .idle }

/-- An empty text is not converted. -/
def convertGCode (gcode : Text) : Except Halt (MakerbotDriver σ) :=
  if gcode = [] then .ok d
  else do
    let (cvtBuf, state) := gpx.convert d.gpx gcode
    let parser ← (S3GParser.setBuffer {} cvtBuf).parseAll (cvtBuf.length + 1)
    return { d with
      gpx := state
      conversions := d.conversions ++ [(gcode, cvtBuf)]
      queue := d.queue ++ parser.commands }

/-- What `update` does with the lines it has converted. -/
def eraseConverted (amt : ℤ) : Except Halt (MakerbotDriver σ) := do
  let (_, g) ← defined (d.gcodeBuffer.eraseLine amt.toNat)
  return { d with gcodeBuffer := g.setCurrentLine (i32 (g.getCurrentLine + amt)) }

/-- The loop of `update`. -/
def refill : ℕ → MakerbotDriver σ → Except Halt (MakerbotDriver σ)
  | 0, _ => .error .unfinished
  | fuel + 1, d =>
    if d.queue.length < queueFillSize then do
      let (amt, lines) := d.gcodeBuffer.getNextLine gcodeCvtLines
      let d ← d.convertGCode gpx lines
      if amt > 0 then do
        let d ← d.eraseConverted amt
        refill fuel d
      else return d
    else return d

def pending : ℕ := d.gcodeBuffer.buckets.flatten.length

def refillQueue : Except Halt (MakerbotDriver σ) :=
  if d.isPrinting ∧ d.queue.length < queueMinSize then refill gpx (d.pending + 1) d else .ok d

def sendQueue : Except Halt (MakerbotDriver σ) := if d.isPrinting then d.processQueue else .ok d

/-- The version is asked for until the printer has answered. -/
def greet : Except Halt (MakerbotDriver σ) :=
  if d.validResponseReceived then .ok d
  else do
    let (_, d) ← d.getFirmwareVersion
    return d

/-- The queries of every thirtieth update. -/
def queryPrinter : Except Halt (MakerbotDriver σ) :=
  if d.counter = 30 then do
    let d ← d.greet
    let (_, d) ← d.updateTemperatures
    let (_, d) ← d.requestBufferSpace
    return { d with counter := 0 }
  else return d

/-- The return value is the time to the next call, in milliseconds. -/
def update : Except Halt (ℤ × MakerbotDriver σ) :=
  if ¬ d.isConnected then .ok (-1, d)
  else do
    let d ← d.refillQueue gpx
    let d ← d.sendQueue
    let d ← d.queryPrinter
    return (1000 / 30, { d with counter := d.counter + 1 })

/-! ### Requests -/

/-- The commands that would stop the printer are not sent. -/
def fullStop : MakerbotDriver σ :=
  { d with
    queue := []
    gpx := gpx.clearState d.gpx
    conversions := []
    handed := [] }

def setGCode (gcode : Text) (totalLines : ℤ := -1) (metaData : Option MetaData := none) :
    Except Halt (GcodeSetResult × MakerbotDriver σ) := do
  let (gsr, base) ← defined (d.toAbstractDriver.setGCode atof gcode totalLines metaData)
  return (gsr, { d with toAbstractDriver := base }.fullStop gpx)

def appendGCode (gcode : Text) (totalLines : ℤ := -1) (metaData : Option MetaData := none) :
    Except Halt (GcodeSetResult × MakerbotDriver σ) := do
  let (gsr, base) ← defined (d.toAbstractDriver.appendGCode atof gcode totalLines metaData)
  return (gsr, { d with toAbstractDriver := base })

def clearGCode : MakerbotDriver σ := { d with toAbstractDriver := d.toAbstractDriver.clearGCode }.fullStop gpx

def resetPrint : MakerbotDriver σ := { d with toAbstractDriver := d.toAbstractDriver.resetPrint.2 }

def startPrint (state : DriverState := .printing) : Bool × MakerbotDriver σ :=
  let (started, base) := d.toAbstractDriver.startPrint state
  (started, { d with toAbstractDriver := base })

/-- The overload that takes gcode. Unlike that of the base class it sets an empty one, too. -/
def startPrintGCode (gcode : Text) (state : DriverState := .printing) :
    Except Halt (Bool × MakerbotDriver σ) := do
  let (_, d) ← d.setGCode gpx atof gcode
  return d.startPrint state

def stopPrint (endcode : Text := []) : Except Halt (Bool × MakerbotDriver σ) := do
  let (_, d) ← (d.clearGCode gpx).setGCode gpx atof endcode
  let (_, d) ← d.resetPrint.setGCode gpx atof endcode
  return d.startPrint .stopping

/-- `sendCode` sends nothing. -/
def heatup (_temperature : ℤ) : MakerbotDriver σ := d

end MakerbotDriver
end Print3D
