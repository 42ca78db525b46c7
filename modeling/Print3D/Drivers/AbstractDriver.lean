import Print3D.Drivers.GCodeBuffer

/-! The state and the functions all drivers share. The parameter `atof` stands for the
library function with the conversion of its result to an `int`; what becomes of a number
that does not fit one is left open, as C++ leaves it undefined. -/
namespace Print3D
open Lines

inductive DriverState
  | unknown
  | disconnected
  | connecting
  | idle
  | buffering
  | printing
  | stopping
  deriving DecidableEq, Repr

def DriverState.name : DriverState → String
  | .unknown => "unknown"
  | .disconnected => "disconnected"
  | .connecting => "connecting"
  | .idle => "idle"
  | .buffering => "buffering"
  | .printing => "printing"
  | .stopping => "stopping"

/-- `std::string::find` for a text, with `none` for `npos`. -/
def findText (pattern : Text) (start : ℕ) (s : Text) : Option ℕ :=
  (List.range (s.length + 1)).find? fun i => start ≤ i ∧ pattern <+: s.drop i

def rfindText (pattern s : Text) : Option ℕ :=
  (List.range (s.length + 1)).reverse.find? fun i => pattern <+: s.drop i

def u16 (x : ℤ) : ℕ := (x % 2 ^ 16).toNat

structure AbstractDriver where
  heating : Bool := false
  temperature : ℕ := 0
  targetTemperature : ℕ := 0
  bedTemperature : ℕ := 0
  targetBedTemperature : ℕ := 0
  state : DriverState := .disconnected
  gcodeBuffer : GCodeBuffer := {}
  /-- `serial_.isOpen()` -/
  isConnected : Bool := false
  deriving DecidableEq, Repr

namespace AbstractDriver

variable (atof : Text → Int32) (d : AbstractDriver)

def setState (state : DriverState) : AbstractDriver := { d with state := state }

def isPrinterOnline : Bool :=
  d.state ≠ .unknown ∧ d.state ≠ .disconnected ∧ d.state ≠ .connecting

def isPrinting : Bool := d.state = .printing ∨ d.state = .stopping

def setBaudrate (ssrOk : Bool) : AbstractDriver := if ssrOk then d.setState .connecting else d

/-- `rv` is the result of opening the serial port, `ssrOk` says whether its speed could be set. -/
def openConnection (rv : ℤ) (ssrOk : Bool) : ℤ × AbstractDriver :=
  if rv < 0 then (rv, d) else (0, { d with isConnected := true }.setBaudrate ssrOk)

def resetPrint : Bool × AbstractDriver :=
  if d.isPrinterOnline then
    (true, { d.setState .idle with gcodeBuffer := d.gcodeBuffer.setCurrentLine 0 })
  else (false, d)

/-- `none` where `substr` throws because `startPos` is past the end. The number is returned as an `int`. -/
def findNumber (code : Text) (startPos : ℕ) : Option ℤ :=
  if startPos > code.length then none
  else
    let posEnd := (find newline startPos code).or (find 32 startPos code)
    let valueStr := match posEnd with
      | none => code.drop startPos
      | some posEnd => (code.drop startPos).take (posEnd - startPos)
    some (atof (cString valueStr)).toInt

/-- `findNumber` at a position that a search may not have found. -/
def numberAt (code : Text) : Option ℕ → Option (Option ℤ)
  | none => some none
  | some startPos => (findNumber atof code startPos).map some

def extractGCodeInfo (gcode : Text) : Option AbstractDriver := do
  let target ← numberAt atof gcode ((rfindText (ascii "M109") gcode).map (· + 6))
  let bedTarget ← numberAt atof gcode ((rfindText (ascii "M190") gcode).map (· + 6))
  some { d with
    targetTemperature := (target.map u16).getD d.targetTemperature
    targetBedTemperature := (bedTarget.map u16).getD d.targetBedTemperature }

/-- What `setGCode` and `appendGCode` do with the answer of the buffer. -/
def gcodeStored (gcode : Text) : GcodeSetResult × GCodeBuffer → Option (GcodeSetResult × AbstractDriver)
  | (.ok, g) => do
    let d ← extractGCodeInfo atof { d with gcodeBuffer := g } gcode
    some (.ok, if d.state = .idle then d.setState .buffering else d)
  | (gsr, g) => some (gsr, { d with gcodeBuffer := g })

def setGCode (gcode : Text) (totalLines : ℤ := -1) (metaData : Option MetaData := none) :
    Option (GcodeSetResult × AbstractDriver) := do
  gcodeStored atof d gcode (← d.gcodeBuffer.set gcode totalLines metaData)

def appendGCode (gcode : Text) (totalLines : ℤ := -1) (metaData : Option MetaData := none) :
    Option (GcodeSetResult × AbstractDriver) := do
  gcodeStored atof d gcode (← d.gcodeBuffer.append gcode totalLines metaData)

def clearGCode : AbstractDriver :=
  let s := d.state
  let d := { d with gcodeBuffer := d.gcodeBuffer.clear }
  if s = .buffering ∨ s = .printing ∨ s = .stopping then d.setState .idle else d

/-- The overload that takes a state. -/
def startPrint (state : DriverState := .printing) : Bool × AbstractDriver :=
  if ¬ d.isPrinterOnline then (false, d)
  else
    let s := d.state
    let d := if s ≠ .printing ∧ s ≠ .stopping then d.resetPrint.2 else d
    (true, d.setState state)

end AbstractDriver
end Print3D
