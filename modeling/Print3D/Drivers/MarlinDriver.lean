import Print3D.Drivers.AbstractDriver

/-! The driver for printers that take gcode line by line and answer each line with a
line of their own. Writes to the serial port succeed, and `none` stands for an escaping
exception or an undefined read. -/
namespace Print3D
open Lines

structure MarlinDriver extends AbstractDriver where
  checkTemperatureInterval : ℤ := 5000
  checkConnection : Bool := true
  /-- What has been written to the serial port, write by write. -/
  written : List Text := []
  deriving DecidableEq, Repr

namespace MarlinDriver

variable (atof : Text → Int32) (d : MarlinDriver)

def wire (code : Text) : Text := cString (code ++ [newline])

def sendCode (code : Text) : Option MarlinDriver :=
  if d.isConnected then do
    let base ← d.extractGCodeInfo atof code
    some { d with
      toAbstractDriver := base
      written := d.written ++ [wire code] }
  else some d

def checkTemperature : Option MarlinDriver := sendCode atof d (ascii "M105")

def heatup (temperature : ℤ) : Option MarlinDriver :=
  sendCode atof d (ascii ("M104 S" ++ toString temperature))

def resetPrint : MarlinDriver := { d with toAbstractDriver := d.toAbstractDriver.resetPrint.2 }

def printNextLine : Option MarlinDriver :=
  let (amount, line) := d.gcodeBuffer.getNextLine
  if amount > 0 then do
    let d ← sendCode atof d line
    some { d with gcodeBuffer := d.gcodeBuffer.setCurrentLine (i32 (d.gcodeBuffer.getCurrentLine + 1)) }
  else some d.resetPrint

def setGCode (gcode : Text) (totalLines : ℤ := -1) (metaData : Option MetaData := none) :
    Option (GcodeSetResult × MarlinDriver) := do
  let (gsr, base) ← d.toAbstractDriver.setGCode atof gcode totalLines metaData
  some (gsr, { d with toAbstractDriver := base })

def appendGCode (gcode : Text) (totalLines : ℤ := -1) (metaData : Option MetaData := none) :
    Option (GcodeSetResult × MarlinDriver) := do
  let (gsr, base) ← d.toAbstractDriver.appendGCode atof gcode totalLines metaData
  some (gsr, { d with toAbstractDriver := base })

def clearGCode : MarlinDriver := { d with toAbstractDriver := d.toAbstractDriver.clearGCode }

def startPrint (state : DriverState := .printing) : Option (Bool × MarlinDriver) :=
  let (started, base) := d.toAbstractDriver.startPrint state
  let d := { d with toAbstractDriver := base }
  if started then (printNextLine atof d).map fun d => (true, d) else some (false, d)

/-- The overload that takes gcode, which is set unless it is empty. -/
def startPrintGCode (gcode : Text) (state : DriverState := .printing) : Option (Bool × MarlinDriver) :=
  if gcode.length > 0 then do
    let (_, d) ← setGCode atof d gcode
    startPrint atof d state
  else startPrint atof d state

def stopPrint (endcode : Text := []) : Option (Bool × MarlinDriver) := do
  let (_, d) ← setGCode atof d.resetPrint endcode
  startPrint atof d .stopping

/-- `npos + 2` is 1, and a search from `npos` finds nothing. -/
def parseTemperatures (code : Text) : Option MarlinDriver := do
  let posT := findText (ascii "T:") 0 code
  let posTT := posT.bind fun p => find 47 p code
  let posB := findText (ascii "B:") 0 code
  let posTBT := posB.bind fun p => find 47 p code
  let temperature ← AbstractDriver.findNumber atof code (match posT with | none => 1 | some p => p + 2)
  let target ← AbstractDriver.numberAt atof code (posTT.map (· + 1))
  let bed ← AbstractDriver.numberAt atof code (posB.map (· + 2))
  let bedTarget ← AbstractDriver.numberAt atof code (posTBT.map (· + 1))
  some { d with
    heating := posT = some 0
    temperature := u16 temperature
    targetTemperature := (target.map u16).getD d.targetTemperature
    bedTemperature := (bed.map u16).getD d.bedTemperature
    targetBedTemperature := (bedTarget.map u16).getD d.targetBedTemperature }

def readResponseCode (code : Text) : Option MarlinDriver :=
  if ascii "ok T:" <+: code ∨ ascii "T:" <+: code then do
    let d ← parseTemperatures atof d code
    let d := if d.checkConnection then { d with checkConnection := false, state := .idle } else d
    some { d with checkTemperatureInterval := if d.isPrinting then 5000 else 1500 }
  else if ascii "ok" <+: code then
    if d.isPrinting then do
      let (_, g) ← d.gcodeBuffer.eraseLine
      printNextLine atof { d with gcodeBuffer := g }
    else some d
  else if ascii "start" <:+: code then some d
  else if ascii "Resend:" <:+: code then
    printNextLine atof
      { d with gcodeBuffer := d.gcodeBuffer.setCurrentLine (i32 (d.gcodeBuffer.getCurrentLine - 1)) }
  else some d

end MarlinDriver
end Print3D
