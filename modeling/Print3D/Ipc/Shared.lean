import Print3D.Basic

/-! The message format of `ipc_shared.c`. A buffer is its bytes, so `buflen` is their
number, and pointers are offsets. An `Option` is `none` where the code reads or writes
outside of a buffer; the codes -1 and -2 are errors of an `Except`. The parameter `grants`
says for which sizes `realloc` returns memory. Only `ipc_cmd_is_complete` adds lengths to pointers before it
knows that they lie in the buffer: it and `ipc_cmd_remove` are in `Addresses`, where the readers of arguments
are repeated with addresses. -/
namespace Print3D
open FixedWidth

def readNs (buf : Text) (p : ℕ) : Option ℕ :=
  if p + 2 ≤ buf.length then some (ofBigEndian ((buf.drop p).take 2)) else none

def readNl (buf : Text) (p : ℕ) : Option ℕ :=
  if p + 4 ≤ buf.length then some (ofBigEndian ((buf.drop p).take 4)) else none

/-- `memcpy` from a buffer. -/
def readBytes (buf : Text) (p n : ℕ) : Option Text :=
  if p + n ≤ buf.length then some ((buf.drop p).take n) else none

/-- The name, and the format of the arguments. -/
structure CommandDescription where
  code : ℕ
  name : String
  argFmt : String
  deriving DecidableEq, Repr

def ipcCmdsInvalid : ℕ := 0
def ipcCmdsNone : ℕ := 1
def ipcCmdqTest : ℕ := 0x10
def ipcCmdqGetTemperature : ℕ := 0x11
def ipcCmdqGcodeClear : ℕ := 0x12
def ipcCmdqGcodeAppend : ℕ := 0x13
def ipcCmdqGcodeAppendFile : ℕ := 0x14
def ipcCmdqGcodeStartprint : ℕ := 0x15
def ipcCmdqGcodeStopprint : ℕ := 0x16
def ipcCmdqHeatup : ℕ := 0x17
def ipcCmdqGetProgress : ℕ := 0x18
def ipcCmdqGetState : ℕ := 0x19
def ipcCmdrOk : ℕ := 0xE0
def ipcCmdrError : ℕ := 0xE1
def ipcCmdrNotImplemented : ℕ := 0xE2
def ipcCmdrGcodeAddFailed : ℕ := 0xE3
def ipcCmdrRetryLater : ℕ := 0xE4
def ipcCmdrTrxCancelled : ℕ := 0xE5

def ipcCommands : List CommandDescription := [
  ⟨ipcCmdsInvalid, "invalid", "-"⟩,
  ⟨ipcCmdsNone, "none", "-"⟩,
  ⟨ipcCmdqTest, "test", "*"⟩,
  ⟨ipcCmdqGetTemperature, "getTemperature", "w"⟩,
  ⟨ipcCmdqGcodeClear, "gcodeClear", ""⟩,
  ⟨ipcCmdqGcodeAppend, "gcodeAppend", "*"⟩,
  ⟨ipcCmdqGcodeAppendFile, "gcodeAppendFile", "x"⟩,
  ⟨ipcCmdqGcodeStartprint, "gcodeStartPrint", ""⟩,
  ⟨ipcCmdqGcodeStopprint, "gcodeStopPrint", "x"⟩,
  ⟨ipcCmdqHeatup, "heatup", "w"⟩,
  ⟨ipcCmdqGetProgress, "getProgress", ""⟩,
  ⟨ipcCmdqGetState, "getState", ""⟩,
  ⟨ipcCmdrOk, "ok", "*"⟩,
  ⟨ipcCmdrError, "error", "x"⟩,
  ⟨ipcCmdrNotImplemented, "not_implemented", "*"⟩,
  ⟨ipcCmdrGcodeAddFailed, "gcode_add_failed", "x"⟩,
  ⟨ipcCmdrRetryLater, "retry_later", "*"⟩,
  ⟨ipcCmdrTrxCancelled, "trx_cancelled", "*"⟩]

def findCommandDescription (code : ℕ) : Option CommandDescription :=
  ipcCommands.find? (·.code = code)

variable (grants : ℕ → Bool)

def ipcCmdSet (code : ℕ) : Except ℤ Text :=
  if grants 4 then .ok (bigEndian 2 code ++ bigEndian 2 0) else .error (-1)

/-- `none` for the argument is a NULL pointer. A sum past the range of `buflen` writes
outside of the buffer. -/
def ipcCmdAddArg (buf : Text) (arg : Option Text) : Option (Except ℤ Text) :=
  let arg := arg.getD []
  if buf.length + 4 + arg.length ≥ 2 ^ 31 then none
  else if grants (buf.length + 4 + arg.length) then do
    let t := buf ++ bigEndian 4 arg.length ++ arg
    let count ← readNs t 2
    some (.ok (t.take 2 ++ bigEndian 2 (count + 1) ++ t.drop 4))
  else some (.error (-1))

/-- A format character with its arguments; `other` is any other character. -/
inductive FormatArg
  | w (arg : ℤ)
  | W (arg : ℤ)
  | s (arg : Text)
  | x (arg : Option Text)
  | other (argtype : Char)
  deriving DecidableEq

/-- The bytes an argument is sent as. -/
def FormatArg.bytes : FormatArg → Option (Option Text)
  | w arg => some (some (bigEndian 2 (arg % 2 ^ 16).toNat))
  | W arg => some (some (bigEndian 4 (arg % 2 ^ 32).toNat))
  | s arg => some (some (cString arg))
  | x arg => some arg
  | other _ => none

/-- The result of `ipc_cmd_add_arg` is not looked at. -/
def constructArgs (cmd : Text) : List FormatArg → Option Text
  | [] => some cmd
  | a :: args => match a.bytes with
    | none => constructArgs cmd args
    | some bytes => do
      match ← ipcCmdAddArg grants cmd bytes with
      | .ok cmd => constructArgs cmd args
      | .error _ => constructArgs cmd args

/-- A code without a description makes the function read from a NULL pointer. -/
def ipcVaConstructCmd (code : ℕ) (args : List FormatArg) : Option (Except ℤ Text) := do
  let _ ← findCommandDescription code
  match ipcCmdSet grants code with
  | .error _ => some (.error (-1))
  | .ok cmd => (constructArgs grants cmd args).map .ok

def ipcCmdNumArgs (buf : Text) : Option ℤ :=
  if buf.length < 4 then some (-2) else (readNs buf 2).map (↑)

def ipcCmdGet (buf : Text) : Option ℕ :=
  if buf.length < 2 then some ipcCmdsInvalid else readNs buf 0

/-- The walk to argument `argidx`: where it starts, and its length. -/
def findArg (buf : Text) : ℕ → ℕ → Option (ℕ × ℕ)
  | 0, p => do
    let currarglen ← readNl buf p
    some (p, currarglen)
  | argidx + 1, p => do
    let currarglen ← readNl buf p
    findArg buf argidx (p + (4 + currarglen) % 2 ^ 32)

def ipcCmdGetArg (buf : Text) (argidx : ℕ) (addzero : Bool) : Option (Except ℤ Text) := do
  let count ← readNs buf 2
  if argidx ≥ count then some (.error (-2))
  else
    let (p, currarglen) ← findArg buf argidx 4
    if grants ((currarglen + addzero.toNat) % 2 ^ 32) then do
      let arg ← readBytes buf (p + 4) currarglen
      some (.ok (arg ++ if addzero then [0] else []))
    else some (.error (-1))

def ipcCmdGetArgLen (buf : Text) (argidx : ℕ) : Option ℤ := do
  let count ← readNs buf 2
  if argidx ≥ count then some (-2)
  else
    let (_, currarglen) ← findArg buf argidx 4
    some (i32 currarglen)

def ipcCmdGetShortArg (buf : Text) (argidx : ℕ) : Option (Except ℤ ℤ) := do
  match ← ipcCmdGetArg grants buf argidx false with
  | .error rv => some (.error rv)
  | .ok argbuf => do
    let v ← readNs argbuf 0
    some (.ok (i16 v))

def ipcCmdGetLongArg (buf : Text) (argidx : ℕ) : Option (Except ℤ ℤ) := do
  match ← ipcCmdGetArg grants buf argidx false with
  | .error rv => some (.error rv)
  | .ok argbuf => do
    let v ← readNl argbuf 0
    some (.ok (i32 v))

/-- The result is a `char*`: the callers see the string up to its first NUL. -/
def ipcCmdGetStringArg (buf : Text) (argidx : ℕ) : Option (Except ℤ Text) := do
  match ← ipcCmdGetArg grants buf argidx true with
  | .error rv => some (.error rv)
  | .ok argbuf => some (.ok argbuf)

end Print3D
