import Print3D.Basic
import Print3D.Library.Effects

/-! The parser that takes the output of the gcode conversion apart into commands. A read outside
its buffer is undefined. -/
namespace Print3D

structure S3GParser where
  buffer : Text := []
  bufferPos : ℕ := 0
  commands : List Text := []
  deriving DecidableEq, Repr

namespace S3GParser

/-- The format of the operands of a command, empty for a code without an entry. -/
def commandTable : UInt8 → String
  | 129 => "<iiiI"
  | 130 => "<iii"
  | 131 => "<BIH"
  | 132 => "<BIH"
  | 133 => "<I"
  | 134 => "<B"
  | 135 => "<BHH"
  | 137 => "<B"
  | 138 => "<H"
  | 139 => "<iiiiiI"
  | 140 => "<iiiii"
  | 141 => "<BHH"
  | 142 => "<iiiiiIB"
  | 143 => "<b"
  | 144 => "<b"
  | 145 => "<BB"
  | 146 => "<BBBBB"
  | 147 => "<HHB"
  | 148 => "<BHB"
  | 150 => "<BB"
  | 151 => "<B"
  | 152 => "<B"
  | 154 => "<B"
  | 155 => "<iiiiiIBfh"
  | 156 => "<B"
  | 157 => "<BBBIHHIIB"
  | 158 => "<f"
  | _ => ""

def chars : List Char := "@=<>!cbB?hHiIlLqQfdspP".toList
def sizes : List Char := "0000011112244448848005".toList

def calcsizeChar (c : Char) : ℕ := ((chars.zip sizes).lookup c).elim 0 fun size => size.toNat - '0'.toNat

def calcsize (format : String) : ℕ := (format.toList.map calcsizeChar).sum

variable (p : S3GParser)

def read (n : ℕ) : Except Halt (Text × S3GParser) :=
  if p.bufferPos + n ≤ p.buffer.length then
    .ok ((p.buffer.drop p.bufferPos).take n, { p with bufferPos := p.bufferPos + n })
  else .error .undefined

def push (command : Text) : S3GParser := { p with commands := p.commands ++ [command] }

def parseToolAction : Except Halt S3GParser := do
  let (header, p) ← p.read 3
  let payloadLen := (header.getLastD 0).toNat
  let (payload, p) ← p.read payloadLen
  return p.push (136 :: (header ++ payload))

/-- The text from `bufferPos + 4` up to a NUL, at which the parser stays. -/
def parseText (code : UInt8) : Except Halt S3GParser :=
  let start := p.bufferPos + 4
  let text := cString (p.buffer.drop start)
  if start + text.length < p.buffer.length then
    .ok ({ p with bufferPos := start + text.length }.push (code :: text))
  else .error .undefined

def parseDisplayMessageAction : Except Halt S3GParser := p.parseText 149

def parseBuildStartNotificationAction : Except Halt S3GParser := p.parseText 153

def parseOperands (command : UInt8) : Except Halt S3GParser :=
  if command = 136 then p.parseToolAction
  else if command = 149 then p.parseDisplayMessageAction
  else if command = 153 then p.parseBuildStartNotificationAction
  else do
    let (packetData, p) ← p.read (calcsize (commandTable command))
    return p.push (command :: packetData)

/-- Whether there was a command, and the parser behind it. -/
def parseNextCommand : Except Halt (Bool × S3GParser) :=
  if p.bufferPos ≥ p.buffer.length then .ok (false, p)
  else do
    let (code, p) ← p.read 1
    let p ← p.parseOperands (code.headD 0)
    return (true, p)

def setBuffer (buf : Text) : S3GParser := { p with buffer := buf, bufferPos := 0 }

/-- `while (parseNextCommand())`. -/
def parseAll : ℕ → S3GParser → Except Halt S3GParser
  | 0, _ => .error .unfinished
  | fuel + 1, p => do
    let (more, p) ← p.parseNextCommand
    if more then parseAll fuel p else return p

/-! ### Progress -/

variable {p} {p' : S3GParser}

/-- The parser has gone on in the same buffer, by `n` bytes or more. -/
structure Advances (p : S3GParser) (n : ℕ) (p' : S3GParser) : Prop where
  buffer : p'.buffer = p.buffer
  pos : p.bufferPos + n ≤ p'.bufferPos
  le : p'.bufferPos ≤ p.buffer.length

theorem read_advances {n : ℕ} {bytes : Text} (h : p.read n = .ok (bytes, p')) : Advances p n p' := by
  unfold read at h
  split_ifs at h with hn
  cases h
  exact ⟨rfl, le_rfl, hn⟩

theorem Advances.trans {p'' : S3GParser} {m n : ℕ} (h : Advances p m p') (h' : Advances p' n p'') :
    Advances p m p'' := by
  have hle := h'.le
  rw [h.buffer] at hle
  exact ⟨h'.buffer.trans h.buffer, h.pos.trans (by have := h'.pos; omega), hle⟩

theorem parseText_advances {code : UInt8} (h : p.parseText code = .ok p') : Advances p 0 p' := by
  unfold parseText at h
  dsimp only at h
  split_ifs at h with hlt
  cases h
  exact ⟨rfl, by simp only [push]; omega, hlt.le⟩

theorem parseOperands_advances {command : UInt8} (h : p.parseOperands command = .ok p') : Advances p 0 p' := by
  unfold parseOperands at h
  split_ifs at h
  · obtain ⟨⟨header, p₁⟩, h₁, h⟩ := Effects.bind_eq_ok.mp h
    obtain ⟨⟨payload, p₂⟩, h₂, h⟩ := Effects.bind_eq_ok.mp h
    cases h
    have hadv := (read_advances h₁).trans (read_advances h₂)
    exact ⟨hadv.buffer, (Nat.le_add_right ..).trans hadv.pos, hadv.le⟩
  · exact parseText_advances h
  · exact parseText_advances h
  · obtain ⟨⟨packetData, p₁⟩, h₁, h⟩ := Effects.bind_eq_ok.mp h
    cases h
    have hadv := read_advances h₁
    exact ⟨hadv.buffer, (Nat.le_add_right ..).trans hadv.pos, hadv.le⟩

theorem parseNextCommand_advances (h : p.parseNextCommand = .ok (true, p')) : Advances p 1 p' := by
  unfold parseNextCommand at h
  split_ifs at h
  · cases h
  · obtain ⟨⟨code, p₁⟩, h₁, h⟩ := Effects.bind_eq_ok.mp h
    obtain ⟨p₂, h₂, h⟩ := Effects.bind_eq_ok.mp h
    cases h
    exact (read_advances h₁).trans (parseOperands_advances h₂)

theorem finishes_read (p : S3GParser) (n : ℕ) : Finishes (p.read n) := by
  unfold read
  split_ifs <;> exact nofun

theorem finishes_parseText (p : S3GParser) (code : UInt8) : Finishes (p.parseText code) := by
  unfold parseText
  dsimp only
  split_ifs <;> exact nofun

theorem finishes_parseOperands (p : S3GParser) (command : UInt8) : Finishes (p.parseOperands command) := by
  unfold parseOperands
  split_ifs
  · exact (finishes_read p 3).bind fun _ _ => (finishes_read _ _).bind fun _ _ => finishes_ok _
  · exact finishes_parseText p 149
  · exact finishes_parseText p 153
  · exact (finishes_read p _).bind fun _ _ => finishes_ok _

theorem finishes_parseNextCommand (p : S3GParser) : Finishes p.parseNextCommand := by
  unfold parseNextCommand
  split_ifs
  · exact finishes_ok _
  · exact (finishes_read p 1).bind fun _ _ => (finishes_parseOperands _ _).bind fun _ _ => finishes_ok _

theorem finishes_parseAll {fuel : ℕ} (hfuel : p.buffer.length - p.bufferPos < fuel) :
    Finishes (parseAll fuel p) := by
  induction fuel generalizing p with
  | zero => omega
  | succ fuel ih =>
    refine (finishes_parseNextCommand p).bind fun ⟨more, p'⟩ hnext => ?_
    cases more with
    | false => exact finishes_ok _
    | true =>
      have hadv := parseNextCommand_advances hnext
      have hpos := hadv.pos
      have hle := hadv.le
      refine ih ?_
      rw [hadv.buffer]
      omega

end S3GParser
end Print3D
