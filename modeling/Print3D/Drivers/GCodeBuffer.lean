import Print3D.Basic

/-! The `GCodeBuffer` class: gcode text in a deque of buckets, with its counters and
the metadata of the last accepted chunk. Allocation is taken to succeed, and logging
is left out except where it dereferences an absent metadata pointer. -/
namespace Print3D
open Lines

inductive GcodeSetResult
  | ok
  | bufferFull
  | seqNumMissing
  | seqNumMismatch
  | seqTtlMissing
  | seqTtlMismatch
  | srcMissing
  | srcMismatch
  deriving DecidableEq, Repr

def GcodeSetResult.name : GcodeSetResult → String
  | .ok => "ok"
  | .bufferFull => "buffer_full"
  | .seqNumMissing => "seq_num_missing"
  | .seqNumMismatch => "seq_num_mismatch"
  | .seqTtlMissing => "seq_ttl_missing"
  | .seqTtlMismatch => "seq_ttl_mismatch"
  | .srcMissing => "seq_src_missing"
  | .srcMismatch => "seq_src_mismatch"

structure MetaData where
  seqNumber : ℤ := -1
  seqTotal : ℤ := -1
  source : Option Text := none
  deriving DecidableEq, Repr

structure GCodeBuffer where
  buckets : List Text := []
  currentLine : ℤ := 0
  bufferedLines : ℤ := 0
  totalLinesSent : ℤ := 0
  explicitTotalLines : ℤ := -1
  bufferSize : ℤ := 0
  md : MetaData := {}
  keepGpxMacroComments : Bool := false
  deriving DecidableEq, Repr

namespace GCodeBuffer

def maxBucketSize : ℕ := 1024 * 50
def maxBufferSize : ℕ := 1024 * 3072
def bufferSplitSize : ℕ := 1024 * 8

variable (g : GCodeBuffer)

def getCurrentLine : ℤ := g.currentLine
def getBufferedLines : ℤ := g.bufferedLines
def getTotalLinesSent : ℤ := g.totalLinesSent
def getTotalLines : ℤ := if g.explicitTotalLines ≥ 0 then g.explicitTotalLines else g.totalLinesSent
def getBufferSize : ℤ := g.bufferSize
def getMaxBufferSize : ℤ := maxBufferSize
def getMetaData : MetaData := g.md

def setKeepGpxMacroComments (keep : Bool) : GCodeBuffer := { g with keepGpxMacroComments := keep }

def setCurrentLine (line : ℤ) : GCodeBuffer := { g with currentLine := min line g.totalLinesSent }

def clear : GCodeBuffer := { keepGpxMacroComments := g.keepGpxMacroComments }

def crToNewline (c : UInt8) : UInt8 := if c = carriageReturn then newline else c

/-- Erases from `posComment` up to the next newline, or all of the rest. -/
def eraseToLineEnd (posComment : ℕ) (buffer : Text) : Text :=
  match find newline posComment buffer with
  | none => buffer.take posComment
  | some posCommentEnd => erase posComment (posCommentEnd - posComment) buffer

/-- The comment loop of `cleanupGCode`, with the early return of an emptied buffer as
`true`. A macro comment moves the search on by one; an erased one restarts it at `pos`. -/
def removeComments (keep : Bool) (pos : ℕ) : ℕ → Text → ℕ → Text × Bool
  | 0, buffer, _ => (buffer, false)
  | fuel + 1, buffer, posComment =>
    match find semicolon posComment buffer with
    | none => (buffer, false)
    | some p =>
      if keep ∧ p < buffer.length - 1 ∧ buffer[p + 1]? = some atSign then
        removeComments keep pos fuel buffer (p + 1)
      else
        let erased := eraseToLineEnd p buffer
        if erased = [] then (erased, true) else removeComments keep pos fuel erased pos

def removeDoubleNewlines : ℕ → Text → ℕ → Text
  | 0, buffer, _ => buffer
  | fuel + 1, buffer, posDoubleNewline =>
    match findPair newline newline posDoubleNewline buffer with
    | none => buffer
    | some p => removeDoubleNewlines fuel (buffer.take p ++ newline :: buffer.drop (p + 2)) p

/-- The rest of `cleanupGCode` after its comment loop. -/
def tidyNewlines (buffer : Text) (pos : ℕ) : Text :=
  let buffer := removeDoubleNewlines buffer.length buffer (pos - 1)
  let buffer := if find newline 0 buffer = some 0 then erase 0 1 buffer else buffer
  if buffer.length > 0 ∧ buffer.getLast? ≠ some newline then buffer ++ [newline] else buffer

/-- Cleans `buffer` from `pos` on; the early return leaves `bufferSize_` as it was. -/
def cleanupGCode (buffer : Text) (pos : ℕ) : GCodeBuffer × Text :=
  let buflen := buffer.length
  let buffer := buffer.take pos ++ (buffer.drop pos).map crToNewline
  match removeComments g.keepGpxMacroComments pos ((buflen + 1) * (buflen + 1)) buffer pos with
  | (buffer, true) => (g, buffer)
  | (buffer, false) =>
    let buffer := tidyNewlines buffer pos
    ({ g with bufferSize := i32 (g.bufferSize - (buflen - buffer.length)) }, buffer)

def updateStats (buffer : Text) (pos : ℕ) : GCodeBuffer :=
  let added := (buffer.drop pos).count newline
  let added := if buffer.length > 0 ∧ buffer.getLast? ≠ some newline then added + 1 else added
  let totalLinesSent := i32 (g.totalLinesSent + added)
  { g with
    bufferedLines := i32 (g.bufferedLines + added)
    totalLinesSent := totalLinesSent
    currentLine := if g.currentLine > totalLinesSent then totalLinesSent else g.currentLine }

/-- The buckets `appendChunk` works on: the last one has room. -/
def openBucket (buckets : List Text) : List Text :=
  let buckets := if buckets.length = 0 then buckets ++ [[]] else buckets
  if (buckets.getLastD []).length ≥ maxBucketSize then buckets ++ [[]] else buckets

def appendChunk (gcode : Text) : GCodeBuffer :=
  let buckets := openBucket g.buckets
  let b := buckets.getLastD []
  let pos := b.length
  let (g, b) := g.cleanupGCode (b ++ gcode) pos
  let g := { g with
    buckets := buckets.dropLast ++ [b]
    bufferSize := i32 (g.bufferSize + gcode.length) }
  g.updateStats b pos

/-- The pieces the loop of `append` passes to `appendChunk`: each ends with the first
newline at least `bufferSplitSize` bytes after its start, the last one with the text. -/
def splitChunks : ℕ → Text → ℕ → List Text
  | 0, _, _ => []
  | fuel + 1, gcode, start =>
    if start < gcode.length then
      let len := match find newline (start + bufferSplitSize) gcode with
        | some nl => nl - start + 1
        | none => gcode.length - start
      (gcode.drop start).take len :: splitChunks fuel gcode (start + len)
    else []

def chunks (gcode : Text) : List Text := splitChunks gcode.length gcode 0

def checkNumber (md : MetaData) (bufferSize : ℤ) (metaData : Option MetaData) : GcodeSetResult :=
  if md.seqNumber > -1 then
    match metaData with
    | none => .seqNumMissing
    | some m =>
      if m.seqNumber < 0 then .seqNumMissing
      else if i32 (md.seqNumber + 1) ≠ m.seqNumber then .seqNumMismatch
      else .ok
  else
    match metaData with
    | none => .ok
    | some m =>
      if m.seqNumber ≥ 0 then
        if m.seqNumber > 0 then .seqNumMismatch
        else if bufferSize > 0 then .seqNumMismatch
        else .ok
      else .ok

def checkTotal (md : MetaData) (metaData : Option MetaData) : GcodeSetResult :=
  if md.seqTotal > -1 then
    match metaData with
    | none => .seqTtlMissing
    | some m =>
      if m.seqTotal < 0 then .seqTtlMissing
      else if md.seqTotal ≠ m.seqTotal then .seqTtlMismatch
      else if i32 (m.seqNumber + 1) > m.seqTotal then .seqNumMismatch
      else .ok
  else .ok

def checkSource (md : MetaData) (metaData : Option MetaData) : GcodeSetResult :=
  match md.source with
  | none => .ok
  | some own =>
    match metaData.bind (·.source) with
    | none => .srcMissing
    | some src => if own ≠ src then .srcMismatch else .ok

/-- Each check runs only if the one before it passed. -/
def sanity (metaData : Option MetaData) : GcodeSetResult :=
  let sanity := checkNumber g.md g.bufferSize metaData
  let sanity := if sanity = .ok then checkTotal g.md metaData else sanity
  if sanity = .ok then checkSource g.md metaData else sanity

/-- An `int32_t` as the `size_t` it is converted to in a comparison with one. -/
def sizeT (x : ℤ) : ℕ := (x % 2 ^ 64).toNat

/-- What an accepted `append` records before it adds the gcode. -/
def housekeeping (totalLines : ℤ) (metaData : Option MetaData) : GCodeBuffer :=
  let g := if totalLines ≥ 0 then { g with explicitTotalLines := totalLines } else g
  match metaData with
  | none => g
  | some m => { g with md :=
      { seqNumber := m.seqNumber
        seqTotal := m.seqTotal
        source := if g.md.source = none then m.source else g.md.source } }

/-- `none` where the error message of a failed check reads from the absent metadata. -/
def append (gcode : Text) (totalLines : ℤ := -1) (metaData : Option MetaData := none) :
    Option (GcodeSetResult × GCodeBuffer) :=
  let sanity := g.sanity metaData
  if sanity ≠ .ok then
    if metaData = none then none else some (sanity, g)
  else if maxBufferSize > 0 ∧ sizeT g.bufferSize + gcode.length > maxBufferSize then
    some (.bufferFull, g)
  else some (.ok, (chunks gcode).foldl appendChunk (g.housekeeping totalLines metaData))

def set (gcode : Text) (totalLines : ℤ := -1) (metaData : Option MetaData := none) :
    Option (GcodeSetResult × GCodeBuffer) :=
  g.clear.append gcode totalLines metaData

/-- The loop `for (i = amount - 1; i > 0; i--)` of `getNextLine` and `eraseLine`; a search
after `npos` starts at the beginning. -/
def nextNewlines (b : Text) : ℕ → Option ℕ → ℤ → Option ℕ × ℤ
  | 0, pos, counter => (pos, counter)
  | i + 1, pos, counter =>
    match find newline (match pos with | none => 0 | some p => p + 1) b with
    | none => (none, counter)
    | some p => nextNewlines b i (some p) (counter + 1)

/-- The returned count and the text written to `line`. -/
def getNextLine (amount : ℕ := 1) : ℤ × Text :=
  match g.buckets with
  | [] => (0, [])
  | b :: _ =>
    let pos := find newline 0 b
    let counter : ℤ := if pos ≠ none then 1 else 0
    let (pos, counter) :=
      if amount > 1 ∧ pos ≠ none then
        let (pos, counter) := nextNewlines b (amount - 1) pos counter
        (pos, if pos = none ∧ b.getLast? ≠ some newline then counter + 1 else counter)
      else (pos, counter)
    (counter, match pos with | none => b | some p => b.take p)

/-- How far and how many lines `eraseLine` erases; `none` where `*(b->rbegin())` reads
from an empty bucket. -/
def eraseEnd (b : Text) (amount : ℕ) : Option (Option ℕ × ℤ) :=
  let pos := find newline 0 b
  if amount > 1 then
    let (pos, counter) := nextNewlines b (amount - 1) pos 1
    if pos = none then b.getLast?.map fun c => (pos, if c ≠ newline then counter + 1 else counter)
    else some (pos, counter)
  else some (pos, 1)

/-- Erases through `pos`, or all of the bucket. -/
def eraseThrough (b : Text) (pos : Option ℕ) : Text :=
  match pos with
  | none => []
  | some p => erase 0 (p + 1) b

def eraseLine (amount : ℕ := 1) : Option (ℤ × GCodeBuffer) :=
  match g.buckets with
  | [] => some (0, g)
  | b :: rest => (eraseEnd b amount).map fun (pos, counter) =>
    let erased := eraseThrough b pos
    (counter, { g with
      buckets := if erased.length = 0 then rest else erased :: rest
      bufferSize := i32 (g.bufferSize - (b.length - erased.length))
      bufferedLines := i32 (g.bufferedLines - counter) })

end GCodeBuffer
end Print3D
