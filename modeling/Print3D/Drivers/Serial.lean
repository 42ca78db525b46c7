import Print3D.Basic

/-! The `Serial` class, as far as a driver reads and writes bytes directly. What its reads find is
a list of outcomes to come. -/
namespace Print3D

/-- The values of `errno` that are told apart. -/
inductive Errno
  | enxio
  | ebadf
  | other
  deriving DecidableEq, Repr

/-- What a `read` of the port finds: bytes that have arrived, never none of them, nothing (and
whether `poll` then reports input within its timeout), the end of the connection, or an error. -/
inductive SerialRead
  | data (byte : UInt8) (bytes : Text)
  | wouldBlock (arrives : Bool)
  | interrupted
  | closed
  | failed (errno : Errno)
  deriving DecidableEq, Repr

/-- An open port. Where `reads` ends, nothing arrives any more. -/
structure Serial where
  reads : List SerialRead := []
  errno : Errno := .other
  /-- What has been written, write by write. -/
  written : List Text := []
  deriving DecidableEq, Repr

namespace Serial

variable (s : Serial)

def write (data : Text) : Serial := { s with written := s.written ++ [data] }

def unread : Text → List SerialRead → List SerialRead
  | [], reads => reads
  | byte :: bytes, reads => .data byte bytes :: reads

/-- The loop of `readBytesDirect`: the return value, the bytes stored, `errno`, and the reads left. -/
def readLoop (buflen timeout : ℕ) (errno : Errno) : List SerialRead → (ℤ × Text) × Errno × List SerialRead
  | [] => ((0, []), errno, [])
  | .wouldBlock arrives :: reads =>
    if timeout > 0 ∧ arrives then readLoop buflen timeout errno reads else ((0, []), errno, reads)
  | .interrupted :: reads => readLoop buflen timeout errno reads
  | .failed e :: reads => ((-1, []), e, reads)
  | .closed :: reads => ((-2, []), errno, reads)
  | .data byte bytes :: reads =>
    let stored := (byte :: bytes).take buflen
    let reads := unread ((byte :: bytes).drop buflen) reads
    if stored.length = 0 then ((-2, []), errno, reads) else ((stored.length, stored), errno, reads)

/-- The return value, with the bytes stored in the buffer. -/
def readBytesDirect (buflen timeout : ℕ) : (ℤ × Text) × Serial :=
  let (result, errno, reads) := readLoop buflen timeout s.errno s.reads
  (result, { s with reads := reads, errno := errno })

def readByteDirect (timeout : ℕ) : ℤ × Serial :=
  let ((rv, data), s) := s.readBytesDirect 1 timeout
  if rv = 0 then (-2, s)
  else if rv < 0 then (rv, s)
  else ((data.headD 0).toNat, s)

end Serial
end Print3D
