import Print3D.Drivers.Serial
import Print3D.Library.Effects
import Print3D.Server.Client

/-! Lines from the serial port: `Serial` appends what it reads to a buffer, and hands the lines at
the head of this buffer out. -/
namespace Print3D
open Lines Effects

/-- `mem[i]`; `none` outside of `mem`. -/
def loadByte (mem : Text) (i : ℤ) : Option UInt8 := if 0 ≤ i then mem[i.toNat]? else none

def storeByte (mem : Text) (i : ℤ) (byte : UInt8) : Option Text :=
  if 0 ≤ i ∧ i < mem.length then some (mem.set i.toNat byte) else none

/-- `memmove` of the `n` bytes from `p` on to the start of the buffer. -/
def moveToFront (buffer : Text) (p n : ℤ) : Option Text :=
  if 0 ≤ p ∧ 0 ≤ n ∧ p + n ≤ buffer.length then
    some ((buffer.drop p.toNat).take n.toNat ++ buffer.drop n.toNat)
  else none

namespace Serial

def readData (timeout : ℕ) (onlyOnce : Bool) (rs : List ReadResult) (buffer : Text) :
    Option (ℤ × Text × List ReadResult) :=
  readAndAppendAvailableData timeout onlyOnce rs buffer 0

/-- The string made of `lineCopy`. -/
def copyLine (buffer : Text) (lineLen : ℕ) : Option Text := do
  let lineCopy := buffer.take lineLen ++ [0]
  let last ← loadByte lineCopy (lineLen - 1)
  let lineCopy ← if last = carriageReturn then storeByte lineCopy (lineLen - 1) 0 else some lineCopy
  some (cString lineCopy)

def shrinkBuffer (buffer : Text) (n : ℤ) : Option Text := do
  let bufferSize := buffer.length - n
  let buffer ← moveToFront buffer n bufferSize
  some (buffer.take bufferSize.toNat)

/-- A line, or none where the buffer has no newline, and the buffer left. -/
def extractLine (buffer : Text) : Option (Option Text × Text) :=
  match find newline 0 buffer with
  | none => some (none, buffer)
  | some lineLen => do
    let line ← copyLine buffer lineLen
    let buffer ← shrinkBuffer buffer (lineLen + 1)
    some (some line, buffer)

/-- The loop that takes lines until there is none. -/
def extractLines : ℕ → Text → Except Halt (List Text × Text)
  | 0, _ => .error .unfinished
  | fuel + 1, buffer => do
    let (line, buffer) ← defined (extractLine buffer)
    match line with
    | none => return ([], buffer)
    | some line => do
      let (lines, buffer) ← extractLines fuel buffer
      return (line :: lines, buffer)

/-- A call of `readData`, with what it is about to find. -/
structure Reading where
  timeout : ℕ := 0
  onlyOnce : Bool := false
  found : List ReadResult

/-- Each reading is followed by the loop; a buffer has no more lines than bytes. -/
def receive : List Reading → Text → Except Halt (List Text × Text)
  | [], buffer => .ok ([], buffer)
  | r :: readings, buffer => do
    let (_, buffer, _) ← defined (readData r.timeout r.onlyOnce r.found buffer)
    let (lines, buffer) ← extractLines (buffer.length + 1) buffer
    let (more, buffer) ← receive readings buffer
    return (lines ++ more, buffer)

/-! ### One reading -/

/-- The reading returns, and appends these bytes to an empty buffer. -/
def Reading.Brings (r : Reading) (bytes : Text) : Prop :=
  ∃ rv rs, readData r.timeout r.onlyOnce r.found [] = some (rv, bytes, rs)

/-- What is in the buffer stays, and does not matter. -/
theorem readAndAppend_append (timeout : ℕ) (onlyOnce : Bool) (rs : List ReadResult) (buffer bytes : Text)
    (n : ℤ) : readAndAppendAvailableData timeout onlyOnce rs (buffer ++ bytes) n =
      (readAndAppendAvailableData timeout onlyOnce rs bytes n).map fun (rv, bytes, rs) =>
        (rv, buffer ++ bytes, rs) := by
  induction rs generalizing bytes n with
  | nil => rfl
  | cons r rs ih =>
    cases r with
    | data more =>
      rw [readAndAppendAvailableData, readAndAppendAvailableData, List.append_assoc]
      split_ifs
      · rfl
      · exact ih ..
    | wouldBlock pollin =>
      rw [readAndAppendAvailableData, readAndAppendAvailableData]
      split_ifs
      · exact ih ..
      · rfl
    | interrupted => exact ih ..
    | failed => rfl
    | closed => rfl

theorem Reading.Brings.readData {r : Reading} {bytes : Text} (h : r.Brings bytes) (buffer : Text) :
    ∃ rv rs, Serial.readData r.timeout r.onlyOnce r.found buffer = some (rv, buffer ++ bytes, rs) := by
  obtain ⟨rv, rs, h⟩ := h
  refine ⟨rv, rs, ?_⟩
  have happ := readAndAppend_append r.timeout r.onlyOnce r.found buffer [] 0
  rw [List.append_nil] at happ
  rw [Serial.readData, happ, ← Serial.readData, h]
  rfl

/-! ### One line -/

def stripReturn (line : Text) : Text := if line.getLast? = some carriageReturn then line.dropLast else line

variable {line rest buffer stream : Text}

theorem zero_notMem_stripReturn (h : 0 ∉ line) : 0 ∉ stripReturn line := by
  rw [stripReturn]
  split_ifs
  · exact fun hm => h (List.dropLast_subset _ hm)
  · exact h

/-- The byte that is read in front of the copy of an empty line is not there. -/
theorem copyLine_eq (line rest : Text) : copyLine (line ++ rest) line.length =
    if line = [] then none else some (cString (stripReturn line)) := by
  rcases List.eq_nil_or_concat' line with rfl | ⟨init, c, rfl⟩
  · rfl
  have hne : init ++ [c] ≠ [] := List.append_ne_nil_of_right_ne_nil init (List.cons_ne_nil c [])
  have hindex : ((init ++ [c]).length : ℤ) - 1 = init.length := by simp
  have hload : loadByte (init ++ [c] ++ [0]) init.length = some c := by
    rw [loadByte, if_pos (Int.natCast_nonneg _), Int.toNat_natCast, List.append_assoc,
      List.getElem?_append_right le_rfl, Nat.sub_self]
    rfl
  have hstore : storeByte (init ++ [c] ++ [0]) init.length 0 = some (init ++ 0 :: [0]) := by
    rw [storeByte, if_pos ⟨Int.natCast_nonneg _, by simp⟩, Int.toNat_natCast, List.append_assoc,
      List.set_append_right _ _ le_rfl, Nat.sub_self]
    rfl
  have hlast : (init ++ [c]).getLast? = some c := List.getLast?_concat
  rw [copyLine, List.take_left, hindex, hload, Option.bind_eq_bind, Option.bind_some, if_neg hne, stripReturn,
    hlast]
  by_cases hc : c = carriageReturn
  · rw [if_pos hc, if_pos (congrArg some hc), hstore, List.dropLast_concat, Option.bind_eq_bind,
      Option.bind_some]
    exact congrArg some (cString_append_zero_cons init [0])
  · rw [if_neg hc, if_neg fun h => hc (Option.some.inj h), Option.bind_eq_bind, Option.bind_some]
    exact congrArg some (cString_append_zero (init ++ [c]))

theorem shrinkBuffer_eq (s rest : Text) : shrinkBuffer (s ++ rest) s.length = some rest := by
  have hlen : ((s ++ rest).length : ℤ) - s.length = rest.length := by
    rw [List.length_append]
    omega
  rw [shrinkBuffer, hlen, moveToFront, if_pos ⟨Int.natCast_nonneg _, Int.natCast_nonneg _, by omega⟩]
  rw [Int.toNat_natCast, Int.toNat_natCast, List.drop_left, List.take_length]
  exact congrArg some (List.take_left ..)

/-- What is behind a line and its newline moves to the front, also where the line is empty. -/
theorem shrinkBuffer_line (line rest : Text) :
    shrinkBuffer (line ++ newline :: rest) (line.length + 1) = some rest := by
  have hshrink := shrinkBuffer_eq (line ++ [newline]) rest
  rwa [List.append_assoc, List.length_append, Nat.cast_add] at hshrink

/-- A line at the head of the buffer is taken, unless it is empty. -/
theorem extractLine_eq (hline : newline ∉ line) (rest : Text) : extractLine (line ++ newline :: rest) =
    if line = [] then none else some (some (cString (stripReturn line)), rest) := by
  rw [extractLine, find_append_cons hline]
  dsimp only
  rw [copyLine_eq]
  split_ifs
  · rfl
  · rw [Option.bind_eq_bind, Option.bind_some]
    exact Option.bind_eq_some_iff.mpr ⟨rest, shrinkBuffer_line line rest, rfl⟩

theorem extractLine_of_notMem (h : newline ∉ buffer) : extractLine buffer = some (none, buffer) := by
  rw [extractLine, find_eq_none.mpr h]

/-! ### Lines -/

/-- The lines of a buffer are taken one after the other, up to one that is empty. -/
theorem extractLines_unlines {lines : List Text} {fuel : ℕ} (hlines : ∀ l ∈ lines, newline ∉ l)
    (hrest : newline ∉ rest) (hfuel : lines.length < fuel) :
    extractLines fuel (unlines newline lines ++ rest) =
      if [] ∈ lines then .error .undefined
      else .ok (lines.map fun l => cString (stripReturn l), rest) := by
  induction lines generalizing fuel with
  | nil =>
    obtain ⟨fuel, rfl⟩ := Nat.exists_eq_succ_of_ne_zero hfuel.ne'
    rw [extractLines, unlines_nil, List.nil_append, extractLine_of_notMem hrest]
    rfl
  | cons l ls ih =>
    obtain ⟨fuel, rfl⟩ := Nat.exists_eq_succ_of_ne_zero (Nat.ne_zero_of_lt hfuel)
    have hline := hlines l (List.mem_cons_self ..)
    have hrec := ih (fun m hm => hlines m (List.mem_cons_of_mem _ hm)) (Nat.lt_of_succ_lt_succ hfuel)
    rw [extractLines, unlines_cons, List.append_assoc, List.cons_append, extractLine_eq hline]
    by_cases hl : l = []
    · subst hl
      rw [if_pos rfl, if_pos (List.mem_cons_self ..)]
      rfl
    · have hmem : [] ∈ l :: ls ↔ [] ∈ ls := by
        rw [List.mem_cons, or_iff_right (Ne.symm hl)]
      rw [if_neg hl, defined, bind_ok]
      dsimp only
      rw [hrec, if_congr hmem rfl rfl]
      split_ifs <;> rfl

theorem extractLines_eq (buffer : Text) : extractLines (buffer.length + 1) buffer =
    if [] ∈ complete newline buffer then .error .undefined
    else .ok ((complete newline buffer).map fun l => cString (stripReturn l),
      unfinished newline buffer) := by
  have hlines : ∀ l ∈ complete newline buffer, newline ∉ l := fun l hl => notMem_of_mem_complete hl
  have htext : unlines newline (complete newline buffer) ++ unfinished newline buffer = buffer :=
    unlines_complete_append buffer
  have hcount : (complete newline buffer).length ≤ buffer.length := by
    rw [← count_unlines hlines]
    calc (unlines newline (complete newline buffer)).count newline
      _ ≤ (unlines newline (complete newline buffer)).length := List.count_le_length
      _ ≤ buffer.length := by
        conv_rhs => rw [← htext]
        exact List.length_append ▸ Nat.le_add_right ..
  have hall := extractLines_unlines hlines (notMem_unfinished buffer) (Nat.lt_succ_of_le hcount)
  rwa [htext] at hall

/-- What is unfinished after a reading is continued by the next one. -/
theorem receive_eq {readings : List Reading} {pieces : List Text}
    (h : List.Forall₂ Reading.Brings readings pieces) (hbuffer : newline ∉ buffer) :
    receive readings buffer =
      if [] ∈ complete newline (buffer ++ pieces.flatten) then .error .undefined
      else .ok ((complete newline (buffer ++ pieces.flatten)).map fun l => cString (stripReturn l),
        unfinished newline (buffer ++ pieces.flatten)) := by
  induction h generalizing buffer with
  | nil =>
    obtain ⟨hcomplete, hunfinished⟩ := complete_of_notMem hbuffer
    rw [List.flatten_nil, List.append_nil, hcomplete, hunfinished]
    rfl
  | @cons r bytes readings pieces hbrings _ ih =>
    rw [List.flatten_cons, ← List.append_assoc]
    obtain ⟨rv, rs, hread⟩ := hbrings.readData buffer
    obtain ⟨hcomplete, hunfinished⟩ := @complete_append _ _ newline (buffer ++ bytes) pieces.flatten
    have hrest := ih (notMem_unfinished (buffer ++ bytes))
    rw [receive, hread, defined, bind_ok]
    dsimp only
    rw [extractLines_eq, hcomplete, hunfinished]
    by_cases hempty : [] ∈ complete newline (buffer ++ bytes)
    · rw [if_pos hempty, if_pos (List.mem_append_left _ hempty)]
      rfl
    · have hmem : [] ∈ complete newline (buffer ++ bytes) ++
          complete newline (unfinished newline (buffer ++ bytes) ++ pieces.flatten) ↔
            [] ∈ complete newline (unfinished newline (buffer ++ bytes) ++ pieces.flatten) := by
        rw [List.mem_append, or_iff_right hempty]
      rw [if_neg hempty, bind_ok]
      dsimp only
      rw [hrest, if_congr hmem rfl rfl, List.map_append]
      split_ifs <;> rfl

/-- The lines of what the printer sends are all taken, in order and once, and the rest stays. -/
def Delivers (readings : List Reading) (stream : Text) : Prop :=
  receive readings [] = .ok ((complete newline stream).map stripReturn, unfinished newline stream)

/-- Whatever pieces a stream arrives in, it is delivered if and only if none of its lines is empty. -/
theorem deliversLines_iff {readings : List Reading} {pieces : List Text}
    (h : List.Forall₂ Reading.Brings readings pieces) (hzero : 0 ∉ pieces.flatten) :
    Delivers readings pieces.flatten ↔ [] ∉ complete newline pieces.flatten := by
  have hstrings : ∀ l ∈ complete newline pieces.flatten, cString (stripReturn l) = stripReturn l := by
    intro l hl
    have hl' : 0 ∉ l := fun hm => hzero ((isInfix_of_mem_splitOn (List.dropLast_subset _ hl)).subset hm)
    exact cString_of_notMem (zero_notMem_stripReturn hl')
  rw [Delivers, receive_eq h List.not_mem_nil, List.nil_append, List.map_congr_left hstrings]
  split_ifs with hempty
  · refine iff_of_false ?_ (not_not.mpr hempty)
    intro heq
    cases heq
  · exact iff_of_true rfl hempty

/-- A piece ends between a carriage return and its newline. -/
theorem delivers_cut : Delivers
    [{ found := [.data (ascii "ok\r"), .wouldBlock false] },
      { onlyOnce := true, found := [.data (ascii "\nT:")] }] (ascii "ok\r\nT:") := by
  have hbrings : List.Forall₂ Reading.Brings
      [{ found := [.data (ascii "ok\r"), .wouldBlock false] },
        { onlyOnce := true, found := [.data (ascii "\nT:")] }] [ascii "ok\r", ascii "\nT:"] :=
    .cons ⟨3, [], rfl⟩ (.cons ⟨3, [], rfl⟩ .nil)
  exact (deliversLines_iff hbrings (by decide)).mpr (by decide)

/-- The printer sends an empty line. -/
theorem not_delivers_empty : ¬ ∀ readings pieces, List.Forall₂ Reading.Brings readings pieces →
    0 ∉ pieces.flatten → Delivers readings pieces.flatten := by
  intro h
  have hbrings : List.Forall₂ Reading.Brings [{ found := [.data [newline], .wouldBlock false] }] [[newline]] :=
    .cons ⟨1, [], rfl⟩ .nil
  have hempty := (deliversLines_iff hbrings (by decide)).mp (h _ _ hbrings (by decide))
  exact hempty (by decide)

/-! ### Inside of the copy and of the buffer -/

/-- No call of a drain uses an index outside of its copy, or moves bytes from outside of the buffer. -/
def DrainsInside (buffer : Text) : Prop :=
  ∃ lines rest, extractLines (buffer.length + 1) buffer = .ok (lines, rest)

theorem shrinkBuffer_isSome {lineLen : ℕ} (h : find newline 0 buffer = some lineLen) :
    (shrinkBuffer buffer (lineLen + 1)).isSome := by
  obtain ⟨line, rest, rfl, -, rfl⟩ := find_eq_some h
  rw [shrinkBuffer_line]
  rfl

theorem extractLine_isSome : (extractLine buffer).isSome ↔ buffer.head? ≠ some newline := by
  by_cases hbuffer : newline ∈ buffer
  · obtain ⟨line, rest, rfl, hline⟩ := List.eq_append_cons_of_mem hbuffer
    rw [extractLine_eq hline]
    cases line with
    | nil => simp
    | cons c line =>
      have hc : c ≠ newline := fun h => hline (h ▸ List.mem_cons_self ..)
      simp [hc]
  · rw [extractLine_of_notMem hbuffer]
    refine iff_of_true rfl fun hhead => hbuffer ?_
    exact List.mem_of_head? hhead

/-- Whatever the buffer holds, what is moved is inside; a line is copied inside if and only if it is
not empty, and so are all lines of a drain. -/
theorem drainsInside_iff (buffer : Text) :
    (∀ lineLen, find newline 0 buffer = some lineLen → (shrinkBuffer buffer (lineLen + 1)).isSome) ∧
    ((extractLine buffer).isSome ↔ buffer.head? ≠ some newline) ∧
    (DrainsInside buffer ↔ [] ∉ complete newline buffer) := by
  have hdrain : DrainsInside buffer ↔ [] ∉ complete newline buffer := by
    rw [DrainsInside, extractLines_eq]
    split_ifs with hempty
    · refine iff_of_false ?_ (not_not.mpr hempty)
      rintro ⟨lines, rest, heq⟩
      cases heq
    · exact iff_of_true ⟨_, _, rfl⟩ hempty
  exact ⟨fun _ => shrinkBuffer_isSome, extractLine_isSome, hdrain⟩

/-- A bare newline: the byte in front of its copy is read. -/
theorem not_drainsInside_newline : ¬ ∀ buffer, (extractLine buffer).isSome ∧ DrainsInside buffer := by
  intro h
  obtain ⟨hcall, -⟩ := h [newline]
  cases hcall

end Serial
end Print3D
