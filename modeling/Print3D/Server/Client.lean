import Print3D.Ipc.Memory

/-! The receiving side of a connection: `Client` appends what it reads to its buffer and
passes the complete commands at its head on. Each `realloc` can move the buffer: a function `home` says where it
then lies, by its size, until the next read. -/
namespace Print3D
open Framing

/-! ### Reading -/

/-- How a `read` can end. `wouldBlock` tells whether a `poll` for data then succeeds. -/
inductive ReadResult
  | data (bytes : Text)
  | wouldBlock (pollin : Bool)
  | interrupted
  | failed
  | closed
  deriving DecidableEq

/-- The return value, the buffer and the reads that are left; `none` while it goes on. -/
def readAndAppendAvailableData (timeout : ℕ) (onlyOnce : Bool) :
    List ReadResult → Text → ℤ → Option (ℤ × Text × List ReadResult)
  | [], _, _ => none
  | .data bytes :: rs, buf, totalreadlen =>
    if onlyOnce then some (totalreadlen + bytes.length, buf ++ bytes, rs)
    else readAndAppendAvailableData timeout onlyOnce rs (buf ++ bytes) (totalreadlen + bytes.length)
  | .wouldBlock pollin :: rs, buf, totalreadlen =>
    if timeout > 0 ∧ pollin then readAndAppendAvailableData timeout onlyOnce rs buf totalreadlen
    else some (totalreadlen, buf, rs)
  | .interrupted :: rs, buf, totalreadlen => readAndAppendAvailableData timeout onlyOnce rs buf totalreadlen
  | .failed :: rs, buf, _ => some (-1, buf, rs)
  | .closed :: rs, buf, _ => some (-2, buf, rs)

namespace Client

def readData (rs : List ReadResult) (buffer : Text) : Option (ℤ × Text × List ReadResult) :=
  readAndAppendAvailableData 0 true rs buffer 0

variable (mem : Memory) (grants : ℕ → Bool)

/-- The commands passed to the handlers, each with the bytes it has at the head of the
buffer, and the buffer left; `none` if there is no end within `fuel` rounds, or no memory. -/
def runCommandsWithin (home : ℕ → ℕ) : ℕ → Text → Option (List Text × Text)
  | 0, _ => none
  | fuel + 1, buffer => do
    let b ← mem.place (home buffer.length) buffer.length
    let n ← b.ipcCmdIsComplete buffer
    if n = 0 then some ([], buffer)
    else
      let (_, rest) ← b.ipcCmdRemove buffer grants
      let (cmds, rest) ← runCommandsWithin home fuel rest
      some (buffer.take n.toNat :: cmds, rest)

/-- A round that goes on shortens the buffer, so that it has fewer commands than bytes. -/
def runCommands (home : ℕ → ℕ) (buffer : Text) : Option (List Text × Text) :=
  runCommandsWithin mem grants home (buffer.length + 1) buffer

/-- The part of the server loop for one client. -/
def serve (home : ℕ → ℕ) (rs : List ReadResult) (buffer : Text) :
    Option (List Text × Text × List ReadResult) := do
  let (rv, buffer, rs) ← readData rs buffer
  if rv ≥ 0 ∨ (rv = -2 ∧ buffer.length > 0) then
    let (cmds, buffer) ← runCommands mem grants home buffer
    some (cmds, buffer, rs)
  else some ([], buffer, rs)

/-- One round of the server loop for each read, with the data it delivers. -/
def serveReads : List ((ℕ → ℕ) × Text) → Text → Option (List Text × Text)
  | [], buffer => some ([], buffer)
  | (home, d) :: reads, buffer => do
    let (cmds, buffer, _) ← serve mem grants home [.data d] buffer
    let (more, buffer) ← serveReads reads buffer
    some (cmds ++ more, buffer)

/-- One command as it is sent. -/
def WellFormed (cmd : Text) : Prop := ∃ code args, Encodable code args ∧ cmd = encode code args

/-- Whatever pieces a stream of commands arrives in, and wherever the buffers lie that they make, each command
is run once, in order, and the start of the next one is kept; and the loop ends on every buffer, with each round
that goes on at least 4 bytes shorter. -/
structure FramesStream : Prop where
  inOrder : ∀ (cmds : List Text) (next rest : Text) (reads : List ((ℕ → ℕ) × Text)),
    (∀ c ∈ cmds, WellFormed c) → WellFormed next → rest <+: next → rest ≠ next →
      (∀ read ∈ reads, mem.Houses read.1) →
        commandFramer.EachFits (fun buffer => mem.Holds buffer.length) [] (reads.map (·.2)) →
          (reads.map (·.2)).flatten = cmds.flatten ++ rest →
            serveReads mem grants reads [] = some (cmds, rest)
  ends : ∀ home, mem.Houses home → ∀ buffer : Text, mem.Holds buffer.length →
    (runCommands mem grants home buffer).isSome ∧
      ∀ b, mem.place (home buffer.length) buffer.length = some b → b.ipcCmdIsComplete buffer ≠ some 0 →
        ∃ rest, b.ipcCmdRemove buffer grants = some (1, rest) ∧ rest.length + 4 ≤ buffer.length

/-! ### Where no sum of addresses wraps around -/

variable {mem} {grants} {buffer : Text} {home : ℕ → ℕ}

theorem four_le_size (hn : commandFramer.size buffer ≠ 0) : 4 ≤ commandFramer.size buffer := by
  obtain ⟨count, -, h⟩ := completeLength_succ (completeLength_eq buffer) (Nat.pos_of_ne_zero hn)
  exact le_completeLengthFrom h (Nat.pos_of_ne_zero hn)

/-- Each round shortens the buffer by at least 4 bytes. -/
theorem ipcCmdRemove_shrinks (hgrants : ∀ n, 0 < n → grants n = true) (hroomy : mem.Roomy) {base : ℕ}
    {b : Placement} (h : mem.place base buffer.length = some b) (hn : commandFramer.size buffer ≠ 0) :
    ∃ rest, b.ipcCmdRemove buffer grants = some (1, rest) ∧ rest.length + 4 ≤ buffer.length := by
  refine ⟨_, Memory.remove_place hgrants hroomy h hn, ?_⟩
  have h4 := four_le_size hn
  have hle := commandFramer.size_le buffer
  rw [List.length_drop]
  omega

theorem runCommandsWithin_isSome (hgrants : ∀ n, 0 < n → grants n = true) (hroomy : mem.Roomy)
    (hhome : mem.Houses home) (hholds : mem.Holds buffer.length) (fuel : ℕ) (hfuel : buffer.length < fuel) :
    (runCommandsWithin mem grants home fuel buffer).isSome := by
  induction fuel generalizing buffer with
  | zero => omega
  | succ fuel ih =>
    obtain ⟨b, hb⟩ := Memory.place_isSome hhome hholds
    rw [runCommandsWithin, hb, Option.bind_eq_bind, Option.bind_some, Memory.isComplete_place hroomy hb,
      Option.bind_eq_bind, Option.bind_some]
    by_cases hn : commandFramer.size buffer = 0
    · rw [if_pos (by omega)]
      rfl
    · obtain ⟨rest, hrest, hlen⟩ := ipcCmdRemove_shrinks hgrants hroomy hb hn
      have hsome : (runCommandsWithin mem grants home fuel rest).isSome :=
        ih ⟨by have := hholds.1; omega, by have := hholds.2; omega⟩ (by omega)
      obtain ⟨r, hr⟩ := Option.isSome_iff_exists.mp hsome
      rw [if_neg (by omega), hrest]
      simp [hr]

theorem runCommandsWithin_eq (hgrants : ∀ n, 0 < n → grants n = true) (hroomy : mem.Roomy)
    (hhome : mem.Houses home) {fuel : ℕ} {cmds : List Text} {rest : Text} (hholds : mem.Holds buffer.length)
    (h : commandFramer.Cuts buffer cmds rest) (hfuel : buffer.length < fuel) :
    runCommandsWithin mem grants home fuel buffer = some (cmds, rest) := by
  induction cmds generalizing buffer fuel with
  | nil =>
    obtain ⟨fuel, rfl⟩ : ∃ f, fuel = f + 1 := ⟨fuel - 1, by omega⟩
    obtain rfl : buffer = rest := by simpa using h.text
    obtain ⟨b, hb⟩ := Memory.place_isSome hhome hholds
    rw [runCommandsWithin, hb, Option.bind_eq_bind, Option.bind_some, Memory.isComplete_place hroomy hb,
      Option.bind_eq_bind, Option.bind_some, if_pos (Int.natCast_eq_zero.mpr h.incomplete)]
  | cons c cmds ih =>
    obtain ⟨fuel, rfl⟩ : ∃ f, fuel = f + 1 := ⟨fuel - 1, by omega⟩
    obtain ⟨b, hb⟩ := Memory.place_isSome hhome hholds
    have hc := h.frames c (List.mem_cons_self ..)
    have htext : buffer = c ++ (cmds.flatten ++ rest) := by simpa using h.text
    have hsize : commandFramer.size buffer = c.length := by rw [htext, hc.size_append]
    have hne : commandFramer.size buffer ≠ 0 := by
      rw [hsize, ← hc.2]
      exact hc.1.ne'
    have hpos := four_le_size hne
    have hlen : buffer.length = c.length + (cmds.flatten ++ rest).length := by
      rw [htext, List.length_append]
    have hrec : runCommandsWithin mem grants home fuel (cmds.flatten ++ rest) = some (cmds, rest) :=
      ih ⟨by have := hholds.1; omega, by have := hholds.2; omega⟩
        ⟨fun f hf => h.frames f (List.mem_cons_of_mem _ hf), rfl, h.incomplete⟩ (by omega)
    have htake : buffer.take c.length = c := by rw [htext, List.take_left]
    have hdrop : buffer.drop c.length = cmds.flatten ++ rest := by rw [htext, List.drop_left]
    rw [runCommandsWithin, hb, Option.bind_eq_bind, Option.bind_some, Memory.isComplete_place hroomy hb,
      Option.bind_eq_bind, Option.bind_some, if_neg (by omega), Memory.remove_place hgrants hroomy hb hne,
      hsize, hdrop, Int.toNat_natCast, htake]
    simp [hrec]

theorem serveReads_eq_feed (reads : List ((ℕ → ℕ) × Text)) (buffer : Text) :
    serveReads mem grants reads buffer = feed (runCommands mem grants) reads buffer := by
  induction reads generalizing buffer with
  | nil => rfl
  | cons read reads ih =>
    obtain ⟨home, d⟩ := read
    have hread : readData [.data d] buffer = some ((0 : ℤ) + d.length, buffer ++ d, []) := rfl
    rw [serveReads, serve, hread]
    simp only [Option.bind_eq_bind, Option.bind_some]
    rw [if_pos (.inl (by omega)), feed]
    cases runCommands mem grants home (buffer ++ d) with
    | none => rfl
    | some out => simp [ih]

theorem WellFormed.isFrame {cmd : Text} (h : WellFormed cmd) : commandFramer.IsFrame cmd := by
  obtain ⟨code, args, h, rfl⟩ := h
  have hsize := completeLength_encode h []
  rw [List.append_nil, completeLength_eq, Option.some.injEq] at hsize
  refine ⟨?_, hsize⟩
  rw [hsize, encode_length]
  omega

theorem framesStream_of_roomy (hgrants : ∀ n, 0 < n → grants n = true) (hroomy : mem.Roomy) :
    FramesStream mem grants := by
  constructor
  · intro cmds next rest reads hcmds hnext hpre hne hhomes hfits htext
    have hrest : commandFramer.size rest = 0 := by
      obtain ⟨k, rfl⟩ : ∃ k, rest = next.take k := ⟨rest.length, List.prefix_iff_eq_take.mp hpre⟩
      apply Framer.size_take_of_lt
      rw [hnext.isFrame.2]
      by_contra hk
      exact hne (List.take_of_length_le (by omega))
    have hcuts : commandFramer.Cuts ([] ++ (reads.map (·.2)).flatten) cmds rest :=
      ⟨fun c hc => (hcmds c hc).isFrame, htext, hrest⟩
    rw [serveReads_eq_feed]
    exact feed_eq (fun read hread b fs q hholds h =>
      runCommandsWithin_eq hgrants hroomy (hhomes read hread) hholds h (Nat.lt_succ_self _))
      (by decide) hfits hcuts
  · intro home hhome buffer hholds
    refine ⟨runCommandsWithin_isSome hgrants hroomy hhome hholds _ (Nat.lt_succ_self _), fun b hb hn => ?_⟩
    refine ipcCmdRemove_shrinks hgrants hroomy hb fun h0 => hn ?_
    rw [Memory.isComplete_place hroomy hb, h0]
    rfl

/-! ### Where a sum wraps around -/

/-- A test whose argument says that it is six bytes shorter than 4 GiB. -/
def wrapping : Text := [0, 0x10, 0, 1, 0xFF, 0xFF, 0xFF, 0xFA]

/-- At the end of the memory its two first bytes are a command. -/
theorem isComplete_wrapping {b : Placement} (h : mem.place (mem.top - 8) 8 = some b) (hroomy : ¬ mem.Roomy) :
    b.ipcCmdIsComplete wrapping = some 2 := by
  obtain ⟨-, -, hwidth, hbase, hsize⟩ := Memory.place_eq_some h
  have hpages := mem.pages_pos
  have hlt := mem.pages_lt
  unfold Memory.Roomy at hroomy
  rw [Memory.top] at hroomy hbase
  obtain ⟨k, hk⟩ := Nat.exists_eq_add_of_le mem.width_ge
  have hpow : 2 ^ mem.width = 2 ^ 32 * 2 ^ k := by rw [hk, pow_add]
  have hcount : readNs wrapping 2 = some 1 := by decide
  have hread : readNl wrapping 4 = some (2 ^ 32 - 6) := by decide
  have hfirst : b.add (b.base + 4) 4 = b.base + 8 := by
    rw [Placement.add_eq (by rw [hwidth]; omega)]
  have hsum : b.add (b.base + 8) (2 ^ 32 - 6) ≤ b.base + 8 := by
    have hle := Placement.add_le (b := b) (p := b.base + 8) (n := 2 ^ 32 - 6) (by rw [hwidth, hpow]; omega)
    rw [hwidth] at hle
    omega
  have hnext : b.add (b.base + 4) (2 ^ 32 - 2) = b.base + 2 + 2 ^ 32 - 2 ^ mem.width := by
    rw [Placement.add, hwidth, Nat.mod_eq_sub_mod (by rw [hpow]; omega), Nat.mod_eq_of_lt (by rw [hpow]; omega)]
    omega
  have hback : i32 (((b.base + 2 + 2 ^ 32 - 2 ^ mem.width : ℕ) : ℤ) - b.base) = 2 := by
    have hdiff : ((b.base + 2 + 2 ^ 32 - 2 ^ mem.width : ℕ) : ℤ) - b.base =
        2 + ((2 ^ 32 : ℕ) : ℤ) * (1 - (2 ^ k : ℕ)) := by
      rw [hpow, Nat.cast_sub (by omega)]
      push_cast
      ring
    rw [hdiff, i32, FixedWidth.wrap, Int.add_mul_bmod_self_left]
    rfl
  rw [Placement.ipcCmdIsComplete, if_neg (by decide), hcount, Option.bind_eq_bind, Option.bind_some,
    Placement.isCompleteFrom, hfirst, if_neg (by change ¬ b.base + 8 < _; omega), Placement.readNlAt_eq, hread,
    Option.bind_eq_bind, Option.bind_some, if_neg (by change ¬ b.base + 8 < _; omega), Placement.isCompleteFrom,
    show (4 + (2 ^ 32 - 6)) % 2 ^ 32 = 2 ^ 32 - 2 from rfl, hnext, hback]

theorem roomy_of_framesStream (hgrants : ∀ n, 0 < n → grants n = true) (h : FramesStream mem grants) :
    mem.Roomy := by
  by_contra hroomy
  have hpages := mem.pages_pos
  have hhome : mem.Houses fun size => mem.top - size := fun size hholds => (Nat.sub_add_cancel hholds.2).le
  have hholds : mem.Holds wrapping.length := ⟨by decide, by change 8 ≤ 4096 * mem.pages; omega⟩
  obtain ⟨b, hb⟩ := Memory.place_isSome hhome hholds
  have htwo := isComplete_wrapping hb hroomy
  obtain ⟨rest, hrest, hlen⟩ := (h.ends _ hhome wrapping hholds).2 b hb (by rw [htwo]; decide)
  rw [Placement.ipcCmdRemove, htwo, Option.bind_eq_bind, Option.bind_some, if_neg (by decide),
    if_neg (by decide), if_neg] at hrest
  · obtain ⟨-, rfl⟩ := Prod.mk.inj (Option.some.inj hrest)
    exact absurd hlen (by decide)
  · rintro ⟨hfalse, hpos⟩
    rw [hgrants _ hpos] at hfalse
    cases hfalse

/-- The server frames streams if and only if the addresses go on for 4 GiB behind its memory. -/
theorem commands_run (mem : Memory) {grants : ℕ → Bool} (hgrants : ∀ n, 0 < n → grants n = true) :
    FramesStream mem grants ↔ mem.Roomy :=
  ⟨roomy_of_framesStream hgrants, framesStream_of_roomy hgrants⟩

theorem commands_run_pieces :
    serveReads .desktop (fun n => decide (0 < n))
        [(fun _ => 0x10000, [0, 0x10, 0]), (fun _ => 0x20000, [0, 0, 0x12]), (fun _ => 0x10000, [0])] [] =
      some ([encode ipcCmdqTest []], [0, 0x12, 0]) := by
  have hstream : FramesStream .desktop fun n => decide (0 < n) :=
    (commands_run .desktop fun _ hn => decide_eq_true hn).mpr Memory.roomy_desktop
  refine hstream.inOrder [encode ipcCmdqTest []] (encode ipcCmdqGcodeClear []) [0, 0x12, 0] _
    (fun _ hc => ⟨ipcCmdqTest, [], ⟨by decide, by decide, by decide⟩, List.mem_singleton.mp hc⟩)
    ⟨ipcCmdqGcodeClear, [], ⟨by decide, by decide, by decide⟩, rfl⟩ (by decide) (by decide) ?_ ?_ (by decide)
  · intro read hread
    simp only [List.mem_cons, List.not_mem_nil, or_false] at hread
    rcases hread with rfl | rfl | rfl
    · exact Memory.houses_desktop (by decide)
    · exact Memory.houses_desktop (by decide)
    · exact Memory.houses_desktop (by decide)
  · refine Framer.eachFits_of_length fun buffer hlen => ?_
    change buffer.length ≤ 7 at hlen
    exact ⟨by omega, by change _ ≤ 4096 * 2 ^ 35; omega⟩

/-- On a router a test with eight bytes is removed by two of them. -/
theorem not_framesStream_router : ¬ ∀ mem : Memory, FramesStream mem fun _ => true :=
  fun h => Memory.not_roomy_router (roomy_of_framesStream (fun _ _ => rfl) (h .router))

end Client
end Print3D
