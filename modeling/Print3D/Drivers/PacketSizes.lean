import Print3D.Drivers.Frames
import Print3D.Drivers.S3GCommands

/-! The commands of the queue and the packets they are sent in: a packet has one byte for the length of
its command, and the bytes that are unexpected in front of it go to a scratch buffer of fixed size. -/
namespace Print3D

theorem Serial.readLoop_length_le (n timeout : ℕ) (errno : Errno) (reads : List SerialRead) :
    (Serial.readLoop n timeout errno reads).1.2.length ≤ n := by
  induction reads with
  | nil => exact Nat.zero_le n
  | cons r reads ih =>
    cases r with
    | wouldBlock arrives =>
      rw [Serial.readLoop]
      split_ifs
      · exact ih
      · exact Nat.zero_le n
    | interrupted => exact ih
    | failed e => exact Nat.zero_le n
    | closed => exact Nat.zero_le n
    | data byte bytes =>
      rw [Serial.readLoop]
      split_ifs
      · exact Nat.zero_le n
      · exact List.length_take_le ..

namespace MakerbotDriver
open Effects

/-- What a receiver takes from the bytes at its port: behind the start byte and a length, as many bytes,
and their checksum. -/
def unpack : Text → Option (Text × Text)
  | start :: len :: bytes =>
    match bytes.drop len.toNat with
    | crc :: rest =>
      if start = 0xD5 ∧ crc = crcOf (bytes.take len.toNat) then some (bytes.take len.toNat, rest) else none
    | [] => none
  | _ => none

/-- `sendPacket` can send the command: what it reads first stays inside of the 100 bytes of its scratch
buffer, whatever is at the port, and a receiver takes the command from the packet. -/
structure FitsPacket (command : Text) : Prop where
  stray : ∀ serial rv data serial',
    readAndCheckErrorInto serial command.length 0 = .ok ((rv, data), serial') → data.length ≤ 100
  lengthByte : (packet command)[1]?.map UInt8.toNat = some command.length
  unpacked : ∀ rest, unpack (packet command ++ rest) = some (command, rest)

variable {command : Text}

theorem unpack_packet (h : command.length < 256) (rest : Text) :
    unpack (packet command ++ rest) = some (command, rest) := by
  have hlen : (UInt8.ofNat command.length).toNat = command.length := UInt8.toNat_ofNat_of_lt' h
  have hbytes : packet command ++ rest =
      0xD5 :: UInt8.ofNat command.length :: (command ++ crcOf command :: rest) := by simp [packet]
  rw [hbytes, unpack, hlen, List.drop_left, List.take_left]
  exact if_pos ⟨rfl, rfl⟩

theorem stray_length_le {serial serial' : Serial} {n timeout : ℕ} {rv : ℤ} {data : Text}
    (h : readAndCheckErrorInto serial n timeout = .ok ((rv, data), serial')) : data.length ≤ n := by
  have hle := Serial.readLoop_length_le n timeout serial.errno serial.reads
  unfold readAndCheckErrorInto Serial.readBytesDirect at h
  obtain ⟨_, -, h⟩ := bind_eq_ok.mp h
  cases h
  exact hle

theorem exists_stray (n timeout : ℕ) : ∃ serial rv data serial',
    readAndCheckErrorInto serial (n + 1) timeout = .ok ((rv, data), serial') ∧ data.length = n + 1 := by
  have hbytes : ((0 : UInt8) :: List.replicate n 0).length = n + 1 := by simp
  refine ⟨{ reads := [.data 0 (List.replicate n 0)] }, n + 1, 0 :: List.replicate n 0, {}, ?_, hbytes⟩
  rw [readAndCheckErrorInto, Serial.readBytesDirect, Serial.readLoop, ← hbytes, List.take_length,
    List.drop_length]
  dsimp only
  rw [if_neg (by simp), handleReadError_of_nonneg (Int.natCast_nonneg _), hbytes]
  rfl

/-- It is the scratch buffer that decides; the byte for the length has room for more. -/
theorem fitsPacket_iff : FitsPacket command ↔ command.length ≤ 100 := by
  constructor
  · intro h
    by_contra hlong
    obtain ⟨n, hn⟩ := Nat.exists_eq_add_one.mpr (show 0 < command.length by omega)
    obtain ⟨serial, rv, data, serial', hread, hdata⟩ := exists_stray n 0
    rw [← hn] at hread
    have hle := h.stray serial rv data serial' hread
    omega
  · intro h
    have hlt : command.length < 256 := by omega
    refine ⟨fun _ _ _ _ hread => (stray_length_le hread).trans h, ?_, unpack_packet hlt⟩
    exact congrArg some (UInt8.toNat_ofNat_of_lt' hlt)

end MakerbotDriver

namespace S3GCommand

/-- Not too long for the scratch buffer, with its code, and a tool action with its header. -/
def Short : S3GCommand → Prop
  | plain _ _ _ _ => True
  | toolAction _ _ payload _ => payload.length ≤ 96
  | text _ _ _ _ message _ => message.length ≤ 99

/-- The longest operands of the table take 31 bytes. -/
theorem sum_operandBytes_le (code : UInt8) :
    ((S3GParser.commandTable code).toList.map operandBytes).sum ≤ 31 := by
  unfold S3GParser.commandTable
  split <;> decide

theorem entries_length_iff (c : S3GCommand) : (∀ command ∈ c.entries, command.length ≤ 100) ↔ c.Short := by
  cases c with
  | plain code operands hknown hsize =>
    have hle := sum_operandBytes_le code
    refine iff_of_true ?_ trivial
    intro command hcommand
    rw [List.mem_singleton.mp hcommand, bytes, List.length_cons, hsize]
    omega
  | toolAction tool action payload hsize =>
    have hentries : (toolAction tool action payload hsize).entries =
        [136 :: tool :: action :: payload.length.toUInt8 :: payload] := rfl
    rw [hentries, List.forall_mem_singleton, Short]
    simp only [List.length_cons]
    omega
  | text code hcode fixed hfixed message hmessage =>
    rw [entries, List.forall_mem_cons, List.forall_mem_singleton, Short]
    simp only [List.length_cons, List.length_nil]
    omega

end S3GCommand

namespace S3GParser
open MakerbotDriver

/-- The parser returns, and all that it adds to its commands can be sent. -/
def QueueFits (p : S3GParser) (cs : List S3GCommand) : Prop :=
  ∃ added,
    ((p.setBuffer (cs.flatMap S3GCommand.bytes)).parseAll ((cs.flatMap S3GCommand.bytes).length + 1)).map
      (·.commands) = .ok (p.commands ++ added) ∧ ∀ command ∈ added, FitsPacket command

theorem queueFits_iff_entries (p : S3GParser) (cs : List S3GCommand) :
    p.QueueFits cs ↔ ∀ command ∈ cs.flatMap S3GCommand.entries, FitsPacket command := by
  constructor
  · rintro ⟨added, hparse, hfits⟩
    rw [parseAll_commands] at hparse
    rwa [List.append_cancel_left (Except.ok.inj hparse)]
  · intro h
    exact ⟨_, parseAll_commands p cs, h⟩

/-- The commands of a stream can all be sent if and only if its tool actions and texts are short. -/
theorem queueFits_iff (p : S3GParser) (cs : List S3GCommand) : p.QueueFits cs ↔ ∀ c ∈ cs, c.Short := by
  rw [queueFits_iff_entries]
  constructor
  · intro h c hc
    apply c.entries_length_iff.mp
    intro command hcommand
    exact fitsPacket_iff.mp (h command (List.mem_flatMap.mpr ⟨c, hc, hcommand⟩))
  · intro h command hcommand
    obtain ⟨c, hc, hcommand⟩ := List.mem_flatMap.mp hcommand
    exact fitsPacket_iff.mpr (c.entries_length_iff.mpr (h c hc) command hcommand)

/-- A message of a hundred letters. -/
theorem not_queueFits_message : ¬ ∀ (p : S3GParser) (cs : List S3GCommand), p.QueueFits cs := by
  intro h
  have hletters : (0 : UInt8) ∉ List.replicate 100 65 := by simp
  have hfits := (queueFits_iff_entries _ _).mp
    (h {} [.text 149 (.inl rfl) [0, 0, 0, 0] rfl (List.replicate 100 65) hletters])
  have hle := fitsPacket_iff.mp (hfits (149 :: List.replicate 100 65) (by simp [S3GCommand.entries]))
  simp at hle

end S3GParser
end Print3D
