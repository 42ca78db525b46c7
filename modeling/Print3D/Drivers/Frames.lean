import Print3D.Drivers.MakerbotDriver
import Print3D.Library.Effects

/-! What has to arrive at the port for an attempt of `sendPacket` to read a frame, or to be
followed by another one. -/
namespace Print3D
open Serial Effects

variable {reads reads' : List SerialRead} {s s' : Serial} {n timeout : ℕ} {data : Text} {errno : Errno}

/-! ### Single reads -/

/-- A read of `n` bytes at most gets some of a piece, perhaps after it has waited for it. -/
inductive Gets (n : ℕ) : List SerialRead → Text → List SerialRead → Prop
  | interrupted {reads reads' : List SerialRead} {data : Text} :
      Gets n reads data reads' → Gets n (.interrupted :: reads) data reads'
  | waits {reads reads' : List SerialRead} {data : Text} :
      Gets n reads data reads' → Gets n (.wouldBlock true :: reads) data reads'
  | data (byte : UInt8) (bytes : Text) (reads : List SerialRead) :
      Gets n (.data byte bytes :: reads) ((byte :: bytes).take n) (unread ((byte :: bytes).drop n) reads)

/-- A read fails, but not because the port is gone. -/
inductive Fails : List SerialRead → List SerialRead → Prop
  | interrupted {reads reads' : List SerialRead} : Fails reads reads' → Fails (.interrupted :: reads) reads'
  | waits {reads reads' : List SerialRead} : Fails reads reads' → Fails (.wouldBlock true :: reads) reads'
  | failed (reads : List SerialRead) : Fails (.failed .other :: reads) reads

theorem Gets.length_pos (h : Gets n reads data reads') (hn : 0 < n) : 0 < data.length := by
  induction h with
  | interrupted _ ih => exact ih
  | waits _ ih => exact ih
  | data byte bytes reads =>
    rw [List.length_take, List.length_cons]
    omega

theorem Gets.readLoop (h : Gets n reads data reads') (hn : 0 < n) (ht : 0 < timeout) :
    Serial.readLoop n timeout errno reads = (((data.length : ℤ), data), errno, reads') := by
  induction h with
  | interrupted _ ih =>
    rw [Serial.readLoop]
    exact ih
  | waits _ ih =>
    rw [Serial.readLoop, if_pos ⟨ht, rfl⟩]
    exact ih
  | data byte bytes reads =>
    rw [Serial.readLoop]
    exact if_neg ((Gets.data byte bytes reads).length_pos hn).ne'

theorem Gets.eq_singleton (h : Gets 1 reads data reads') : ∃ byte, data = [byte] := by
  induction h with
  | interrupted _ ih => exact ih
  | waits _ ih => exact ih
  | data byte bytes reads => exact ⟨byte, rfl⟩

theorem Gets.length_le (h : Gets n reads data reads') : data.length ≤ n := by
  induction h with
  | interrupted _ ih => exact ih
  | waits _ ih => exact ih
  | data byte bytes reads => exact (List.length_take_le ..)

theorem Fails.readLoop (h : Fails reads reads') (ht : 0 < timeout) :
    Serial.readLoop n timeout errno reads = ((-1, []), .other, reads') := by
  induction h with
  | interrupted _ ih =>
    rw [Serial.readLoop]
    exact ih
  | waits _ ih =>
    rw [Serial.readLoop, if_pos ⟨ht, rfl⟩]
    exact ih
  | failed reads => rw [Serial.readLoop]

theorem readLoop_cases (hn : 0 < n) (ht : 0 < timeout) (errno : Errno) (reads : List SerialRead) :
    (∃ data reads', Gets n reads data reads' ∧
      Serial.readLoop n timeout errno reads = (((data.length : ℤ), data), errno, reads')) ∨
    (∃ reads', Fails reads reads' ∧ Serial.readLoop n timeout errno reads = ((-1, []), .other, reads')) ∨
    (∃ reads', Serial.readLoop n timeout errno reads = ((0, []), errno, reads')) ∨
    (∃ e reads', (e = .enxio ∨ e = .ebadf) ∧ Serial.readLoop n timeout errno reads = ((-1, []), e, reads')) ∨
    (∃ reads', Serial.readLoop n timeout errno reads = ((-2, []), errno, reads')) := by
  induction reads with
  | nil => exact .inr (.inr (.inl ⟨[], rfl⟩))
  | cons r reads ih =>
    cases r with
    | data byte bytes =>
      have hgets := Gets.data (n := n) byte bytes reads
      exact .inl ⟨_, _, hgets, hgets.readLoop hn ht⟩
    | wouldBlock arrives =>
      cases arrives with
      | true =>
        rw [Serial.readLoop, if_pos ⟨ht, rfl⟩]
        rcases ih with ⟨data, reads', hg, he⟩ | ⟨reads', hf, he⟩ | ih
        · exact .inl ⟨data, reads', .waits hg, he⟩
        · exact .inr (.inl ⟨reads', .waits hf, he⟩)
        · exact .inr (.inr ih)
      | false =>
        rw [Serial.readLoop, if_neg (by simp)]
        exact .inr (.inr (.inl ⟨reads, rfl⟩))
    | interrupted =>
      rw [Serial.readLoop]
      rcases ih with ⟨data, reads', hg, he⟩ | ⟨reads', hf, he⟩ | ih
      · exact .inl ⟨data, reads', .interrupted hg, he⟩
      · exact .inr (.inl ⟨reads', .interrupted hf, he⟩)
      · exact .inr (.inr ih)
    | closed => exact .inr (.inr (.inr (.inr ⟨reads, rfl⟩)))
    | failed e =>
      cases e with
      | enxio => exact .inr (.inr (.inr (.inl ⟨.enxio, reads, .inl rfl, rfl⟩)))
      | ebadf => exact .inr (.inr (.inr (.inl ⟨.ebadf, reads, .inr rfl, rfl⟩)))
      | other => exact .inr (.inl ⟨reads, .failed reads, rfl⟩)

namespace MakerbotDriver

theorem handleReadError_of_nonneg {rv : ℤ} (h : 0 ≤ rv) : handleReadError s rv = .ok () :=
  if_neg (by omega)

theorem handleReadError_ne_ok {rv : ℤ} {u : Unit}
    (h : rv = -2 ∨ rv = -1 ∧ (s.errno = .enxio ∨ s.errno = .ebadf)) : handleReadError s rv ≠ .ok u := by
  rw [handleReadError, if_pos h]
  exact nofun

/-! ### What the reads of the driver return -/

theorem readInto_gets (h : Gets n s.reads data reads') (hn : 0 < n) (ht : 0 < timeout) :
    readAndCheckErrorInto s n timeout = .ok (((data.length : ℤ), data), { s with reads := reads' }) := by
  rw [readAndCheckErrorInto, readBytesDirect, h.readLoop hn ht]
  dsimp only
  rw [handleReadError_of_nonneg (Int.natCast_nonneg _)]
  rfl

theorem readInto_fails (h : Fails s.reads reads') (ht : 0 < timeout) :
    readAndCheckErrorInto s n timeout = .ok ((-1, []), { s with
      reads := reads'
      errno := .other }) := by
  rw [readAndCheckErrorInto, readBytesDirect, h.readLoop ht]
  rfl

theorem readInto_cases {rv : ℤ} (h : readAndCheckErrorInto s n timeout = .ok ((rv, data), s')) (hn : 0 < n)
    (ht : 0 < timeout) : (Gets n s.reads data s'.reads ∧ rv = data.length) ∨
      (Fails s.reads s'.reads ∧ rv = -1) ∨ (rv = 0 ∧ data = []) := by
  unfold readAndCheckErrorInto readBytesDirect at h
  rcases readLoop_cases hn ht s.errno s.reads with ⟨data', reads', hg, he⟩ | ⟨reads', hf, he⟩ | ⟨reads', he⟩ |
    ⟨e, reads', hgone, he⟩ | ⟨reads', he⟩
  all_goals
    rw [he] at h
    obtain ⟨_, hcheck, h⟩ := bind_eq_ok.mp h
  · cases h
    exact .inl ⟨hg, rfl⟩
  · cases h
    exact .inr (.inl ⟨hf, rfl⟩)
  · cases h
    exact .inr (.inr ⟨rfl, rfl⟩)
  · exact absurd hcheck (handleReadError_ne_ok (.inr ⟨rfl, hgone⟩))
  · exact absurd hcheck (handleReadError_ne_ok (.inl rfl))

theorem readByte_gets {byte : UInt8} (h : Gets 1 s.reads [byte] reads') (ht : 0 < timeout) :
    readAndCheckError s timeout = .ok ((byte.toNat : ℤ), { s with reads := reads' }) := by
  rw [readAndCheckError, readByteDirect, readBytesDirect, h.readLoop Nat.one_pos ht]
  dsimp only
  rw [if_neg (by simp), if_neg (by simp)]
  dsimp only
  rw [List.headD_cons, handleReadError_of_nonneg (Int.natCast_nonneg _)]
  rfl

theorem readByte_fails (h : Fails s.reads reads') (ht : 0 < timeout) :
    readAndCheckError s timeout = .ok (-1, { s with
      reads := reads'
      errno := .other }) := by
  rw [readAndCheckError, readByteDirect, readBytesDirect, h.readLoop ht]
  rfl

/-- The driver does not go on after a read of one byte has got nothing. -/
theorem readByte_cases {rv : ℤ} (h : readAndCheckError s timeout = .ok (rv, s')) (ht : 0 < timeout) :
    (∃ byte : UInt8, Gets 1 s.reads [byte] s'.reads ∧ rv = byte.toNat) ∨
    (Fails s.reads s'.reads ∧ rv = -1) := by
  rcases readLoop_cases Nat.one_pos ht s.errno s.reads with ⟨data', reads', hg, -⟩ | ⟨reads', hf, -⟩ |
    ⟨reads', he⟩ | ⟨e, reads', hgone, he⟩ | ⟨reads', he⟩
  · obtain ⟨byte, rfl⟩ := hg.eq_singleton
    rw [readByte_gets hg ht] at h
    cases h
    exact .inl ⟨byte, hg, rfl⟩
  · rw [readByte_fails hf ht] at h
    cases h
    exact .inr ⟨hf, rfl⟩
  all_goals
    rw [readAndCheckError, readByteDirect, readBytesDirect, he] at h
    obtain ⟨_, hcheck, -⟩ := bind_eq_ok.mp h
  · exact absurd hcheck (handleReadError_ne_ok (.inl rfl))
  · exact absurd hcheck (handleReadError_ne_ok (.inr ⟨rfl, hgone⟩))
  · exact absurd hcheck (handleReadError_ne_ok (.inl rfl))

end MakerbotDriver

/-! ### Attempts -/

/-- The bytes of a whole frame arrive, its payload in one piece. -/
inductive Frame (reads : List SerialRead) (payload : Text) (reads' : List SerialRead) : Prop
  | intro {r₁ r₂ r₃ : List SerialRead} {len : UInt8} : Gets 1 reads [0xD5] r₁ → Gets 1 r₁ [len] r₂ →
      payload ≠ [] → len.toNat = payload.length → Gets len.toNat r₂ payload r₃ →
      Gets 1 r₃ [MakerbotDriver.crcOf payload] reads' → Frame reads payload reads'

theorem Gets.piece (hn : 0 < n) (hdata : data.length = n) (rest : Text) (reads : List SerialRead) :
    Gets n (unread (data ++ rest) reads) data (unread rest reads) := by
  cases data with
  | nil =>
    subst hdata
    exact absurd hn (lt_irrefl 0)
  | cons byte bytes =>
    have hgets := Gets.data (n := n) byte (bytes ++ rest) reads
    rwa [← List.cons_append, List.take_left' hdata, List.drop_left' hdata] at hgets

def frameBytes (payload : Text) : Text :=
  0xD5 :: UInt8.ofNat payload.length :: payload ++ [MakerbotDriver.crcOf payload]

theorem Frame.atOnce {payload : Text} (hne : payload ≠ []) (hlen : payload.length < 256)
    (reads : List SerialRead) : Frame (unread (frameBytes payload) reads) payload reads := by
  have hsize : (UInt8.ofNat payload.length).toNat = payload.length := UInt8.toNat_ofNat_of_lt' hlen
  have hpos := List.length_pos_iff.mpr hne
  have hone : ∀ byte : UInt8, [byte].length = 1 := fun _ => rfl
  have hstart := Gets.piece Nat.one_pos (hone 0xD5)
    (UInt8.ofNat payload.length :: payload ++ [MakerbotDriver.crcOf payload]) reads
  have hlength := Gets.piece Nat.one_pos (hone (UInt8.ofNat payload.length))
    (payload ++ [MakerbotDriver.crcOf payload]) reads
  have hpayload := Gets.piece hpos rfl [MakerbotDriver.crcOf payload] reads
  have hcrc := Gets.piece Nat.one_pos (hone (MakerbotDriver.crcOf payload)) [] reads
  exact .intro hstart hlength hne hsize (by rwa [hsize]) hcrc

/-- An attempt after which the packet is written again. -/
inductive Repeats (reads reads' : List SerialRead) : Prop
  | unreadable : Fails reads reads' → Repeats reads reads'
  | stray {byte : UInt8} : Gets 1 reads [byte] reads' → byte ≠ 0xD5 → Repeats reads reads'
  | noLength {r₁ : List SerialRead} : Gets 1 reads [0xD5] r₁ → Fails r₁ reads' → Repeats reads reads'
  | noPayload {r₁ r₂ : List SerialRead} {len : UInt8} : Gets 1 reads [0xD5] r₁ → Gets 1 r₁ [len] r₂ → len ≠ 0 →
      Fails r₂ reads' → Repeats reads reads'
  | noChecksum {r₁ r₂ r₃ : List SerialRead} {len : UInt8} {data : Text} : Gets 1 reads [0xD5] r₁ →
      Gets 1 r₁ [len] r₂ → len ≠ 0 → Gets len.toNat r₂ data r₃ → Fails r₃ reads' → Repeats reads reads'

namespace MakerbotDriver

theorem responseTimeout_pos : 0 < responseTimeout := by decide

theorem toNat_pos {byte : UInt8} (h : byte ≠ 0) : 0 < byte.toNat := by
  refine Nat.pos_of_ne_zero fun h0 => h ?_
  exact UInt8.toNat_inj.mp h0

theorem ne_startByte {start : UInt8} (h : start ≠ 0xD5) : (start.toNat : ℤ) ≠ 0xD5 :=
  fun he => h (UInt8.toNat_inj.mp (by simpa using Int.ofNat.inj he))

theorem readFrame_cases {frame : Except ℤ Text} (h : readFrame s = .ok (frame, s')) :
    (∃ payload, frame = .ok payload ∧ Frame s.reads payload s'.reads) ∨
      (∃ rv, frame = .error rv ∧ rv ≠ 0 ∧ rv ≠ -3 ∧ Repeats s.reads s'.reads) ∨
      frame = .error 0 ∨ frame = .error (-3) := by
  have ht := responseTimeout_pos
  -- each read in turn: first what happens when it fails
  obtain ⟨⟨rv, s₁⟩, h₁, h⟩ := bind_eq_ok.mp h
  obtain ⟨hfail, rfl⟩ | ⟨start, hstart, rfl⟩ := (readByte_cases h₁ ht).symm
  · cases h
    exact .inr (.inl ⟨-1, rfl, by decide, by decide, .unreadable hfail⟩)
  dsimp only at h
  rw [if_neg (by omega)] at h
  by_cases hD5 : start ≠ 0xD5
  · rw [if_pos (ne_startByte hD5)] at h
    cases h
    exact .inr (.inl ⟨-99, rfl, by decide, by decide, .stray hstart hD5⟩)
  obtain rfl := not_not.mp hD5
  rw [if_neg (by simp)] at h
  obtain ⟨⟨len, s₂⟩, h₂, h⟩ := bind_eq_ok.mp h
  obtain ⟨hfail, rfl⟩ | ⟨len, hlen, rfl⟩ := (readByte_cases h₂ ht).symm
  · cases h
    exact .inr (.inl ⟨-1, rfl, by decide, by decide, .noLength hstart hfail⟩)
  dsimp only at h
  by_cases hzero : len = 0
  · subst hzero
    cases h
    exact .inr (.inr (.inl rfl))
  have hpos := toNat_pos hzero
  rw [if_neg (by omega), Int.toNat_natCast] at h
  obtain ⟨⟨⟨rv, buf⟩, s₃⟩, h₃, h⟩ := bind_eq_ok.mp h
  dsimp only at h
  rcases readInto_cases h₃ hpos ht with ⟨hbuf, rfl⟩ | ⟨hfail, rfl⟩ | ⟨rfl, -⟩
  · have hbufpos := hbuf.length_pos hpos
    rw [if_neg (by omega)] at h
    obtain ⟨⟨crc, s₄⟩, h₄, h⟩ := bind_eq_ok.mp h
    obtain ⟨hfail, rfl⟩ | ⟨crc, hcrc, rfl⟩ := (readByte_cases h₄ ht).symm
    · cases h
      exact .inr (.inl ⟨_, rfl, by omega, by omega, .noChecksum hstart hlen hzero hbuf hfail⟩)
    dsimp only at h
    rw [if_neg (by omega)] at h
    split_ifs at h with hshort hmatch
    · cases h
      exact .inr (.inr (.inr rfl))
    · cases h
      have hlength := hbuf.length_le
      have hcrc' : crc = crcOf buf := UInt8.toNat_inj.mp (by omega)
      subst hcrc'
      exact .inl ⟨buf, rfl, .intro hstart hlen (List.ne_nil_of_length_pos hbufpos) (by omega) hbuf hcrc⟩
  · cases h
    exact .inr (.inl ⟨-1, rfl, by decide, by decide, .noPayload hstart hlen hzero hfail⟩)
  · cases h
    exact .inr (.inr (.inl rfl))

theorem readFrame_of_header {r₁ r₂ : List SerialRead} {len : UInt8} (hstart : Gets 1 s.reads [0xD5] r₁)
    (hlen : Gets 1 r₁ [len] r₂) (hpos : 0 < len.toNat) : readFrame s = do
      let ((rv, buf), serial) ← readAndCheckErrorInto { s with reads := r₂ } len.toNat responseTimeout
      if rv ≤ 0 then return (.error rv, serial)
      else do
        let (crc, serial) ← readAndCheckError serial responseTimeout
        if crc < 0 then return (.error len.toNat, serial)
        else if buf.length < len.toNat then .error .undefined
        else if crc ≠ (crcOf buf).toNat then return (.error (-3), serial)
        else return (.ok buf, serial) := by
  have ht := responseTimeout_pos
  rw [readFrame, readByte_gets hstart ht, bind_ok]
  dsimp only
  rw [if_neg (by simp), if_neg (by simp), readByte_gets hlen ht, bind_ok]
  dsimp only
  rw [if_neg (by omega), Int.toNat_natCast]

/-- Every read gets something: whether all of the payload is there, and whether the checksum is its own. -/
theorem readFrame_of_gets {r₁ r₂ r₃ r₄ : List SerialRead} {len crc : UInt8} {data : Text}
    (hstart : Gets 1 s.reads [0xD5] r₁) (hlen : Gets 1 r₁ [len] r₂) (hpos : 0 < len.toNat)
    (hbuf : Gets len.toNat r₂ data r₃) (hcrc : Gets 1 r₃ [crc] r₄) : readFrame s =
      if data.length < len.toNat then .error .undefined
      else if crc ≠ crcOf data then .ok (.error (-3), { s with reads := r₄ })
      else .ok (.ok data, { s with reads := r₄ }) := by
  have ht := responseTimeout_pos
  have hdata := hbuf.length_pos hpos
  have hmatch : (crc.toNat : ℤ) ≠ (crcOf data).toNat ↔ crc ≠ crcOf data := by
    rw [Ne, Int.natCast_inj, UInt8.toNat_inj]
  rw [readFrame_of_header hstart hlen hpos, readInto_gets hbuf hpos ht, bind_ok]
  dsimp only
  rw [if_neg (by omega), readByte_gets hcrc ht, bind_ok]
  dsimp only
  rw [if_neg (by omega), if_congr hmatch rfl rfl]
  rfl

theorem readFrame_of_frame {payload : Text} (h : Frame s.reads payload reads') :
    readFrame s = .ok (.ok payload, { s with reads := reads' }) := by
  obtain @⟨r₁, r₂, r₃, len, hstart, hlen, hne, hlength, hbuf, hcrc⟩ := h
  have hpos : 0 < len.toNat := hlength ▸ List.length_pos_iff.mpr hne
  rw [readFrame_of_gets hstart hlen hpos hbuf hcrc, if_neg (by omega), if_neg (not_not.mpr rfl)]

theorem readFrame_of_repeats (h : Repeats s.reads reads') :
    ∃ rv errno, readFrame s = .ok (.error rv, { s with
      reads := reads'
      errno := errno }) ∧ rv ≠ 0 ∧ rv ≠ -3 := by
  have ht := responseTimeout_pos
  cases h with
  | unreadable hfail =>
    rw [MakerbotDriver.readFrame, readByte_fails hfail ht]
    exact ⟨-1, _, rfl, by decide, by decide⟩
  | @stray start hstart hne =>
    rw [MakerbotDriver.readFrame, readByte_gets hstart ht, bind_ok]
    dsimp only
    rw [if_neg (by omega), if_pos (ne_startByte hne)]
    exact ⟨-99, _, rfl, by decide, by decide⟩
  | noLength hstart hfail =>
    rw [MakerbotDriver.readFrame, readByte_gets hstart ht, bind_ok]
    dsimp only
    rw [if_neg (by simp), if_neg (by simp), readByte_fails hfail ht]
    exact ⟨-1, _, rfl, by decide, by decide⟩
  | noPayload hstart hlen hzero hfail =>
    have hpos := toNat_pos hzero
    rw [readFrame_of_header hstart hlen hpos, readInto_fails hfail ht]
    exact ⟨-1, _, rfl, by decide, by decide⟩
  | noChecksum hstart hlen hzero hbuf hfail =>
    have hpos := toNat_pos hzero
    have hbufpos := hbuf.length_pos hpos
    rw [readFrame_of_header hstart hlen hpos, readInto_gets hbuf hpos ht, bind_ok]
    dsimp only
    rw [if_neg (by omega), readByte_fails hfail ht]
    exact ⟨_, _, rfl, by omega, by omega⟩

end MakerbotDriver
end Print3D
