import Print3D.Drivers.ErrorResponses
import Print3D.Drivers.FlowControl

/-! How the attempts of `sendPacket` end, as a function of what its reads find. -/
namespace Print3D
open Serial Effects

/-! ### Reads -/

/-- What a read of the port finds: bytes, an error of the port that is still there, nothing in time, or
that the port is gone. -/
inductive Outcome
  | got (data : Text)
  | failed
  | nothing
  | gone
  deriving DecidableEq, Repr

def outcome (n timeout : ℕ) : List SerialRead → Outcome × List SerialRead
  | [] => (.nothing, [])
  | .wouldBlock arrives :: reads =>
    if timeout > 0 ∧ arrives then outcome n timeout reads else (.nothing, reads)
  | .interrupted :: reads => outcome n timeout reads
  | .failed e :: reads => (if e = .other then .failed else .gone, reads)
  | .closed :: reads => (.gone, reads)
  | .data byte bytes :: reads => (.got ((byte :: bytes).take n), unread ((byte :: bytes).drop n) reads)

variable {n timeout : ℕ} {reads reads' : List SerialRead} {data : Text} {s : Serial} {errno : Errno}

theorem gets_of_outcome (h : outcome n timeout reads = (.got data, reads')) : Gets n reads data reads' := by
  fun_induction outcome n timeout reads with
  | case1 => cases h
  | case2 arrives reads hready ih =>
    obtain ⟨-, rfl⟩ := hready
    exact .waits (ih h)
  | case3 => cases h
  | case4 reads ih => exact .interrupted (ih h)
  | case5 e reads =>
    split_ifs at h
    · cases h
    · cases h
  | case6 => cases h
  | case7 byte bytes reads =>
    cases h
    exact .data byte bytes reads

theorem fails_of_outcome (h : outcome n timeout reads = (.failed, reads')) : Fails reads reads' := by
  fun_induction outcome n timeout reads with
  | case1 => cases h
  | case2 arrives reads hready ih =>
    obtain ⟨-, rfl⟩ := hready
    exact .waits (ih h)
  | case3 => cases h
  | case4 reads ih => exact .interrupted (ih h)
  | case5 e reads =>
    split_ifs at h with he
    · cases h
      subst he
      exact .failed reads'
    · cases h
  | case6 => cases h
  | case7 => cases h

theorem readLoop_outcome (n timeout : ℕ) (errno : Errno) (reads : List SerialRead) :
    match outcome n timeout reads with
    | (.got data, reads') => readLoop n timeout errno reads =
        if data.length = 0 then ((-2, []), errno, reads') else (((data.length : ℤ), data), errno, reads')
    | (.failed, reads') => readLoop n timeout errno reads = ((-1, []), .other, reads')
    | (.nothing, reads') => readLoop n timeout errno reads = ((0, []), errno, reads')
    | (.gone, reads') => ∃ rv e, readLoop n timeout errno reads = ((rv, []), e, reads') ∧
        (rv = -2 ∨ rv = -1 ∧ (e = .enxio ∨ e = .ebadf)) := by
  induction reads with
  | nil => rfl
  | cons r reads ih =>
    cases r with
    | data byte bytes => rfl
    | wouldBlock arrives =>
      rw [outcome, readLoop]
      split_ifs
      · exact ih
      · rfl
    | interrupted => exact ih
    | closed => exact ⟨-2, errno, rfl, .inl rfl⟩
    | failed e =>
      cases e with
      | enxio => exact ⟨-1, .enxio, rfl, .inr ⟨rfl, .inl rfl⟩⟩
      | ebadf => exact ⟨-1, .ebadf, rfl, .inr ⟨rfl, .inr rfl⟩⟩
      | other => rfl

namespace MakerbotDriver

theorem readByte_exits (h : (outcome 1 timeout s.reads).1 = .nothing ∨ (outcome 1 timeout s.reads).1 = .gone) :
    readAndCheckError s timeout = .error .exited := by
  have hloop := readLoop_outcome 1 timeout s.errno s.reads
  cases ho : outcome 1 timeout s.reads with
  | mk o reads' =>
    rw [ho] at h hloop
    rcases h with h | h
    · cases h
      rw [readAndCheckError, readByteDirect, readBytesDirect, hloop]
      rfl
    · cases h
      obtain ⟨rv, e, hloop, hgone⟩ := hloop
      have hneg : rv < 0 := by omega
      rw [readAndCheckError, readByteDirect, readBytesDirect, hloop]
      dsimp only
      rw [if_neg hneg.ne, if_pos hneg, handleReadError, if_pos hgone]
      rfl

theorem readInto_outcome (n timeout : ℕ) (s : Serial) :
    match outcome n timeout s.reads with
    | (.got data, reads) => readAndCheckErrorInto s n timeout =
        if data.length = 0 then .error .exited else .ok (((data.length : ℤ), data), { s with reads := reads })
    | (.failed, reads) => readAndCheckErrorInto s n timeout = .ok ((-1, []), { s with
        reads := reads
        errno := .other })
    | (.nothing, reads) => readAndCheckErrorInto s n timeout = .ok ((0, []), { s with reads := reads })
    | (.gone, _) => readAndCheckErrorInto s n timeout = .error .exited := by
  have hloop := readLoop_outcome n timeout s.errno s.reads
  unfold readAndCheckErrorInto readBytesDirect
  cases ho : outcome n timeout s.reads with
  | mk o reads' =>
    rw [ho] at hloop
    cases o with
    | got data =>
      dsimp only at hloop ⊢
      rw [hloop]
      split_ifs
      · rfl
      · dsimp only
        rw [handleReadError_of_nonneg (Int.natCast_nonneg _)]
        rfl
    | failed =>
      dsimp only at hloop ⊢
      rw [hloop]
      rfl
    | nothing =>
      dsimp only at hloop ⊢
      rw [hloop]
      rfl
    | gone =>
      obtain ⟨rv, e, hloop, hgone⟩ := hloop
      dsimp only
      rw [hloop]
      dsimp only
      rw [handleReadError, if_pos hgone]
      rfl

/-! ### Attempts -/

/-- How an attempt ends that waits for a response. -/
inductive Ending
  /-- A whole frame with the right checksum. -/
  | frame (payload : Text)
  /-- A whole frame with another checksum. -/
  | badChecksum
  /-- A byte that starts no frame. -/
  | stray
  /-- A read fails with the port still there. -/
  | failed
  /-- A frame of length 0. -/
  | empty
  /-- The payload does not come in time. -/
  | noPayload
  /-- Only some of the payload comes with the first read. -/
  | cut
  /-- A byte of the frame around the payload does not come in time. -/
  | silent
  | gone
  deriving DecidableEq, Repr

/-- A read within an attempt, and what follows if it gets something. -/
def reading (n : ℕ) (late : Ending) (reads : List SerialRead)
    (next : Text → List SerialRead → Ending × List SerialRead) : Ending × List SerialRead :=
  match outcome n responseTimeout reads with
  | (.got data, reads) => next data reads
  | (.failed, reads) => (.failed, reads)
  | (.nothing, reads) => (late, reads)
  | (.gone, reads) => (.gone, reads)

/-- The start byte, the length, the payload and the checksum of a frame. -/
def ending (reads : List SerialRead) : Ending × List SerialRead :=
  reading 1 .silent reads fun start reads =>
    if start ≠ [0xD5] then (.stray, reads)
    else reading 1 .silent reads fun len reads =>
      if len = [0] then (.empty, reads)
      else reading (len.headD 0).toNat .noPayload reads fun payload reads =>
        reading 1 .silent reads fun crc reads =>
          if payload.length < (len.headD 0).toNat then (.cut, reads)
          else if crc ≠ [crcOf payload] then (.badChecksum, reads)
          else (.frame payload, reads)

/-- What `readFrame` returns for the end of an attempt, with what is left to read. -/
inductive Ending.Gives (written : List Text) (reads : List SerialRead) :
    Ending → Except Halt (Except ℤ Text × Serial) → Prop
  | frame {payload : Text} (errno : Errno) : payload ≠ [] →
      Gives written reads (.frame payload) (.ok (.ok payload, ⟨reads, errno, written⟩))
  | badChecksum (errno : Errno) :
      Gives written reads .badChecksum (.ok (.error (-3), ⟨reads, errno, written⟩))
  | again {e : Ending} {rv : ℤ} (errno : Errno) : e = .stray ∨ e = .failed → rv ≠ 0 → rv ≠ -3 →
      Gives written reads e (.ok (.error rv, ⟨reads, errno, written⟩))
  | success {e : Ending} (errno : Errno) : e = .empty ∨ e = .noPayload →
      Gives written reads e (.ok (.error 0, ⟨reads, errno, written⟩))
  | cut : Gives written reads .cut (.error .undefined)
  | exits {e : Ending} : e = .silent ∨ e = .gone → Gives written reads e (.error .exited)

theorem reading_byte {k : ℤ × Serial → Except Halt (Except ℤ Text × Serial)}
    {next : Text → List SerialRead → Ending × List SerialRead}
    (hnext : ∀ byte reads', Gets 1 s.reads [byte] reads' → Ending.Gives s.written (next [byte] reads').2
      (next [byte] reads').1 (k (byte.toNat, ⟨reads', s.errno, s.written⟩)))
    (hfail : ∃ rv, rv ≠ 0 ∧ rv ≠ -3 ∧ ∀ s, k (-1, s) = .ok (.error rv, s)) :
    Ending.Gives s.written (reading 1 .silent s.reads next).2 (reading 1 .silent s.reads next).1
      (readAndCheckError s responseTimeout >>= k) := by
  have ht := responseTimeout_pos
  unfold reading
  cases ho : outcome 1 responseTimeout s.reads with
  | mk o reads' =>
    cases o with
    | got data =>
      have hgets := gets_of_outcome ho
      obtain ⟨byte, rfl⟩ := hgets.eq_singleton
      rw [readByte_gets hgets ht, bind_ok]
      exact hnext byte reads' hgets
    | failed =>
      obtain ⟨rv, h0, h3, hk⟩ := hfail
      rw [readByte_fails (fails_of_outcome ho) ht, bind_ok, hk]
      exact .again .other (.inr rfl) h0 h3
    | nothing =>
      rw [readByte_exits (.inl (by rw [ho]))]
      exact .exits (.inl rfl)
    | gone =>
      rw [readByte_exits (.inr (by rw [ho]))]
      exact .exits (.inr rfl)

theorem reading_checksum {len : UInt8} (hlen : len ≠ 0) {data : Text} (hdata : data ≠ []) (s : Serial) :
    let e := reading 1 .silent s.reads fun crc reads =>
      if data.length < len.toNat then (.cut, reads)
      else if crc ≠ [crcOf data] then (.badChecksum, reads)
      else (.frame data, reads)
    Ending.Gives s.written e.2 e.1 (readAndCheckError s responseTimeout >>= fun (crc, s) =>
      if crc < 0 then .ok (.error (len.toNat : ℤ), s)
      else if data.length < len.toNat then .error .undefined
      else if crc ≠ (crcOf data).toNat then .ok (.error (-3), s)
      else .ok (.ok data, s)) := by
  have hpos := toNat_pos hlen
  apply reading_byte
  · intro crc r₄ _
    have hcrc : ¬ ((crc.toNat : ℤ) < 0) := by omega
    dsimp only
    rw [if_neg hcrc]
    by_cases hcut : data.length < len.toNat
    · rw [if_pos hcut, if_pos hcut]
      exact .cut
    rw [if_neg hcut, if_neg hcut]
    by_cases hmatch : crc = crcOf data
    · subst hmatch
      rw [if_neg (not_not.mpr rfl), if_neg (not_not.mpr rfl)]
      exact .frame s.errno hdata
    · have hne : (crc.toNat : ℤ) ≠ (crcOf data).toNat := fun he => hmatch (UInt8.toNat_inj.mp (by omega))
      rw [if_pos (by simpa using hmatch), if_pos hne]
      exact .badChecksum s.errno
  · exact ⟨len.toNat, by omega, by omega, fun _ => rfl⟩

theorem reading_payload {len : UInt8} (hlen : len ≠ 0) (s : Serial) {k : (ℤ × Text) × Serial → _}
    (hk : ∀ rv buf s, k ((rv, buf), s) =
      if rv ≤ 0 then .ok (.error rv, s)
      else readAndCheckError s responseTimeout >>= fun (crc, s) =>
        if crc < 0 then .ok (.error (len.toNat : ℤ), s)
        else if buf.length < len.toNat then .error .undefined
        else if crc ≠ (crcOf buf).toNat then .ok (.error (-3), s)
        else .ok (.ok buf, s)) :
    let e := reading len.toNat .noPayload s.reads fun payload reads =>
      reading 1 .silent reads fun crc reads =>
        if payload.length < len.toNat then (.cut, reads)
        else if crc ≠ [crcOf payload] then (.badChecksum, reads)
        else (.frame payload, reads)
    Ending.Gives s.written e.2 e.1 (readAndCheckErrorInto s len.toNat responseTimeout >>= k) := by
  have ht := responseTimeout_pos
  have hpos := toNat_pos hlen
  have hread := readInto_outcome len.toNat responseTimeout s
  intro e
  unfold e reading
  cases ho : outcome len.toNat responseTimeout s.reads with
  | mk o reads' =>
    rw [ho] at hread
    cases o with
    | got data =>
      have hgets := gets_of_outcome ho
      have hdatapos := hgets.length_pos hpos
      have hdata : ¬ ((data.length : ℤ) ≤ 0) := by omega
      rw [readInto_gets hgets hpos ht, bind_ok, hk, if_neg hdata]
      exact reading_checksum hlen (List.ne_nil_of_length_pos hdatapos) ⟨reads', s.errno, s.written⟩
    | failed =>
      rw [hread, bind_ok, hk]
      exact .again .other (.inr rfl) (by decide) (by decide)
    | nothing =>
      rw [hread, bind_ok, hk]
      exact .success s.errno (.inr rfl)
    | gone =>
      rw [hread]
      exact .exits (.inr rfl)

theorem readFrame_ending (s : Serial) :
    Ending.Gives s.written (ending s.reads).2 (ending s.reads).1 (readFrame s) := by
  have hminus : ∃ rv : ℤ, rv ≠ 0 ∧ rv ≠ -3 ∧ ∀ s : Serial,
      (Except.ok (.error (-1), s) : Except Halt (Except ℤ Text × Serial)) = .ok (.error rv, s) :=
    ⟨-1, by decide, by decide, fun _ => rfl⟩
  unfold ending readFrame
  apply reading_byte _ hminus
  intro start r₁ _
  have hstart : ¬ ((start.toNat : ℤ) < 0) := by omega
  dsimp only
  rw [if_neg hstart]
  by_cases hD5 : start = 0xD5
  · subst hD5
    rw [if_neg (not_not.mpr rfl), if_neg (by simp)]
    apply reading_byte (s := ⟨r₁, s.errno, s.written⟩) _ hminus
    intro len r₂ _
    dsimp only
    by_cases hzero : len = 0
    · subst hzero
      exact .success s.errno (.inl rfl)
    have hpos := toNat_pos hzero
    have hlen : ¬ ((len.toNat : ℤ) ≤ 0) := by omega
    have hne : ¬ [len] = [0] := by simpa using hzero
    rw [if_neg hlen, if_neg hne]
    exact reading_payload hzero ⟨r₂, s.errno, s.written⟩ fun _ _ _ => rfl
  · have hne : ¬ [start] = [0xD5] := by simpa using hD5
    rw [if_pos (ne_startByte hD5), if_pos hne]
    exact .again s.errno (.inl rfl) (by decide) (by decide)

/-- The ends of the attempts of a packet that is written `n` times at most. -/
def endings : ℕ → List SerialRead → List Ending
  | 0, _ => []
  | n + 1, reads =>
    let (e, reads) := ending reads
    e :: if e = .stray ∨ e = .failed then endings n reads else []

variable {σ : Type} {d d' : MakerbotDriver σ} {payload : Text} {cmd : UInt8} {toolcmd : ℤ}

theorem read16_cases (payload : Text) : (payload.length ≤ 2 ∧ read16 (payload.drop 1) = .error .undefined) ∨
    (2 < payload.length ∧ ∃ v, read16 (payload.drop 1) = .ok v) := by
  match payload with
  | [] | [_] | [_, _] => exact .inl ⟨by simp, rfl⟩
  | _ :: _ :: _ :: _ => exact .inr ⟨by simp, _, rfl⟩

theorem read32_cases (payload : Text) : (payload.length ≤ 4 ∧ read32 (payload.drop 1) = .error .undefined) ∨
    (4 < payload.length ∧ ∃ v, read32 (payload.drop 1) = .ok v) := by
  match payload with
  | [] | [_] | [_, _] | [_, _, _] | [_, _, _, _] => exact .inl ⟨by simp, rfl⟩
  | _ :: _ :: _ :: _ :: _ :: _ => exact .inr ⟨by simp, _, rfl⟩

theorem interpret_cases (d : MakerbotDriver σ) (cmd : UInt8) (toolcmd : ℤ) (hne : payload ≠ []) :
    (payload.length ≤ valueSize cmd ∧ d.interpret cmd toolcmd payload = .error .undefined) ∨
      (valueSize cmd < payload.length ∧ ∃ d', d.interpret cmd toolcmd payload = .ok d') := by
  unfold interpret
  by_cases h0 : cmd = 0
  · subst h0
    rw [if_pos rfl]
    rcases read16_cases payload with ⟨hshort, hread⟩ | ⟨hlong, v, hread⟩
    · rw [hread]
      exact .inl ⟨hshort, rfl⟩
    · rw [hread]
      exact .inr ⟨hlong, _, rfl⟩
  rw [if_neg h0]
  by_cases h2 : cmd = 2
  · subst h2
    rw [if_pos rfl]
    rcases read32_cases payload with ⟨hshort, hread⟩ | ⟨hlong, v, hread⟩
    · rw [hread]
      exact .inl ⟨hshort, rfl⟩
    · rw [hread]
      exact .inr ⟨hlong, _, rfl⟩
  rw [if_neg h2]
  by_cases h10 : cmd = 10
  · subst h10
    rw [if_pos rfl]
    rcases read16_cases payload with ⟨hshort, hread⟩ | ⟨hlong, v, hread⟩
    · rw [hread]
      exact .inl ⟨hshort, rfl⟩
    · rw [hread]
      exact .inr ⟨hlong, _, rfl⟩
  · have hsize : valueSize cmd = 0 := by
      rw [valueSize, if_neg h2, if_neg (not_or.mpr ⟨h0, h10⟩)]
    rw [if_neg h10, hsize]
    exact .inr ⟨List.length_pos_iff.mpr hne, d, rfl⟩

/-- What `parseResponse` returns for the end of an attempt. -/
inductive Ending.Answers (cmd : UInt8) (reads : List SerialRead) (written : List Text) :
    Ending → Except Halt (ℤ × MakerbotDriver σ) → Prop
  | exits {e : Ending} : e = .silent ∨ e = .gone → Answers cmd reads written e (.error .exited)
  | cut : Answers cmd reads written .cut (.error .undefined)
  | short {payload : Text} : payload.length ≤ valueSize cmd →
      Answers cmd reads written (.frame payload) (.error .undefined)
  | frame {payload : Text} {d : MakerbotDriver σ} : valueSize cmd < payload.length → d.serial.reads = reads →
      d.serial.written = written → Answers cmd reads written (.frame payload) (.ok (0, d))
  | success {e : Ending} {d : MakerbotDriver σ} : e = .empty ∨ e = .noPayload → d.serial.reads = reads →
      d.serial.written = written → Answers cmd reads written e (.ok (0, d))
  | badChecksum {d : MakerbotDriver σ} : d.serial.reads = reads → d.serial.written = written →
      Answers cmd reads written .badChecksum (.ok (-3, d))
  | again {e : Ending} {rv : ℤ} {d : MakerbotDriver σ} : e = .stray ∨ e = .failed → rv ≠ 0 → rv ≠ -3 →
      d.serial.reads = reads → d.serial.written = written → Answers cmd reads written e (.ok (rv, d))

theorem parseResponse_ending (d : MakerbotDriver σ) (cmd : UInt8) (toolcmd : ℤ) :
    Ending.Answers cmd (ending d.serial.reads).2 d.serial.written (ending d.serial.reads).1
      (d.parseResponse cmd toolcmd) := by
  have hgives := readFrame_ending d.serial
  rw [parseResponse]
  generalize (ending d.serial.reads).1 = e at hgives ⊢
  generalize (ending d.serial.reads).2 = reads at hgives ⊢
  generalize readFrame d.serial = result at hgives ⊢
  cases hgives with
  | @frame payload errno hne =>
    let d₁ : MakerbotDriver σ := { d with
      serial := ⟨reads, errno, d.serial.written⟩
      received := d.received ++ [(cmd, payload)] }
    rw [bind_ok]
    change Ending.Answers cmd reads d.serial.written _
      (d₁.interpret cmd toolcmd payload >>= fun d => .ok (0, d))
    rcases interpret_cases d₁ cmd toolcmd hne with ⟨hshort, hd'⟩ | ⟨hlong, d', hd'⟩
    · rw [hd']
      exact .short hshort
    · have hserial := (interpret_eq hd').2
      rw [hd']
      exact .frame hlong (by rw [hserial]) (by rw [hserial])
  | badChecksum errno => exact .badChecksum rfl rfl
  | again errno hagain h0 h3 => exact .again hagain h0 h3 rfl rfl
  | success errno hsuccess => exact .success hsuccess rfl rfl
  | cut => exact .cut
  | exits hexits => exact .exits hexits

/-- What the ends of its attempts tell about the writing of a packet. -/
structure Tells (d : MakerbotDriver σ) (pktBuf : Text) (cmd : UInt8) (es : List Ending)
    (result : Except Halt (ℤ × MakerbotDriver σ)) : Prop where
  exits : result = .error .exited ↔ .silent ∈ es ∨ .gone ∈ es
  undefined : result = .error .undefined ↔
    .cut ∈ es ∨ ∃ payload : Text, .frame payload ∈ es ∧ payload.length ≤ valueSize cmd
  finishes : Finishes result
  succeeds : ∀ rv d', result = .ok (rv, d') →
    (rv = 0 ↔ (∃ payload, .frame payload ∈ es) ∨ .empty ∈ es ∨ .noPayload ∈ es)
  writes : ∀ rv d', result = .ok (rv, d') →
    d'.serial.written = d.serial.written ++ List.replicate es.length pktBuf

theorem Tells.halted {pktBuf : Text} {es : List Ending} (halt : Halt) (hfinishes : halt ≠ .unfinished)
    (hexits : halt = .exited ↔ .silent ∈ es ∨ .gone ∈ es)
    (hundefined : halt = .undefined ↔
      .cut ∈ es ∨ ∃ payload : Text, .frame payload ∈ es ∧ payload.length ≤ valueSize cmd) :
    Tells d pktBuf cmd es (.error halt) where
  exits := by rw [Except.error.injEq, hexits]
  undefined := by rw [Except.error.injEq, hundefined]
  finishes := fun h => hfinishes (Except.error.inj h)
  succeeds := fun _ _ h => by cases h
  writes := fun _ _ h => by cases h

theorem Tells.last {pktBuf : Text} {e : Ending} {rv : ℤ} {d₁ : MakerbotDriver σ}
    (hw : d₁.serial.written = d.serial.written ++ [pktBuf]) (hsilent : e ≠ .silent) (hgone : e ≠ .gone)
    (hcut : e ≠ .cut) (hlong : ∀ payload, e = .frame payload → valueSize cmd < payload.length)
    (hrv : rv = 0 ↔ (∃ payload, e = .frame payload) ∨ e = .empty ∨ e = .noPayload) :
    Tells d pktBuf cmd [e] (.ok (rv, d₁.noteResponse rv)) where
  exits := by
    refine iff_of_false nofun ?_
    simp [hsilent.symm, hgone.symm]
  undefined := by
    refine iff_of_false nofun ?_
    simp only [List.mem_singleton, not_or, not_exists, not_and, not_le]
    exact ⟨hcut.symm, fun payload he => hlong payload he.symm⟩
  finishes := nofun
  succeeds := by
    rintro rv' d' h
    cases h
    simpa [eq_comm] using hrv
  writes := by
    rintro rv' d' h
    cases h
    rw [(noteResponse_eq d₁ rv).2, hw]
    rfl

theorem Tells.cons {pktBuf : Text} {e : Ending} {es : List Ending} {d₁ : MakerbotDriver σ}
    {result : Except Halt (ℤ × MakerbotDriver σ)} (h : Tells d₁ pktBuf cmd es result)
    (hagain : e = .stray ∨ e = .failed) (hw : d₁.serial.written = d.serial.written ++ [pktBuf]) :
    Tells d pktBuf cmd (e :: es) result := by
  have hmem : ∀ e' : Ending, e' ≠ .stray → e' ≠ .failed → (e' ∈ e :: es ↔ e' ∈ es) := by
    rintro e' hstray hfailed
    rw [List.mem_cons, or_iff_right]
    rintro rfl
    exact hagain.elim hstray hfailed
  have hframe : ∀ payload, (.frame payload ∈ e :: es ↔ .frame payload ∈ es) :=
    fun payload => hmem (.frame payload) (by simp) (by simp)
  constructor
  · rw [h.exits, hmem .silent (by decide) (by decide), hmem .gone (by decide) (by decide)]
  · rw [h.undefined, hmem .cut (by decide) (by decide)]
    simp only [hframe]
  · exact h.finishes
  · intro rv d' hresult
    rw [h.succeeds rv d' hresult, hmem .empty (by decide) (by decide), hmem .noPayload (by decide) (by decide)]
    simp only [hframe]
  · intro rv d' hresult
    rw [h.writes rv d' hresult, hw, List.length_cons, List.replicate_succ, List.append_assoc]
    rfl

theorem tells_attempt {pktBuf : Text} {n : ℕ} (hrest : ∀ d : MakerbotDriver σ, n ≠ 0 →
      Tells d pktBuf cmd (endings n d.serial.reads) (tryPacket pktBuf cmd toolcmd n d)) (d : MakerbotDriver σ) :
    Tells d pktBuf cmd (endings (n + 1) d.serial.reads) (tryPacket pktBuf cmd toolcmd (n + 1) d) := by
  let d₀ : MakerbotDriver σ := { d with serial := d.serial.write pktBuf }
  have hanswers := parseResponse_ending d₀ cmd toolcmd
  have hreads : d₀.serial.reads = d.serial.reads := rfl
  have hwritten : d₀.serial.written = d.serial.written ++ [pktBuf] := rfl
  rw [hreads, hwritten] at hanswers
  have hendings : endings (n + 1) d.serial.reads = (ending d.serial.reads).1 ::
      if (ending d.serial.reads).1 = .stray ∨ (ending d.serial.reads).1 = .failed
        then endings n (ending d.serial.reads).2 else [] := rfl
  rw [hendings, tryPacket]
  change Tells d pktBuf cmd _ (d₀.parseResponse cmd toolcmd >>= _)
  generalize (ending d.serial.reads).1 = e at hanswers ⊢
  generalize (ending d.serial.reads).2 = reads at hanswers ⊢
  generalize d₀.parseResponse cmd toolcmd = result at hanswers ⊢
  cases hanswers with
  | exits hexits =>
    have hlast : ¬ (e = .stray ∨ e = .failed) := by
      rcases hexits with rfl | rfl <;> decide
    rw [if_neg hlast]
    apply Tells.halted .exited (by decide)
    · refine iff_of_true rfl ?_
      simpa [eq_comm] using hexits
    · refine iff_of_false (by decide) ?_
      rcases hexits with rfl | rfl <;> simp
  | cut =>
    rw [if_neg (by decide)]
    apply Tells.halted .undefined (by decide)
    · exact iff_of_false (by decide) (by simp)
    · exact iff_of_true rfl (.inl (List.mem_singleton_self _))
  | @short payload hshort =>
    rw [if_neg (by simp)]
    apply Tells.halted .undefined (by decide)
    · exact iff_of_false (by decide) (by simp)
    · exact iff_of_true rfl (.inr ⟨payload, List.mem_singleton_self _, hshort⟩)
  | @frame payload d₁ hlong hr hw =>
    refine Tells.last hw nofun nofun nofun ?_ (iff_of_true rfl (.inl ⟨payload, rfl⟩))
    rintro _ h
    cases h
    exact hlong
  | @success e d₁ hsuccess hr hw =>
    rcases hsuccess with rfl | rfl
    · exact Tells.last hw nofun nofun nofun nofun (iff_of_true rfl (.inr (.inl rfl)))
    · exact Tells.last hw nofun nofun nofun nofun (iff_of_true rfl (.inr (.inr rfl)))
  | @badChecksum d₁ hr hw =>
    exact Tells.last hw nofun nofun nofun nofun (iff_of_false (by decide) (by simp))
  | @again e rv d₁ hagain h0 h3 hr hw =>
    rw [if_pos hagain, bind_ok]
    dsimp only
    by_cases hn : n = 0
    · subst hn
      rw [if_pos (.inr (.inr rfl)), endings]
      rcases hagain with rfl | rfl
      · exact Tells.last hw nofun nofun nofun nofun (iff_of_false h0 (by simp))
      · exact Tells.last hw nofun nofun nofun nofun (iff_of_false h0 (by simp))
    · rw [if_neg (by simp [h0, h3, hn])]
      have htells := hrest (d₁.noteResponse rv) hn
      rw [(noteResponse_eq d₁ rv).2, hr] at htells
      have hnoted : (d₁.noteResponse rv).serial.written = d.serial.written ++ [pktBuf] := by
        rw [(noteResponse_eq d₁ rv).2, hw]
      exact htells.cons hagain hnoted

theorem tryPacket_tells (pktBuf : Text) (cmd : UInt8) (toolcmd : ℤ) (n : ℕ) (d : MakerbotDriver σ) :
    Tells d pktBuf cmd (endings (n + 1) d.serial.reads) (tryPacket pktBuf cmd toolcmd (n + 1) d) := by
  induction n generalizing d with
  | zero => exact tells_attempt (fun _ h => absurd rfl h) d
  | succ n ih => exact tells_attempt (fun d _ => ih d) d

theorem endings_unique {e e' : Ending} (he : e ∈ endings n reads) (he' : e' ∈ endings n reads)
    (h : ¬ (e = .stray ∨ e = .failed)) (h' : ¬ (e' = .stray ∨ e' = .failed)) : e = e' := by
  induction n generalizing reads with
  | zero => cases he
  | succ n ih =>
    rw [endings] at he he'
    dsimp only at he he'
    split_ifs at he he' with hagain
    · have hrest := (List.mem_cons.mp he).resolve_left fun heq => h (heq ▸ hagain)
      have hrest' := (List.mem_cons.mp he').resolve_left fun heq => h' (heq ▸ hagain)
      exact ih hrest hrest'
    · rw [List.mem_singleton.mp he, List.mem_singleton.mp he']

theorem length_endings_le (n : ℕ) (reads : List SerialRead) : (endings n reads).length ≤ n := by
  induction n generalizing reads with
  | zero => exact le_rfl
  | succ n ih =>
    rw [endings]
    dsimp only
    split_ifs
    · exact Nat.succ_le_succ (ih _)
    · exact Nat.succ_le_succ (Nat.zero_le _)

/-- There are as many attempts as there can be, unless one of them does not lead to another. -/
theorem length_endings (h : ∀ e ∈ endings n reads, e = .stray ∨ e = .failed) :
    (endings n reads).length = n := by
  induction n generalizing reads with
  | zero => rfl
  | succ n ih =>
    rw [endings] at h ⊢
    dsimp only at h ⊢
    have hagain := h _ (List.mem_cons_self ..)
    rw [if_pos hagain] at h ⊢
    rw [List.length_cons, ih fun e he => h e (List.mem_cons_of_mem _ he)]

/-! ### Packets -/

/-- The first part of `sendPacket`, before the packet is written. -/
def begins (d : MakerbotDriver σ) (payload : Text) : Except Halt Serial := do
  let ((_, stray), serial) ← readAndCheckErrorInto d.serial payload.length 0
  if stray.length > 100 then .error .undefined
  else do
    let _ ← toolCommand payload
    return serial

/-- The ends of the attempts of `sendPacket`, as far as it makes any. -/
def attempts (d : MakerbotDriver σ) (payload : Text) : List Ending :=
  match d.begins payload with
  | .ok serial => endings retries serial.reads
  | .error _ => []

theorem finishes_begins (d : MakerbotDriver σ) (payload : Text) : Finishes (d.begins payload) := by
  refine (finishes_readInto _ _ _).bind fun ⟨⟨rv, stray⟩, serial⟩ _ => ?_
  dsimp only
  split_ifs
  · exact nofun
  · exact (finishes_toolCommand payload).bind fun _ _ => finishes_ok _

theorem sendPacket_begins (d : MakerbotDriver σ) (payload : Text) (updateBufferSpace : Bool) :
    (∃ halt, d.begins payload = .error halt ∧ d.sendPacket payload updateBufferSpace = .error halt) ∨
    ∃ serial toolcmd d₀, d.begins payload = .ok serial ∧ d₀.serial = serial ∧
      serial.written = d.serial.written ∧ d.sendPacket payload updateBufferSpace =
        (tryPacket (packet payload) (payload.headD 0) toolcmd retries d₀).map
          fun (rv, d) => (decide (rv = 0), d) := by
  unfold begins sendPacket
  cases hstray : readAndCheckErrorInto d.serial payload.length 0 with
  | error halt => exact .inl ⟨halt, rfl, rfl⟩
  | ok result =>
    obtain ⟨⟨rv, stray⟩, serial⟩ := result
    have hwritten : serial.written = d.serial.written := by
      obtain ⟨_, -, hstray⟩ := bind_eq_ok.mp hstray
      cases hstray
      rfl
    rw [bind_ok, bind_ok]
    dsimp only
    by_cases hlen : stray.length > 100
    · rw [if_pos hlen, if_pos hlen]
      exact .inl ⟨.undefined, rfl, rfl⟩
    rw [if_neg hlen, if_neg hlen]
    cases toolCommand payload with
    | error halt => exact .inl ⟨halt, rfl, rfl⟩
    | ok toolcmd =>
      have hreserve : ∀ d : MakerbotDriver σ,
          (d.reserve payload.length updateBufferSpace).serial = d.serial := by
        intro d
        unfold reserve
        split_ifs <;> rfl
      refine .inr ⟨serial, toolcmd, ({ d with serial := serial } : MakerbotDriver σ).reserve payload.length
        updateBufferSpace, rfl, hreserve _, hwritten, ?_⟩
      rw [bind_ok]
      cases tryPacket (packet payload) (payload.headD 0) toolcmd retries
        (({ d with serial := serial } : MakerbotDriver σ).reserve payload.length updateBufferSpace) with
      | error halt => rfl
      | ok result => rfl

theorem attempts_eq {serial : Serial} (h : d.begins payload = .ok serial) :
    d.attempts payload = endings retries serial.reads := by
  rw [attempts, h]

theorem attempts_of_error {halt : Halt} (h : d.begins payload = .error halt) : d.attempts payload = [] := by
  rw [attempts, h]

/-- Only the last attempt does not lead to another one. -/
theorem attempts_unique {e e' : Ending} (he : e ∈ d.attempts payload) (he' : e' ∈ d.attempts payload)
    (h : ¬ (e = .stray ∨ e = .failed)) (h' : ¬ (e' = .stray ∨ e' = .failed)) : e = e' := by
  unfold attempts at he he'
  cases hb : d.begins payload with
  | ok serial =>
    rw [hb] at he he'
    exact endings_unique he he' h h'
  | error halt =>
    rw [hb] at he
    cases he

theorem sendPacket_tells (updateBufferSpace : Bool) {serial : Serial} (h : d.begins payload = .ok serial) :
    ∃ d₀ result, d₀.serial.written = d.serial.written ∧
      Tells d₀ (packet payload) (payload.headD 0) (d.attempts payload) result ∧
      d.sendPacket payload updateBufferSpace = result.map fun (rv, d) => (decide (rv = 0), d) := by
  rcases sendPacket_begins d payload updateBufferSpace with ⟨halt, hb, -⟩ | ⟨s₁, toolcmd, d₀, hb, hs, hw, hsend⟩
  · rw [h] at hb
    cases hb
  · rw [h] at hb
    cases hb
    have htells := tryPacket_tells (packet payload) (payload.headD 0) toolcmd 4 d₀
    rw [hs] at htells
    rw [attempts_eq h]
    exact ⟨d₀, _, by rw [hs, hw], htells, hsend⟩

theorem sendPacket_of_error (updateBufferSpace : Bool) {halt : Halt} (h : d.begins payload = .error halt) :
    d.sendPacket payload updateBufferSpace = .error halt := by
  rcases sendPacket_begins d payload updateBufferSpace with ⟨halt', hb, hsend⟩ | ⟨s₁, toolcmd, d₀, hb, -⟩
  · rw [h] at hb
    cases hb
    exact hsend
  · rw [h] at hb
    cases hb

/-! ### Stray bytes -/

def strayOutcome (d : MakerbotDriver σ) (payload : Text) : Outcome :=
  (outcome payload.length 0 d.serial.reads).1

/-- More stray bytes are read than their buffer takes, or a tool query has no command to look at. -/
def Overruns (d : MakerbotDriver σ) (payload : Text) : Prop :=
  (∃ stray, d.strayOutcome payload = .got stray ∧ 100 < stray.length) ∨
    payload = [10] ∧ d.strayOutcome payload ≠ .gone

theorem toolCommand_cases (payload : Text) : (payload = [10] ∧ toolCommand payload = .error .undefined) ∨
    (payload ≠ [10] ∧ ∃ toolcmd, toolCommand payload = .ok toolcmd) := by
  unfold toolCommand
  match payload with
  | [] => exact .inr ⟨nofun, -1, rfl⟩
  | [c] =>
    by_cases hc : c = 10
    · subst hc
      exact .inl ⟨rfl, rfl⟩
    · exact .inr ⟨by simpa using hc, -1, if_neg hc⟩
  | c :: a :: rest =>
    refine .inr ⟨nofun, ?_⟩
    obtain ⟨b, hb⟩ : ∃ b, (c :: a :: rest ++ [0])[2]? = some b := by
      cases rest <;> exact ⟨_, rfl⟩
    rw [hb]
    split_ifs
    · exact ⟨b.toNat, rfl⟩
    · exact ⟨-1, rfl⟩

theorem begins_cases (d : MakerbotDriver σ) (payload : Text) :
    ((d.strayOutcome payload = .gone ∨ d.strayOutcome payload = .got []) ∧ d.begins payload = .error .exited) ∨
    (∃ stray, d.strayOutcome payload = .got stray ∧ 100 < stray.length ∧ d.begins payload = .error .undefined) ∨
    (¬ (d.strayOutcome payload = .gone ∨ d.strayOutcome payload = .got []) ∧
      (∀ stray, d.strayOutcome payload = .got stray → stray.length ≤ 100) ∧
      ∃ serial, d.begins payload = toolCommand payload >>= fun _ => .ok serial) := by
  have hread := readInto_outcome payload.length 0 d.serial
  unfold begins strayOutcome
  cases ho : outcome payload.length 0 d.serial.reads with
  | mk o reads' =>
    rw [ho] at hread
    cases o with
    | got stray =>
      dsimp only at hread ⊢
      rw [hread]
      by_cases hstray : stray = []
      · subst hstray
        exact .inl ⟨.inr rfl, rfl⟩
      rw [if_neg (by simpa using hstray)]
      by_cases hlong : 100 < stray.length
      · exact .inr (.inl ⟨stray, rfl, hlong, if_pos hlong⟩)
      · refine .inr (.inr ⟨by simpa using hstray, fun _ h => ?_, _, if_neg hlong⟩)
        cases h
        exact not_lt.mp hlong
    | failed =>
      dsimp only at hread
      rw [hread]
      exact .inr (.inr ⟨by simp, nofun, _, rfl⟩)
    | nothing =>
      dsimp only at hread
      rw [hread]
      exact .inr (.inr ⟨by simp, nofun, _, rfl⟩)
    | gone =>
      dsimp only at hread
      rw [hread]
      exact .inl ⟨.inl rfl, rfl⟩

theorem begins_exited_iff (d : MakerbotDriver σ) (payload : Text) :
    d.begins payload = .error .exited ↔ d.strayOutcome payload = .gone ∨ d.strayOutcome payload = .got [] := by
  rcases begins_cases d payload with ⟨hgone, hb⟩ | ⟨stray, hstray, hlong, hb⟩ | ⟨hnot, -, serial, hb⟩
  · exact iff_of_true hb hgone
  · rw [hb, hstray]
    refine iff_of_false nofun ?_
    rintro (h | h) <;> cases h
    exact absurd hlong (by decide)
  · rw [hb]
    rcases toolCommand_cases payload with ⟨-, htool⟩ | ⟨-, toolcmd, htool⟩ <;> rw [htool] <;>
      exact iff_of_false nofun hnot

theorem begins_undefined_iff (d : MakerbotDriver σ) (payload : Text) :
    d.begins payload = .error .undefined ↔ d.Overruns payload := by
  rcases begins_cases d payload with ⟨hgone, hb⟩ | ⟨stray, hstray, hlong, hb⟩ | ⟨hnot, hshort, serial, hb⟩
  · rw [hb]
    refine iff_of_false nofun ?_
    rcases hgone with hgone | hgone
    · rintro (⟨stray, h, -⟩ | ⟨-, hne⟩)
      · rw [hgone] at h
        cases h
      · exact hne hgone
    · rintro (⟨stray, h, hlong⟩ | ⟨rfl, -⟩)
      · rw [hgone] at h
        cases h
        exact absurd hlong (by decide)
      · -- a read of one byte gets one
        have hgets := gets_of_outcome (Prod.ext hgone rfl)
        exact absurd (hgets.length_pos (by decide)) (by decide)
  · exact iff_of_true hb (.inl ⟨stray, hstray, hlong⟩)
  · have hlong : ¬ ∃ stray, d.strayOutcome payload = .got stray ∧ 100 < stray.length :=
      fun ⟨stray, hstray, hlong⟩ => absurd (hshort stray hstray) (not_le.mpr hlong)
    rw [hb, Overruns, or_iff_right hlong, and_iff_left (not_or.mp hnot).1]
    rcases toolCommand_cases payload with ⟨hten, htool⟩ | ⟨hten, toolcmd, htool⟩ <;> rw [htool]
    · exact iff_of_true rfl hten
    · exact iff_of_false nofun hten

/-! ### Success -/

/-- `sendPacket` returns true, or its behaviour is undefined, so that it may do so. -/
def MaySucceed (d : MakerbotDriver σ) (payload : Text) (updateBufferSpace : Bool) : Prop :=
  (∃ d', d.sendPacket payload updateBufferSpace = .ok (true, d')) ∨
    d.sendPacket payload updateBufferSpace = .error .undefined

/-- During one of the attempts a whole frame with the right checksum has been read. -/
def Verified (d : MakerbotDriver σ) (payload : Text) : Prop := ∃ response, .frame response ∈ d.attempts payload

/-- An attempt that ends with what is taken for success, or with a checksum of bytes that were not read. -/
theorem maySucceed_of_mem (updateBufferSpace : Bool) (h : .empty ∈ d.attempts payload ∨
    .noPayload ∈ d.attempts payload ∨ .cut ∈ d.attempts payload) : d.MaySucceed payload updateBufferSpace := by
  cases hb : d.begins payload with
  | error halt => simp [attempts_of_error hb] at h
  | ok serial =>
    obtain ⟨d₀, result, -, htells, hsend⟩ := sendPacket_tells updateBufferSpace hb
    rcases or_assoc.mpr h with hsuccess | hcut
    · cases hresult : result with
      | error halt =>
        cases halt with
        | exited =>
          exfalso
          rcases htells.exits.mp hresult with hends | hends
          · rcases hsuccess with he | he <;> cases attempts_unique he hends (by decide) (by decide)
          · rcases hsuccess with he | he <;> cases attempts_unique he hends (by decide) (by decide)
        | undefined => exact .inr (by rw [hsend, hresult]; rfl)
        | unfinished => exact absurd hresult htells.finishes
      | ok r =>
        obtain ⟨rv, d'⟩ := r
        have hrv := (htells.succeeds rv d' hresult).mpr (.inr hsuccess)
        refine .inl ⟨d', ?_⟩
        rw [hsend, hresult, hrv]
        rfl
    · exact .inr (by rw [hsend, htells.undefined.mpr (.inl hcut)]; rfl)

/-- A call reports success for a verified frame only, if and only if the stray bytes fit, a tool query has a
command, and no attempt ends with an empty frame, without its payload or with a part of it. -/
theorem maySucceed_verified_iff (d : MakerbotDriver σ) (payload : Text) (updateBufferSpace : Bool) :
    (d.MaySucceed payload updateBufferSpace → d.Verified payload) ↔
      ¬ d.Overruns payload ∧ .empty ∉ d.attempts payload ∧ .noPayload ∉ d.attempts payload ∧
        .cut ∉ d.attempts payload := by
  rw [← begins_undefined_iff]
  cases hb : d.begins payload with
  | error halt =>
    have hsend := sendPacket_of_error updateBufferSpace hb
    have hnone := attempts_of_error hb
    rw [MaySucceed, Verified, hsend, hnone]
    simp
  | ok serial =>
    obtain ⟨d₀, result, -, htells, hsend⟩ := sendPacket_tells updateBufferSpace hb
    have hmay : _ → d.MaySucceed payload updateBufferSpace := maySucceed_of_mem updateBufferSpace
    constructor
    · intro h
      have hnot : ∀ {e : Ending}, e ∈ d.attempts payload → ¬ (e = .stray ∨ e = .failed) →
          d.MaySucceed payload updateBufferSpace → ∃ response, e = .frame response := by
        intro e he hlast hsays
        obtain ⟨response, hframe⟩ := h hsays
        exact ⟨response, attempts_unique he hframe hlast (by simp)⟩
      refine ⟨nofun, fun he => ?_, fun he => ?_, fun he => ?_⟩
      · obtain ⟨response, heq⟩ := hnot he (by decide) (hmay (.inl he))
        cases heq
      · obtain ⟨response, heq⟩ := hnot he (by decide) (hmay (.inr (.inl he)))
        cases heq
      · obtain ⟨response, heq⟩ := hnot he (by decide) (hmay (.inr (.inr he)))
        cases heq
    · rintro ⟨-, hempty, hpayload, hcut⟩ (⟨d', hd'⟩ | hundefined)
      · rw [hsend] at hd'
        obtain ⟨⟨rv, d₁⟩, hresult, heq⟩ := map_eq_ok.mp hd'
        obtain ⟨hrv, -⟩ := Prod.mk.inj heq
        have hsuccess := (htells.succeeds rv d₁ hresult).mp (of_decide_eq_true hrv)
        exact hsuccess.resolve_right (not_or.mpr ⟨hempty, hpayload⟩)
      · rw [hsend, map_eq_error] at hundefined
        obtain ⟨response, hframe, -⟩ := (htells.undefined.mp hundefined).resolve_left hcut
        exact ⟨response, hframe⟩

/-- Two bytes that are no frame are taken for the answer to a buffer query. -/
theorem not_verified_empty : ¬ ∀ (d : MakerbotDriver Unit) payload updateBufferSpace,
    d.MaySucceed payload updateBufferSpace → d.Verified payload := by
  intro h
  let d : MakerbotDriver Unit := { gpx := (), serial := { reads := [.wouldBlock false, .data 0xD5 [0]] } }
  have hattempts : d.attempts [2] = [.empty] := by decide +kernel
  obtain ⟨-, hempty, -⟩ := (maySucceed_verified_iff d [2] true).mp (h d [2] true)
  exact hempty (by rw [hattempts]; exact List.mem_singleton_self _)

/-! ### Timeouts -/

/-- A read reports that the remote end has closed the connection, or that the port is gone. -/
def PortGone (d : MakerbotDriver σ) (payload : Text) : Prop :=
  d.strayOutcome payload = .gone ∨ .gone ∈ d.attempts payload

/-- A read fails with another error. -/
def ReadFails (d : MakerbotDriver σ) (payload : Text) : Prop :=
  d.strayOutcome payload = .failed ∨ .failed ∈ d.attempts payload

/-- The process exits only with the port gone; and if nothing but timeouts goes wrong, the packet is written
up to five times, fewer only after a whole frame, and the result says whether one was valid. -/
structure TimeoutsRetried (d : MakerbotDriver σ) (payload : Text) (updateBufferSpace : Bool) : Prop where
  exits : d.sendPacket payload updateBufferSpace = .error .exited → d.PortGone payload
  returns : ¬ d.PortGone payload → ¬ d.ReadFails payload → ∃ r d',
    d.sendPacket payload updateBufferSpace = .ok (r, d') ∧ (r = true ↔ d.Verified payload) ∧
    d'.serial.written = d.serial.written ++ List.replicate (d.attempts payload).length (packet payload) ∧
    (d.attempts payload).length ≤ retries ∧
    (¬ d.Verified payload → .badChecksum ∉ d.attempts payload → (d.attempts payload).length = retries)

/-- No byte around a payload is late; and where the port and its reads are in order, the stray bytes fit,
frames have a length, payloads come in time and whole, and have the value that is asked for. -/
structure InTime (d : MakerbotDriver σ) (payload : Text) : Prop where
  stray : d.strayOutcome payload ≠ .got []
  notSilent : .silent ∉ d.attempts payload
  inOrder : ¬ d.PortGone payload → ¬ d.ReadFails payload → ¬ d.Overruns payload ∧
    .empty ∉ d.attempts payload ∧ .noPayload ∉ d.attempts payload ∧ .cut ∉ d.attempts payload ∧
    ∀ response : Text, .frame response ∈ d.attempts payload → valueSize (payload.headD 0) < response.length

theorem InTime.returns (updateBufferSpace : Bool) {serial : Serial} (h : d.InTime payload)
    (hb : d.begins payload = .ok serial) (hgone : ¬ d.PortGone payload) (hfails : ¬ d.ReadFails payload) :
    ∃ r d', d.sendPacket payload updateBufferSpace = .ok (r, d') ∧ (r = true ↔ d.Verified payload) ∧
      d'.serial.written = d.serial.written ++ List.replicate (d.attempts payload).length (packet payload) := by
  obtain ⟨d₀, result, hw, htells, hsend⟩ := sendPacket_tells updateBufferSpace hb
  obtain ⟨-, hempty, hpayload, hcut, hvalue⟩ := h.inOrder hgone hfails
  cases hresult : result with
  | error halt =>
    exfalso
    cases halt with
    | exited => exact (htells.exits.mp hresult).elim h.notSilent fun hg => hgone (.inr hg)
    | undefined =>
      rcases htells.undefined.mp hresult with hc | ⟨response, hframe, hshort⟩
      · exact hcut hc
      · exact absurd (hvalue response hframe) (not_lt.mpr hshort)
    | unfinished => exact htells.finishes hresult
  | ok r =>
    obtain ⟨rv, d'⟩ := r
    refine ⟨decide (rv = 0), d', by rw [hsend, hresult]; rfl, ?_, ?_⟩
    · rw [decide_eq_true_iff, htells.succeeds rv d' hresult, or_iff_left (not_or.mpr ⟨hempty, hpayload⟩)]
      rfl
    · rw [htells.writes rv d' hresult, hw]

/-- Without a whole frame the packet is written as often as it can be. -/
theorem InTime.length_attempts {serial : Serial} (h : d.InTime payload) (hb : d.begins payload = .ok serial)
    (hgone : ¬ d.PortGone payload) (hfails : ¬ d.ReadFails payload) (hverified : ¬ d.Verified payload)
    (hchecksum : .badChecksum ∉ d.attempts payload) : (d.attempts payload).length = retries := by
  obtain ⟨-, hempty, hpayload, hcut, -⟩ := h.inOrder hgone hfails
  have hsilent := h.notSilent
  have hport : .gone ∉ d.attempts payload := fun hg => hgone (.inr hg)
  have hagain : ∀ e ∈ d.attempts payload, e = .stray ∨ e = .failed := by
    intro e he
    cases e with
    | frame response => exact absurd ⟨response, he⟩ hverified
    | stray => exact .inl rfl
    | failed => exact .inr rfl
    | badChecksum => exact absurd he hchecksum
    | empty => exact absurd he hempty
    | noPayload => exact absurd he hpayload
    | cut => exact absurd he hcut
    | silent => exact absurd he hsilent
    | gone => exact absurd he hport
  rw [attempts_eq hb] at hagain ⊢
  exact length_endings hagain

theorem TimeoutsRetried.inTime {updateBufferSpace : Bool} (h : d.TimeoutsRetried payload updateBufferSpace)
    {serial : Serial} (hb : d.begins payload = .ok serial) : d.InTime payload := by
  obtain ⟨d₀, result, -, htells, hsend⟩ := sendPacket_tells updateBufferSpace hb
  have hstray : ¬ (d.strayOutcome payload = .gone ∨ d.strayOutcome payload = .got []) := by
    rw [← begins_exited_iff, hb]
    exact nofun
  constructor
  · exact fun hstray' => hstray (.inr hstray')
  · intro hsilent
    have hexits := htells.exits.mpr (.inl hsilent)
    rcases h.exits (by rw [hsend, hexits]; rfl) with hgone | hgone
    · exact hstray (.inl hgone)
    · cases attempts_unique hsilent hgone (by decide) (by decide)
  · intro hport hfails
    obtain ⟨r, d', hok, hr, -⟩ := h.returns hport hfails
    rw [hsend] at hok
    obtain ⟨⟨rv, d₁⟩, hresult, heq⟩ := map_eq_ok.mp hok
    obtain ⟨rfl, -⟩ := Prod.mk.inj heq
    rw [decide_eq_true_iff, htells.succeeds rv d₁ hresult] at hr
    have hdefined : result ≠ .error .undefined := by
      rw [hresult]
      exact nofun
    have hundefined := not_or.mp (mt htells.undefined.mpr hdefined)
    refine ⟨?_, fun he => ?_, fun he => ?_, hundefined.1, fun response hframe => ?_⟩
    · rw [← begins_undefined_iff, hb]
      exact nofun
    · obtain ⟨response, hframe⟩ := hr.mp (.inr (.inl he))
      cases attempts_unique he hframe (by decide) (by simp)
    · obtain ⟨response, hframe⟩ := hr.mp (.inr (.inr he))
      cases attempts_unique he hframe (by decide) (by simp)
    · exact not_le.mp fun hshort => hundefined.2 ⟨response, hframe, hshort⟩

/-- A response that is late is waited for again, and nothing but a lost port ends the process, if and only if
the outcomes of the reads are in time. -/
theorem timeoutsRetried_iff (d : MakerbotDriver σ) (payload : Text) (updateBufferSpace : Bool) :
    d.TimeoutsRetried payload updateBufferSpace ↔ d.InTime payload := by
  have hexited := begins_exited_iff d payload
  cases hb : d.begins payload with
  | error halt =>
    have hsend := sendPacket_of_error updateBufferSpace hb
    have hnone := attempts_of_error hb
    rw [hb, Except.error.injEq] at hexited
    cases halt with
    | exited =>
      constructor
      · intro h
        have hgone := (h.exits hsend).resolve_right (by simp [hnone])
        exact ⟨by simp [hgone], by simp [hnone], fun hport => absurd (.inl hgone) hport⟩
      · intro h
        have hgone := (hexited.mp rfl).resolve_right h.stray
        exact ⟨fun _ => .inl hgone, fun hport => absurd (.inl hgone) hport⟩
    | undefined =>
      have hstray := not_or.mp (mt hexited.mpr (by decide))
      constructor
      · intro h
        refine ⟨hstray.2, by simp [hnone], fun hport hfails => ?_⟩
        obtain ⟨r, d', hok, -⟩ := h.returns hport hfails
        rw [hsend] at hok
        cases hok
      · intro h
        refine ⟨fun hexits => ?_, fun hport hfails =>
          absurd ((begins_undefined_iff d payload).mp hb) (h.inOrder hport hfails).1⟩
        rw [hsend] at hexits
        cases hexits
    | unfinished => exact absurd hb (finishes_begins d payload)
  | ok serial =>
    constructor
    · exact fun h => h.inTime hb
    · intro h
      obtain ⟨d₀, result, hw, htells, hsend⟩ := sendPacket_tells updateBufferSpace hb
      refine ⟨fun hexits => ?_, fun hport hfails => ?_⟩
      · rw [hsend, map_eq_error] at hexits
        exact .inr ((htells.exits.mp hexits).resolve_left h.notSilent)
      · obtain ⟨r, d', hok, hr, hwritten⟩ := h.returns updateBufferSpace hb hport hfails
        refine ⟨r, d', hok, hr, hwritten, ?_, h.length_attempts hb hport hfails⟩
        rw [attempts_eq hb]
        exact length_endings_le _ _

/-- A printer that does not answer at all ends the process. -/
theorem not_timeoutsRetried_silent : ¬ ∀ (d : MakerbotDriver Unit) payload updateBufferSpace,
    d.TimeoutsRetried payload updateBufferSpace := by
  intro h
  let d : MakerbotDriver Unit := { gpx := () }
  have hattempts : d.attempts [2] = [.silent] := by decide +kernel
  apply ((timeoutsRetried_iff d [2] true).mp (h d [2] true)).notSilent
  rw [hattempts]
  exact List.mem_singleton_self _

end MakerbotDriver
end Print3D
