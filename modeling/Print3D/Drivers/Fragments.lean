import Print3D.Drivers.Attempts

/-! The port hands its bytes out in pieces, and a read gets no more than one of them: in which
pieces a response can arrive. -/
namespace Print3D
open Serial Effects

variable {reads reads' rest : List SerialRead} {p : Text} {ps pieces : List Text} {n c : ℕ}

/-! ### Pieces -/

/-- The pieces arrive one after the other, each perhaps waited for; the last one can go on. -/
inductive Arrives : List SerialRead → List Text → List SerialRead → Prop
  | done (rest : List SerialRead) : Arrives rest [] rest
  | interrupted {reads : List SerialRead} {p : Text} {ps : List Text} {rest : List SerialRead} :
      Arrives reads (p :: ps) rest → Arrives (.interrupted :: reads) (p :: ps) rest
  | waits {reads : List SerialRead} {p : Text} {ps : List Text} {rest : List SerialRead} :
      Arrives reads (p :: ps) rest → Arrives (.wouldBlock true :: reads) (p :: ps) rest
  | piece (byte : UInt8) (bytes : Text) {reads : List SerialRead} {ps : List Text} {rest : List SerialRead} :
      Arrives reads ps rest → Arrives (.data byte bytes :: reads) ((byte :: bytes) :: ps) rest
  | last (byte : UInt8) (bytes extra : Text) (rest : List SerialRead) :
      Arrives (.data byte (bytes ++ extra) :: rest) [byte :: bytes] (unread extra rest)

/-- Where the pieces end in what they make together. -/
def ends : List Text → List ℕ
  | [] => []
  | p :: ps => p.length :: (ends ps).map (p.length + ·)

def afterRead (n : ℕ) (p : Text) (ps : List Text) : List Text := if n < p.length then p.drop n :: ps else ps

theorem Arrives.ne_nil (h : Arrives reads pieces rest) : ∀ p ∈ pieces, p ≠ [] := by
  induction h with
  | done rest => exact nofun
  | interrupted _ ih => exact ih
  | waits _ ih => exact ih
  | piece byte bytes _ ih => exact List.forall_mem_cons.mpr ⟨List.cons_ne_nil byte bytes, ih⟩
  | last byte bytes extra rest => exact List.forall_mem_singleton.mpr (List.cons_ne_nil byte bytes)

theorem Arrives.eq_rest (h : Arrives reads [] rest) : reads = rest := by
  cases h
  rfl

theorem Arrives.gets (h : Arrives reads (p :: ps) rest) (hn : n ≤ (p :: ps).flatten.length) :
    ∃ reads', Gets n reads (p.take n) reads' ∧ Arrives reads' (afterRead n p ps) rest := by
  generalize hpieces : p :: ps = pieces at h hn
  unfold afterRead
  induction h with
  | done rest => cases hpieces
  | interrupted _ ih =>
    obtain ⟨reads', hgets, hleft⟩ := ih hpieces hn
    exact ⟨reads', .interrupted hgets, hleft⟩
  | waits _ ih =>
    obtain ⟨reads', hgets, hleft⟩ := ih hpieces hn
    exact ⟨reads', .waits hgets, hleft⟩
  | piece byte bytes h _ =>
    cases hpieces
    refine ⟨_, .data byte bytes _, ?_⟩
    split_ifs with hlt
    · rw [List.drop_eq_getElem_cons hlt]
      exact .piece _ _ h
    · rw [List.drop_eq_nil_of_le (not_lt.mp hlt)]
      exact h
  | last byte bytes extra rest =>
    cases hpieces
    rw [List.flatten_singleton] at hn
    have hgets := Gets.data (n := n) byte (bytes ++ extra) rest
    rw [← List.cons_append, List.take_append_of_le_length hn, List.drop_append_of_le_length hn] at hgets
    refine ⟨_, hgets, ?_⟩
    split_ifs with hlt
    · rw [List.drop_eq_getElem_cons hlt]
      exact .last _ _ extra rest
    · rw [List.drop_eq_nil_of_le (not_lt.mp hlt)]
      exact .done _

theorem flatten_afterRead (hn : n ≤ p.length) : (afterRead n p ps).flatten = (p :: ps).flatten.drop n := by
  rw [List.flatten_cons, List.drop_append_of_le_length hn, afterRead]
  split_ifs with hlt
  · exact List.flatten_cons ..
  · rw [List.drop_eq_nil_of_le (not_lt.mp hlt), List.nil_append]

theorem mem_ends_afterRead (hn : n ≤ p.length) (hc : 0 < c) :
    c ∈ ends (afterRead n p ps) ↔ n + c ∈ ends (p :: ps) := by
  have hcons : n + c ∈ ends (p :: ps) ↔ n + c = p.length ∨ ∃ e ∈ ends ps, p.length + e = n + c := by
    rw [ends, List.mem_cons, List.mem_map]
  rw [hcons, afterRead]
  split_ifs with hlt
  · rw [ends, List.mem_cons, List.mem_map, List.length_drop]
    apply or_congr (by omega)
    apply exists_congr
    intro e
    apply and_congr_right
    intro _
    omega
  · constructor
    · intro h
      exact .inr ⟨c, h, by omega⟩
    · rintro (h | ⟨e, he, h⟩)
      · omega
      · obtain rfl : e = c := by omega
        exact he

theorem Arrives.getsByte {byte : UInt8} {bytes : Text} (h : Arrives reads pieces rest)
    (hbytes : pieces.flatten = byte :: bytes) :
    ∃ reads' pieces', Gets 1 reads [byte] reads' ∧ Arrives reads' pieces' rest ∧ pieces'.flatten = bytes ∧
      ∀ c, 0 < c → (c ∈ ends pieces' ↔ 1 + c ∈ ends pieces) := by
  cases pieces with
  | nil => cases hbytes
  | cons p ps =>
    have hne := h.ne_nil p (List.mem_cons_self ..)
    have hone : 1 ≤ p.length := List.length_pos_iff.mpr hne
    have htotal : 1 ≤ (p :: ps).flatten.length := by
      rw [hbytes]
      exact Nat.succ_pos _
    obtain ⟨reads', hgets, hleft⟩ := h.gets htotal
    obtain ⟨b, p, rfl⟩ := List.exists_cons_of_ne_nil hne
    rw [List.flatten_cons, List.cons_append, List.cons.injEq] at hbytes
    obtain ⟨rfl, hbytes⟩ := hbytes
    refine ⟨reads', _, hgets, hleft, ?_, fun c hc => mem_ends_afterRead hone hc⟩
    rw [flatten_afterRead hone, List.flatten_cons, ← hbytes]
    rfl

theorem le_length_iff (hne : p ≠ []) : n ≤ p.length ↔ ∀ c ∈ ends (p :: ps), 0 < c → n ≤ c := by
  have hpos : 0 < p.length := List.length_pos_iff.mpr hne
  rw [ends, List.forall_mem_cons, List.forall_mem_map]
  constructor
  · intro h
    exact ⟨fun _ => h, fun e _ _ => h.trans (Nat.le_add_right ..)⟩
  · intro h
    exact h.1 hpos

/-! ### Frames in pieces -/

namespace MakerbotDriver

variable {σ : Type} {d : MakerbotDriver σ} {s : Serial} {cmd : UInt8} {toolcmd : ℤ} {payload : Text}

/-- The bytes behind the first ones are computed with although they have not been read. -/
theorem readFrame_of_cut {r₁ r₂ r₃ r₄ : List SerialRead} {len crc : UInt8} {data : Text}
    (hstart : Gets 1 s.reads [0xD5] r₁) (hlen : Gets 1 r₁ [len] r₂) (hbuf : Gets len.toNat r₂ data r₃)
    (hshort : data.length < len.toNat) (hcrc : Gets 1 r₃ [crc] r₄) : readFrame s = .error .undefined := by
  have hpos : 0 < len.toNat := by omega
  rw [readFrame_of_gets hstart hlen hpos hbuf hcrc, if_pos hshort]

/-- No piece ends between the first and the last byte of the payload. -/
def Uncut (payload : Text) (pieces : List Text) : Prop :=
  ∀ c ∈ ends pieces, ¬ (2 < c ∧ c < 2 + payload.length)

instance (payload : Text) (pieces : List Text) : Decidable (Uncut payload pieces) :=
  inferInstanceAs (Decidable (∀ c ∈ ends pieces, ¬ (2 < c ∧ c < 2 + payload.length)))

/-- The payload is not cut if the first piece behind the start byte and the length holds all of it. -/
theorem uncut_iff (hne : p ≠ []) (hends : ∀ c, 0 < c → (c ∈ ends (p :: ps) ↔ 2 + c ∈ ends pieces)) :
    Uncut payload pieces ↔ payload.length ≤ p.length := by
  rw [le_length_iff hne]
  constructor
  · intro huncut c hc hpos
    have hcut := huncut _ ((hends c hpos).mp hc)
    omega
  · rintro hall c hc ⟨hlo, hhi⟩
    obtain ⟨e, rfl⟩ := Nat.exists_eq_add_of_le hlo.le
    have hpos : 0 < e := by omega
    have hle := hall e ((hends e hpos).mpr hc) hpos
    omega

/-- A frame that arrives in pieces is read if its payload is not cut. -/
theorem frame_or_cut (hne : payload ≠ []) (hlen : payload.length < 256) (h : Arrives s.reads pieces rest)
    (hbytes : pieces.flatten = frameBytes payload) :
    (Uncut payload pieces ∧ Frame s.reads payload rest) ∨
      (¬ Uncut payload pieces ∧ readFrame s = .error .undefined) := by
  have hsize : (UInt8.ofNat payload.length).toNat = payload.length := UInt8.toNat_ofNat_of_lt' hlen
  have hpayload : 0 < payload.length := List.length_pos_iff.mpr hne
  obtain ⟨r₁, p₁, hstart, h₁, hbytes₁, hends₁⟩ := h.getsByte hbytes
  obtain ⟨r₂, p₂, hlength, h₂, hbytes₂, hends₂⟩ := h₁.getsByte hbytes₁
  change p₂.flatten = payload ++ [crcOf payload] at hbytes₂
  cases p₂ with
  | nil =>
    have hnil := congrArg List.length hbytes₂
    simp at hnil
  | cons q qs =>
    have hq := h₂.ne_nil q (List.mem_cons_self ..)
    have htotal : (q :: qs).flatten.length = payload.length + 1 := by
      rw [hbytes₂, List.length_append, List.length_singleton]
    -- the ends counted from the payload on
    have hends : ∀ c, 0 < c → (c ∈ ends (q :: qs) ↔ 2 + c ∈ ends pieces) := by
      intro c hc
      have hshift : 2 + c = 1 + (1 + c) := by omega
      rw [hends₂ c hc, hends₁ (1 + c) (by omega), hshift]
    obtain ⟨r₃, hbuf, h₃⟩ := h₂.gets (n := payload.length) (by omega)
    rw [uncut_iff hq hends]
    by_cases hwhole : payload.length ≤ q.length
    · refine .inl ⟨hwhole, ?_⟩
      have hleft : (afterRead payload.length q qs).flatten = [crcOf payload] := by
        rw [flatten_afterRead hwhole, hbytes₂, List.drop_left]
      have hdata : q.take payload.length = payload := by
        have htake : (q :: qs).flatten.take payload.length = payload := by rw [hbytes₂, List.take_left]
        rwa [List.flatten_cons, List.take_append_of_le_length hwhole] at htake
      obtain ⟨r₄, p₄, hcrc, h₄, hnone, -⟩ := h₃.getsByte hleft
      have hp₄ : p₄ = [] := List.eq_nil_iff_forall_not_mem.mpr fun p hp =>
        h₄.ne_nil p hp (List.flatten_eq_nil_iff.mp hnone p hp)
      subst hp₄
      rw [hdata] at hbuf
      rw [← h₄.eq_rest]
      exact .intro hstart hlength hne hsize (by rwa [hsize]) hcrc
    · refine .inr ⟨hwhole, ?_⟩
      have hshort : q.length < payload.length := not_le.mp hwhole
      rw [List.take_of_length_le hshort.le] at hbuf
      rw [afterRead, if_neg (not_lt.mpr hshort.le)] at h₃
      rw [List.flatten_cons, List.length_append] at htotal
      obtain ⟨crc, bytes, hcrc⟩ := List.exists_cons_of_length_pos (show 0 < qs.flatten.length by omega)
      obtain ⟨r₄, p₄, hcrc, -⟩ := h₃.getsByte hcrc
      exact readFrame_of_cut hstart hlength (by rwa [hsize]) (by rwa [hsize]) hcrc

/-! ### Responses in pieces -/

def withBytes (d : MakerbotDriver σ) (bytes : Text) (rest : List SerialRead) : MakerbotDriver σ :=
  { d with serial := { d.serial with reads := unread bytes rest } }

/-- A response is taken as if it were there at once, with nothing of it left. -/
def Reassembled (d : MakerbotDriver σ) (cmd : UInt8) (toolcmd : ℤ) (payload : Text) (rest : List SerialRead) :
    Prop :=
  ∃ rv d', (d.withBytes (frameBytes payload) rest).parseResponse cmd toolcmd = .ok (rv, d') ∧
    d.parseResponse cmd toolcmd = .ok (rv, d') ∧ d'.serial.reads = rest

/-- The checksum of a frame without payload is not read. -/
theorem not_reassembled_nil : ¬ Reassembled d cmd toolcmd [] rest := by
  rintro ⟨rv, d', hatOnce, -, hrest⟩
  have ht := responseTimeout_pos
  have hone : ∀ byte : UInt8, [byte].length = 1 := fun _ => rfl
  have hstart := Gets.piece Nat.one_pos (hone 0xD5) [0, crcOf []] rest
  have hlength := Gets.piece Nat.one_pos (hone 0) [crcOf []] rest
  have hframe : (d.withBytes (frameBytes []) rest).parseResponse cmd toolcmd =
      .ok (0, d.withBytes [crcOf []] rest) := by
    rw [parseResponse, readFrame, readByte_gets hstart ht, bind_ok]
    dsimp only
    rw [if_neg (by simp), if_neg (by simp), readByte_gets hlength ht, bind_ok]
    rfl
  rw [hframe] at hatOnce
  cases hatOnce
  have hlen := congrArg List.length hrest
  exact absurd hlen (Nat.succ_ne_self _)

/-- A response that arrives in pieces is taken for what it is if and only if its payload has the value that is
asked for, and no piece ends within the payload. -/
theorem reassembled_iff (hlen : payload.length < 256) (h : Arrives d.serial.reads pieces rest)
    (hbytes : pieces.flatten = frameBytes payload) :
    Reassembled d cmd toolcmd payload rest ↔ valueSize cmd < payload.length ∧ Uncut payload pieces := by
  by_cases hne : payload = []
  · subst hne
    exact iff_of_false not_reassembled_nil fun hcond => absurd hcond.1 (Nat.not_lt_zero _)
  let d₁ : MakerbotDriver σ := { d with
    serial := { d.serial with reads := rest }
    received := d.received ++ [(cmd, payload)] }
  have hatOnce : (d.withBytes (frameBytes payload) rest).parseResponse cmd toolcmd =
      (d₁.interpret cmd toolcmd payload).map fun d' => (0, d') :=
    parseResponse_of_frame (Frame.atOnce hne hlen rest)
  rw [Reassembled, hatOnce]
  rcases interpret_cases d₁ cmd toolcmd hne with ⟨hshort, hinterpret⟩ | ⟨hlong, d₂, hinterpret⟩
  · rw [hinterpret]
    refine iff_of_false ?_ fun hcond => absurd hcond.1 (not_lt.mpr hshort)
    rintro ⟨rv, d', heq, -⟩
    cases heq
  rw [hinterpret, and_iff_right hlong]
  rcases frame_or_cut hne hlen h hbytes with ⟨huncut, hframe⟩ | ⟨hcut, hundefined⟩
  · have hpieces : d.parseResponse cmd toolcmd = (d₁.interpret cmd toolcmd payload).map fun d' => (0, d') :=
      parseResponse_of_frame hframe
    rw [hinterpret] at hpieces
    refine iff_of_true ⟨0, d₂, rfl, hpieces, ?_⟩ huncut
    rw [(interpret_eq hinterpret).2]
  · have hpieces : d.parseResponse cmd toolcmd = .error .undefined := by
      rw [parseResponse, hundefined]
      rfl
    rw [hpieces]
    refine iff_of_false ?_ hcut
    rintro ⟨rv, d', -, heq, -⟩
    cases heq

/-- The response to a query for the version, cut behind its start byte and in front of its checksum. -/
theorem reassembled_version : Reassembled
    { gpx := ()
      serial := { reads := [.data 0xD5 [], .wouldBlock true, .data 3 [0x81, 1, 2], .data 0xB1 [7]] } }
    0 (-1) [0x81, 1, 2] [.data 7 []] := by
  have harrives : Arrives [.data 0xD5 [], .wouldBlock true, .data 3 [0x81, 1, 2], .data 0xB1 [7]]
      [[0xD5], [3, 0x81, 1, 2], [0xB1]] [.data 7 []] :=
    .piece 0xD5 [] (.waits (.piece 3 [0x81, 1, 2] (.last 0xB1 [] [7] [])))
  apply (reassembled_iff (by decide) harrives (by decide +kernel)).mpr
  exact ⟨by decide, by decide⟩

/-- A packet is accepted, and what is behind the code of the response comes in another piece. -/
theorem not_reassembled_cut : ¬ ∀ (d : MakerbotDriver Unit) cmd toolcmd payload pieces rest,
    payload.length < 256 → Arrives d.serial.reads pieces rest → pieces.flatten = frameBytes payload →
      Reassembled d cmd toolcmd payload rest := by
  intro h
  let d : MakerbotDriver Unit :=
    { gpx := ()
      serial := { reads := [.data 0xD5 [2, 0x81], .data 0 [0xEB]] } }
  have harrives : Arrives d.serial.reads [[0xD5, 2, 0x81], [0, 0xEB]] [] :=
    .piece 0xD5 [2, 0x81] (.last 0 [0xEB] [] [])
  have hwhole := h d 137 (-1) [0x81, 0] _ [] (by decide) harrives (by decide +kernel)
  obtain ⟨-, huncut⟩ := (reassembled_iff (by decide) harrives (by decide +kernel)).mp hwhole
  exact absurd huncut (by decide)

end MakerbotDriver
end Print3D
