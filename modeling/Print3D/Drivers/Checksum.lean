import Print3D.Drivers.Frames
import Print3D.Library.ShiftRegister

/-! The checksum of packets and frames as a shift register, and the errors it detects. -/
namespace Print3D
namespace MakerbotDriver
open Effects

/-- A bit of a payload, counted from the lowest bit of the first byte. -/
def payloadBit (payload : Text) (i : ℕ) : Bool := (payload.getD (i / 8) 0).toNat.testBit (i % 8)

/-- The payloads are of one length and differ, but only in eight bits in succession. -/
structure Burst (payload payload' : Text) : Prop where
  length_eq : payload.length = payload'.length
  ne : payload ≠ payload'
  inside : ∃ start, ∀ i, payloadBit payload i ≠ payloadBit payload' i → start ≤ i ∧ i < start + 8

/-- What is added where a one leaves the register. -/
def crcPolynomial : BitVec 8 := 0x8C

variable {payload payload' : Text} {crc : UInt8}

theorem crcPolynomial_top : crcPolynomial.getLsbD (8 - 1) = true := rfl

theorem and_one_ne_zero (crc : UInt8) : crc &&& 1 ≠ 0 ↔ crc.toBitVec.getLsbD 0 = true := by
  have hand : (crc &&& 1).toBitVec = (BitVec.ofBool (crc.toBitVec.getLsbD 0)).setWidth 8 := by
    rw [UInt8.toBitVec_and]
    exact BitVec.and_one_eq_setWidth_ofBool_getLsbD
  rw [Ne, ← UInt8.toBitVec_inj, hand]
  cases crc.toBitVec.getLsbD 0 <;> decide

theorem crcShift_toBitVec (crc : UInt8) :
    (crcShift crc).toBitVec = ShiftRegister.shift crcPolynomial crc.toBitVec := by
  unfold crcShift ShiftRegister.shift
  rw [if_congr (and_one_ne_zero crc) rfl rfl]
  split_ifs <;> rfl

theorem crcIbuttonUpdate_toBitVec (crc data : UInt8) : (crcIbuttonUpdate crc data).toBitVec =
    (ShiftRegister.shift crcPolynomial)^[8] (crc.toBitVec ^^^ data.toBitVec) := by
  have hshifts : ∀ n (r : UInt8), (crcShift^[n] r).toBitVec =
      (ShiftRegister.shift crcPolynomial)^[n] r.toBitVec := by
    intro n
    induction n with
    | zero => exact fun r => rfl
    | succ n ih =>
      intro r
      rw [Function.iterate_succ_apply, ih, crcShift_toBitVec, Function.iterate_succ_apply]
  exact hshifts 8 (crc ^^^ data)

theorem crcOf_toBitVec (payload : Text) : (crcOf payload).toBitVec =
    ShiftRegister.feedWords crcPolynomial 0 (payload.map UInt8.toBitVec) := by
  have hfold : ∀ crc : UInt8, (payload.foldl crcIbuttonUpdate crc).toBitVec =
      ShiftRegister.feedWords crcPolynomial crc.toBitVec (payload.map UInt8.toBitVec) := by
    induction payload with
    | nil => exact fun crc => rfl
    | cons b payload ih =>
      intro crc
      rw [List.foldl_cons, ih, crcIbuttonUpdate_toBitVec]
      rfl
  exact hfold 0

theorem payloadBit_eq (payload : Text) (i : ℕ) :
    payloadBit payload i = ShiftRegister.bitAt (payload.map UInt8.toBitVec) i := by
  unfold payloadBit ShiftRegister.bitAt
  have hzero : (0 : BitVec 8) = (0 : UInt8).toBitVec := rfl
  rw [hzero, List.getD_map]
  rfl

theorem crcOf_ne_of_register
    (h : ShiftRegister.feedWords crcPolynomial 0 (payload.map UInt8.toBitVec) ≠
      ShiftRegister.feedWords crcPolynomial 0 (payload'.map UInt8.toBitVec)) :
    crcOf payload ≠ crcOf payload' := by
  intro heq
  apply h
  rw [← crcOf_toBitVec, ← crcOf_toBitVec, heq]

theorem crcOf_ne_of_burst (h : Burst payload payload') : crcOf payload ≠ crcOf payload' := by
  obtain ⟨hlen, hne, start, hinside⟩ := h
  apply crcOf_ne_of_register
  apply ShiftRegister.feedWords_ne_of_burst (by decide) crcPolynomial_top (s := start)
  · rw [List.length_map, List.length_map, hlen]
  · exact fun heq => hne (List.map_injective_iff.mpr (fun _ _ => UInt8.toBitVec_inj.mp) heq)
  · simpa only [payloadBit_eq] using hinside

theorem crcOf_ne_of_byte {b b' : UInt8} (h : b ≠ b') (front back : Text) :
    crcOf (front ++ b :: back) ≠ crcOf (front ++ b' :: back) := by
  apply crcOf_ne_of_register
  rw [List.map_append, List.map_append, List.map_cons, List.map_cons]
  exact ShiftRegister.feedWords_ne_of_word (by decide) crcPolynomial_top (mt UInt8.toBitVec_inj.mp h) _ _ _

/-- A burst of up to eight bits changes the checksum, and so does another byte. -/
theorem crcOf_detects_bursts : (∀ payload payload', Burst payload payload' → crcOf payload ≠ crcOf payload') ∧
    ∀ (front : Text) (b b' : UInt8) (back : Text), b ≠ b' →
      crcOf (front ++ b :: back) ≠ crcOf (front ++ b' :: back) := by
  constructor
  · exact fun payload payload' h => crcOf_ne_of_burst h
  · exact fun front b b' back h => crcOf_ne_of_byte h front back

/-- Bits of two bytes that lie next to each other. -/
theorem crcOf_detects_straddling :
    crcOf [0x81, 0xF0, 0x0F] ≠ crcOf [0x81, 0, 0] ∧ crcOf [10, 0, 2] ≠ crcOf [10, 0, 30] := by
  constructor
  · refine crcOf_detects_bursts.1 _ _ ⟨rfl, by decide, 12, fun i hi => ?_⟩
    by_contra hout
    apply hi
    rcases Nat.lt_or_ge i 24 with hlt | hge
    · revert hi hout
      revert i
      decide
    · have hdiv : 3 ≤ i / 8 := by omega
      rw [payloadBit, payloadBit, List.getD_eq_default _ _ hdiv, List.getD_eq_default _ _ hdiv]
  · exact crcOf_detects_bursts.2 [10, 0] 2 30 [] (by decide)

/-- A response is not taken for valid when a burst has changed its payload on the way. -/
theorem readFrame_of_burst {s : Serial} {r₁ r₂ r₃ r₄ : List SerialRead} {len : UInt8}
    (h : Burst payload payload') (hstart : Gets 1 s.reads [0xD5] r₁) (hlen : Gets 1 r₁ [len] r₂)
    (hbuf : Gets len.toNat r₂ payload' r₃) (hsize : payload'.length = len.toNat)
    (hcrc : Gets 1 r₃ [crcOf payload] r₄) : readFrame s = .ok (.error (-3), { s with reads := r₄ }) := by
  have hnonempty : payload' ≠ [] := by
    rintro rfl
    exact h.ne (List.length_eq_zero_iff.mp h.length_eq)
  have hpos : 0 < len.toNat := by
    rw [← hsize]
    exact List.length_pos_iff.mpr hnonempty
  rw [readFrame_of_gets hstart hlen hpos hbuf hcrc, if_neg (by omega), if_pos (crcOf_ne_of_burst h)]

end MakerbotDriver
end Print3D
