import Mathlib.Tactic
import Mathlib.Data.List.GetD

/-! Linear feedback shift registers: a register of `w` bits is shifted to the right, and a polynomial
is added to it where a one leaves it. -/
namespace ShiftRegister

variable {w : ℕ} (poly : BitVec w)

def shift (r : BitVec w) : BitVec w := if r.getLsbD 0 then (r >>> 1) ^^^ poly else r >>> 1

def lowBit (w : ℕ) (bit : Bool) : BitVec w := (BitVec.ofBool bit).setWidth w

/-- The register after a row of bits, each of which is added to the lowest place before the shift. -/
def feed (r : BitVec w) (bits : List Bool) : BitVec w :=
  bits.foldl (fun r bit => shift poly (r ^^^ lowBit w bit)) r

/-- The bits of a word, the lowest one first. -/
def toBits (x : BitVec w) : List Bool := List.ofFn fun i : Fin w => x.getLsb i

/-- The register after a row of words, each of which is added as a whole before `w` shifts. -/
def feedWords (r : BitVec w) (xs : List (BitVec w)) : BitVec w :=
  xs.foldl (fun r x => (shift poly)^[w] (r ^^^ x)) r

/-- A bit of a row of words, counted from the lowest bit of the first one. -/
def bitAt (xs : List (BitVec w)) (i : ℕ) : Bool := (xs.getD (i / w) 0).getLsbD (i % w)

variable {poly} {r r' x : BitVec w} {xs ys : List (BitVec w)} {bits bits' : List Bool} {bit bit' : Bool}
  {i n : ℕ}

theorem getLsbD_lowBit : (lowBit w bit).getLsbD i = (decide (i < w) && decide (i = 0) && bit) := by
  cases bit
  · simp [lowBit]
  · cases i <;> simp [lowBit]

theorem getLsbD_shift (r : BitVec w) (i : ℕ) :
    (shift poly r).getLsbD i = (r.getLsbD (1 + i) ^^ (r.getLsbD 0 && poly.getLsbD i)) := by
  unfold shift
  cases r.getLsbD 0 <;> simp

theorem shift_zero : shift poly 0 = 0 := by simp [shift]

theorem shift_xor (r r' : BitVec w) : shift poly (r ^^^ r') = shift poly r ^^^ shift poly r' := by
  apply BitVec.eq_of_getLsbD_eq
  intro i _
  rw [BitVec.getLsbD_xor, getLsbD_shift, getLsbD_shift, getLsbD_shift, BitVec.getLsbD_xor, BitVec.getLsbD_xor]
  cases r.getLsbD 0 <;> cases r'.getLsbD 0 <;> cases poly.getLsbD i <;> simp

theorem lowBit_xor (bit bit' : Bool) : lowBit w (bit ^^ bit') = lowBit w bit ^^^ lowBit w bit' := by
  apply BitVec.eq_of_getLsbD_eq
  intro i _
  rw [BitVec.getLsbD_xor, getLsbD_lowBit, getLsbD_lowBit, getLsbD_lowBit]
  cases bit <;> cases bit' <;> simp

theorem feed_cons (r : BitVec w) (bit : Bool) (bits : List Bool) :
    feed poly r (bit :: bits) = feed poly (shift poly (r ^^^ lowBit w bit)) bits := rfl

theorem feed_append (r : BitVec w) (bits bits' : List Bool) :
    feed poly r (bits ++ bits') = feed poly (feed poly r bits) bits' := List.foldl_append ..

/-- The difference of two rows is fed to the difference of the registers. -/
theorem feed_xor (h : bits.length = bits'.length) (r r' : BitVec w) :
    feed poly r bits ^^^ feed poly r' bits' = feed poly (r ^^^ r') (List.zipWith (· ^^ ·) bits bits') := by
  induction bits generalizing bits' r r' with
  | nil =>
    obtain rfl := List.length_eq_zero_iff.mp h.symm
    rfl
  | cons bit bits ih =>
    cases bits' with
    | nil => cases h
    | cons bit' bits' =>
      have hbit : r ^^^ lowBit w bit ^^^ (r' ^^^ lowBit w bit') = r ^^^ r' ^^^ lowBit w (bit ^^ bit') := by
        rw [lowBit_xor]
        ac_rfl
      rw [feed_cons, feed_cons, ih (Nat.succ_inj.mp h), ← shift_xor, hbit]
      rfl

/-- A row that is no longer than the register leads to zero from one state only, where it stands itself in
the lowest places. -/
theorem feed_eq_zero_iff (hpoly : poly.getLsbD (w - 1) = true) (hlen : bits.length ≤ w) (r : BitVec w) :
    feed poly r bits = 0 ↔ ∀ i, r.getLsbD i = bits.getD i false := by
  induction bits generalizing r with
  | nil =>
    change r = 0 ↔ _
    constructor
    · intro h i
      simp [h]
    · intro h
      apply BitVec.eq_of_getLsbD_eq
      intro i _
      simpa using h i
  | cons bit bits ih =>
    have hpos : 0 < w := lt_of_lt_of_le (Nat.succ_pos _) hlen
    rw [List.length_cons] at hlen
    rw [feed_cons, ih (by omega)]
    have hfirst : (r ^^^ lowBit w bit).getLsbD 0 = (r.getLsbD 0 ^^ bit) := by
      rw [BitVec.getLsbD_xor, getLsbD_lowBit]
      simp [hpos]
    have hnext : ∀ i, (r ^^^ lowBit w bit).getLsbD (1 + i) = r.getLsbD (i + 1) := by
      intro i
      rw [BitVec.getLsbD_xor, getLsbD_lowBit, Nat.add_comm 1 i]
      simp
    simp only [getLsbD_shift, hfirst, hnext]
    constructor
    · intro h
      -- the highest place shows whether the polynomial has been added
      have hshort : bits.getD (w - 1) false = false := by
        rw [List.getD_eq_getElem?_getD, List.getElem?_eq_none (by omega)]
        rfl
      have htop := h (w - 1)
      rw [hpoly, Nat.sub_add_cancel hpos, BitVec.getLsbD_of_ge r w le_rfl, hshort] at htop
      have hbit : r.getLsbD 0 = bit := by simpa using htop
      intro i
      cases i with
      | zero => exact hbit
      | succ i => simpa [hbit] using h i
    · intro h i
      have hbit : r.getLsbD 0 = bit := h 0
      simpa [hbit] using h (i + 1)

theorem feed_replicate (r : BitVec w) (n : ℕ) :
    feed poly r (List.replicate n false) = (shift poly)^[n] r := by
  induction n generalizing r with
  | zero => rfl
  | succ n ih =>
    have hlow : r ^^^ lowBit w false = r := by simp [lowBit]
    rw [List.replicate_succ, feed_cons, hlow, ih, Function.iterate_succ_apply]

theorem feed_zero (n : ℕ) : feed poly 0 (List.replicate n false) = 0 := by
  rw [feed_replicate]
  exact Function.iterate_fixed shift_zero n

/-- Only zero leads to zero without a one. -/
theorem eq_zero_of_feed_replicate (hpoly : poly.getLsbD (w - 1) = true)
    (h : feed poly r (List.replicate n false) = 0) : r = 0 := by
  induction n generalizing r with
  | zero => exact h
  | succ n ih =>
    rw [List.replicate_succ, feed_cons] at h
    have hone := ih h
    rcases Nat.eq_zero_or_pos w with rfl | hpos
    · exact BitVec.eq_nil r
    · have hlen : [false].length ≤ w := hpos
      have hr := (feed_eq_zero_iff hpoly hlen r).mp hone
      apply BitVec.eq_of_getLsbD_eq
      intro i _
      rw [hr i]
      cases i <;> simp

theorem eq_replicate_of_getD (h : ∀ i, bits.getD i false = false) :
    bits = List.replicate bits.length false := by
  apply List.ext_getElem (List.length_replicate ..).symm
  intro i hi _
  rw [List.getElem_replicate, ← h i, List.getD_eq_getElem?_getD, List.getElem?_eq_getElem hi]
  rfl

theorem getD_zipWith_xor (h : bits.length = bits'.length) (i : ℕ) :
    (List.zipWith (· ^^ ·) bits bits').getD i false = (bits.getD i false ^^ bits'.getD i false) := by
  induction bits generalizing bits' i with
  | nil =>
    obtain rfl := List.length_eq_zero_iff.mp h.symm
    rfl
  | cons bit bits ih =>
    cases bits' with
    | nil => cases h
    | cons bit' bits' =>
      cases i with
      | zero => rfl
      | succ i => exact ih (Nat.succ_inj.mp h) i

/-- A row of zeros, in which ones stand in `w` places in succession only, does not lead to zero. -/
theorem getD_eq_false_of_feed (hpoly : poly.getLsbD (w - 1) = true) {s : ℕ}
    (hburst : ∀ i, bits.getD i false = true → s ≤ i ∧ i < s + w) (h : feed poly 0 bits = 0) (i : ℕ) :
    bits.getD i false = false := by
  have hzero : ∀ i, ¬ (s ≤ i ∧ i < s + w) → bits.getD i false = false := fun i hi =>
    Bool.eq_false_iff.mpr (mt (hburst i) hi)
  have htake : ∀ (l : List Bool) n i, (l.take n).getD i false = if i < n then l.getD i false else false := by
    intro l n i
    rw [List.getD_eq_getElem?_getD, List.getD_eq_getElem?_getD, List.getElem?_take]
    split_ifs <;> rfl
  have hdrop : ∀ (l : List Bool) n i, (l.drop n).getD i false = l.getD (n + i) false := by
    intro l n i
    rw [List.getD_eq_getElem?_getD, List.getD_eq_getElem?_getD, List.getElem?_drop]
  -- the zeros in front leave the register at zero, and those behind the ones show that it was
  have hfront : bits.take s = List.replicate (bits.take s).length false := by
    apply eq_replicate_of_getD
    intro i
    rw [htake]
    split_ifs with hi
    · exact hzero i (by omega)
    · rfl
  have hback : (bits.drop s).drop w = List.replicate ((bits.drop s).drop w).length false := by
    apply eq_replicate_of_getD
    intro i
    rw [hdrop, hdrop]
    exact hzero _ (by omega)
  rw [← List.take_append_drop s bits, feed_append, hfront, feed_zero, ← List.take_append_drop w (bits.drop s),
    feed_append, hback] at h
  have hwindow := (feed_eq_zero_iff hpoly (List.length_take_le ..) 0).mp (eq_zero_of_feed_replicate hpoly h)
  by_cases hi : s ≤ i ∧ i < s + w
  · have hbit := hwindow (i - s)
    rw [htake, if_pos (by omega), hdrop, Nat.add_sub_cancel' hi.1] at hbit
    simpa using hbit.symm
  · exact hzero i hi

/-- Rows of one length that differ, and only in `w` places in succession, lead to different registers. -/
theorem feed_ne_of_burst (hpoly : poly.getLsbD (w - 1) = true) (hlen : bits.length = bits'.length)
    (hne : bits ≠ bits') {s : ℕ} (hburst : ∀ i, bits.getD i false ≠ bits'.getD i false → s ≤ i ∧ i < s + w)
    (r : BitVec w) : feed poly r bits ≠ feed poly r bits' := by
  intro h
  apply hne
  have hfeed : feed poly r bits ^^^ feed poly r bits' = _ := feed_xor hlen r r
  rw [h, BitVec.xor_self, BitVec.xor_self] at hfeed
  have hdiffers : ∀ i, (List.zipWith (· ^^ ·) bits bits').getD i false = true → s ≤ i ∧ i < s + w := by
    intro i hi
    apply hburst
    intro heq
    rw [getD_zipWith_xor hlen, heq, Bool.xor_self] at hi
    cases hi
  apply List.ext_getElem hlen
  intro i hi hi'
  have hbit := getD_eq_false_of_feed hpoly hdiffers hfeed.symm i
  rw [getD_zipWith_xor hlen, List.getD_eq_getElem?_getD, List.getD_eq_getElem?_getD,
    List.getElem?_eq_getElem hi, List.getElem?_eq_getElem hi'] at hbit
  simpa using hbit

/-! ### Words -/

theorem length_toBits (x : BitVec w) : (toBits x).length = w := List.length_ofFn

theorem getD_toBits (x : BitVec w) (i : ℕ) : (toBits x).getD i false = x.getLsbD i := by
  rw [List.getD_eq_getElem?_getD, toBits, List.getElem?_ofFn]
  split_ifs with hi
  · rfl
  · exact (BitVec.getLsbD_of_ge x i (not_lt.mp hi)).symm

/-- A word is fed as a whole by adding it before the shifts. -/
theorem feed_toBits (hpoly : poly.getLsbD (w - 1) = true) (r x : BitVec w) :
    feed poly r (toBits x) = (shift poly)^[w] (r ^^^ x) := by
  have hlen : (toBits x).length = (List.replicate w false).length := by
    rw [length_toBits, List.length_replicate]
  have hself : feed poly x (toBits x) = 0 := by
    apply (feed_eq_zero_iff hpoly (length_toBits x).le x).mpr
    exact fun i => (getD_toBits x i).symm
  have hbits : List.zipWith (· ^^ ·) (toBits x) (List.replicate w false) = toBits x := by
    apply List.ext_getElem
    · simp [length_toBits]
    · intro i _ _
      simp
  have hdiff : feed poly r (toBits x) ^^^ feed poly (r ^^^ x) (List.replicate w false) = _ :=
    feed_xor hlen r (r ^^^ x)
  rw [feed_replicate, hbits, ← BitVec.xor_assoc, BitVec.xor_self, BitVec.zero_xor, hself] at hdiff
  exact BitVec.xor_eq_zero_iff.mp hdiff

theorem feed_flatMap_toBits (hpoly : poly.getLsbD (w - 1) = true) (r : BitVec w) (xs : List (BitVec w)) :
    feed poly r (xs.flatMap toBits) = feedWords poly r xs := by
  induction xs generalizing r with
  | nil => rfl
  | cons x xs ih =>
    rw [List.flatMap_cons, feed_append, feed_toBits hpoly, ih]
    rfl

theorem length_flatMap_toBits (xs : List (BitVec w)) : (xs.flatMap toBits).length = xs.length * w := by
  induction xs with
  | nil => simp
  | cons x xs ih =>
    rw [List.flatMap_cons, List.length_append, length_toBits, ih, List.length_cons, Nat.succ_mul, Nat.add_comm]

theorem getD_flatMap_toBits (hw : 0 < w) (xs : List (BitVec w)) (i : ℕ) :
    (xs.flatMap toBits).getD i false = bitAt xs i := by
  unfold bitAt
  induction xs generalizing i with
  | nil => simp
  | cons x xs ih =>
    rw [List.flatMap_cons]
    by_cases hi : i < w
    · rw [List.getD_append _ _ _ _ (by rwa [length_toBits]), getD_toBits, Nat.div_eq_of_lt hi,
        Nat.mod_eq_of_lt hi]
      rfl
    · obtain ⟨j, rfl⟩ := Nat.exists_eq_add_of_le (not_lt.mp hi)
      rw [List.getD_append_right _ _ _ _ (by rw [length_toBits]; omega), length_toBits, Nat.add_sub_cancel_left,
        ih, Nat.add_div_left _ hw, Nat.add_mod_left]
      rfl

/-- Rows of words of one length that differ, and only in `w` bits in succession, lead to different
registers. -/
theorem feedWords_ne_of_burst (hw : 0 < w) (hpoly : poly.getLsbD (w - 1) = true) (hlen : xs.length = ys.length)
    (hne : xs ≠ ys) {s : ℕ} (hburst : ∀ i, bitAt xs i ≠ bitAt ys i → s ≤ i ∧ i < s + w) (r : BitVec w) :
    feedWords poly r xs ≠ feedWords poly r ys := by
  rw [← feed_flatMap_toBits hpoly, ← feed_flatMap_toBits hpoly]
  apply feed_ne_of_burst hpoly
  · rw [length_flatMap_toBits, length_flatMap_toBits, hlen]
  · intro heq
    apply hne
    apply List.ext_getElem hlen
    intro k hk hk'
    apply BitVec.eq_of_getLsbD_eq
    intro i hi
    have hdiv : (w * k + i) / w = k := by rw [Nat.mul_add_div hw, Nat.div_eq_of_lt hi, Nat.add_zero]
    have hmod : (w * k + i) % w = i := by rw [Nat.mul_add_mod, Nat.mod_eq_of_lt hi]
    have hbit := congrArg (·.getD (w * k + i) false) heq
    simp only [getD_flatMap_toBits hw, bitAt, hdiv, hmod] at hbit
    rwa [List.getD_eq_getElem _ _ hk, List.getD_eq_getElem _ _ hk'] at hbit
  · simpa only [getD_flatMap_toBits hw] using hburst

/-- In particular one word may be a different one. -/
theorem feedWords_ne_of_word (hw : 0 < w) (hpoly : poly.getLsbD (w - 1) = true) {x' : BitVec w} (h : x ≠ x')
    (front back : List (BitVec w)) (r : BitVec w) :
    feedWords poly r (front ++ x :: back) ≠ feedWords poly r (front ++ x' :: back) := by
  have hlen : (front ++ x :: back).length = (front ++ x' :: back).length := by
    simp only [List.length_append, List.length_cons]
  have hne : front ++ x :: back ≠ front ++ x' :: back := by
    intro heq
    exact h (List.cons.inj (List.append_cancel_left heq)).1
  apply feedWords_ne_of_burst hw hpoly hlen hne (s := w * front.length)
  intro i hi
  -- outside of the word both rows have the same words
  have hplace : i / w = front.length := by
    by_contra hplace
    apply hi
    unfold bitAt
    rcases Nat.lt_or_gt_of_ne hplace with hlt | hgt
    · rw [List.getD_append _ _ _ _ hlt, List.getD_append _ _ _ _ hlt]
    · obtain ⟨k, hk⟩ := Nat.exists_eq_add_of_lt hgt
      rw [hk, List.getD_append_right _ _ _ _ (by omega), List.getD_append_right _ _ _ _ (by omega),
        show front.length + k + 1 - front.length = k + 1 by omega]
      rfl
  have hrem := Nat.mod_lt i hw
  have hdiv := Nat.div_add_mod i w
  rw [hplace] at hdiv
  omega

end ShiftRegister
