import Mathlib.Tactic
import Mathlib.Data.List.Induction

/-! Two's complement wrap-around of signed integers, and big-endian byte strings. -/
namespace FixedWidth

/-- The value of `x` in a signed `w`-bit register. -/
def wrap (w : ℕ) (x : ℤ) : ℤ := x.bmod (2 ^ w)

theorem wrap_of_bounds {w : ℕ} {x : ℤ} (hlo : -(2 ^ w : ℤ) ≤ x) (hhi : x < 2 ^ w) :
    wrap (w + 1) x = x := by
  have hp : ((2 ^ (w + 1) : ℕ) : ℤ) = 2 * 2 ^ w := by push_cast; ring
  unfold wrap
  apply Int.bmod_eq_of_le <;> rw [hp] <;> omega

theorem wrap_bounds (w : ℕ) (x : ℤ) : -(2 ^ w : ℤ) ≤ wrap (w + 1) x ∧ wrap (w + 1) x < 2 ^ w := by
  have hp : ((2 ^ (w + 1) : ℕ) : ℤ) = 2 * 2 ^ w := by push_cast; ring
  have hpos : 0 < 2 ^ (w + 1) := Nat.two_pow_pos _
  have hlo := Int.le_bmod (x := x) hpos
  have hhi := Int.bmod_lt (x := x) hpos
  rw [hp] at hlo hhi
  unfold wrap
  constructor <;> omega

@[simp] theorem wrap_wrap_add (w : ℕ) (x y : ℤ) : wrap w (wrap w x + y) = wrap w (x + y) := by
  simp [wrap]

@[simp] theorem wrap_wrap_sub (w : ℕ) (x y : ℤ) : wrap w (wrap w x - y) = wrap w (x - y) := by
  simp [wrap]

@[simp] theorem wrap_emod (w : ℕ) (x : ℤ) : wrap w (x % 2 ^ w) = wrap w x := by
  have h := Int.emod_bmod (x := x) (n := 2 ^ w)
  simpa [wrap] using h

/-- The `k` low-order bytes of `v`, most significant first. -/
def bigEndian : ℕ → ℕ → List UInt8
  | 0, _ => []
  | k + 1, v => bigEndian k (v / 256) ++ [UInt8.ofNat v]

/-- The number a big-endian byte string stands for. -/
def ofBigEndian (bs : List UInt8) : ℕ := bs.foldl (fun a b => a * 256 + b.toNat) 0

@[simp] theorem bigEndian_length (k v : ℕ) : (bigEndian k v).length = k := by
  induction k generalizing v with
  | zero => rfl
  | succ k ih => simp [bigEndian, ih]

theorem ofBigEndian_append_singleton (bs : List UInt8) (b : UInt8) :
    ofBigEndian (bs ++ [b]) = ofBigEndian bs * 256 + b.toNat := by
  simp [ofBigEndian]

theorem ofBigEndian_bigEndian (k v : ℕ) : ofBigEndian (bigEndian k v) = v % 256 ^ k := by
  induction k generalizing v with
  | zero => simp [bigEndian, ofBigEndian, Nat.mod_one]
  | succ k ih =>
    have h : v % (256 * 256 ^ k) = v % 256 + 256 * (v / 256 % 256 ^ k) := Nat.mod_mul
    rw [bigEndian, ofBigEndian_append_singleton, ih, UInt8.toNat_ofNat', pow_succ' 256 k, h]
    omega

theorem bigEndian_ofBigEndian (bs : List UInt8) : bigEndian bs.length (ofBigEndian bs) = bs := by
  induction bs using List.reverseRecOn with
  | nil => rfl
  | append_singleton bs b ih =>
    have hb := b.toNat_lt
    have hd : (ofBigEndian bs * 256 + b.toNat) / 256 = ofBigEndian bs := by omega
    have hm : UInt8.ofNat (ofBigEndian bs * 256 + b.toNat) = b := by
      apply UInt8.toNat_inj.mp
      rw [UInt8.toNat_ofNat']
      omega
    rw [List.length_append, List.length_singleton, bigEndian, ofBigEndian_append_singleton, hd, ih, hm]

theorem ofBigEndian_lt (bs : List UInt8) : ofBigEndian bs < 256 ^ bs.length := by
  induction bs using List.reverseRecOn with
  | nil => simp [ofBigEndian]
  | append_singleton bs b ih =>
    have hb := b.toNat_lt
    rw [ofBigEndian_append_singleton, List.length_append, List.length_singleton, pow_succ]
    omega

end FixedWidth
