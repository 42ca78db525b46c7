import Print3D.Library.FixedWidth

/-! Byte strings behind their lengths: a field is a `k`-byte length and that many bytes. -/
namespace LengthPrefixed
open FixedWidth

/-- The `k`-byte length of `a`, and `a`. -/
def field (k : ℕ) (a : List UInt8) : List UInt8 := bigEndian k a.length ++ a

/-- All fields of a list, one behind the other. -/
def fields (k : ℕ) (as : List (List UInt8)) : List UInt8 := as.flatMap (field k)

variable {k : ℕ} {a b r : List UInt8} {as : List (List UInt8)}

@[simp] theorem field_length (k : ℕ) (a : List UInt8) : (field k a).length = k + a.length := by
  simp [field]

@[simp] theorem fields_nil (k : ℕ) : fields k [] = [] := rfl

@[simp] theorem fields_cons (k : ℕ) (a : List UInt8) (as : List (List UInt8)) :
    fields k (a :: as) = field k a ++ fields k as := by
  simp [fields]

@[simp] theorem fields_append (k : ℕ) (as bs : List (List UInt8)) :
    fields k (as ++ bs) = fields k as ++ fields k bs := by
  simp [fields]

theorem length_le_fields (h : a ∈ as) : k + a.length ≤ (fields k as).length := by
  induction as with
  | nil => cases h
  | cons b as ih =>
    rw [fields_cons, List.length_append, field_length]
    rcases List.mem_cons.mp h with rfl | h
    · omega
    · have := ih h
      omega

theorem ofBigEndian_take_field (h : a.length < 256 ^ k) :
    ofBigEndian ((field k a ++ r).take k) = a.length := by
  have htake : (field k a ++ r).take k = bigEndian k a.length := by
    rw [field, List.append_assoc, List.take_append_of_le_length (by simp),
      List.take_of_length_le (by simp)]
  rw [htake, ofBigEndian_bigEndian, Nat.mod_eq_of_lt h]

/-- Bytes that start with a length and go on long enough start with a field. -/
theorem exists_field (h : k + ofBigEndian (b.take k) ≤ b.length) :
    ∃ a r, b = field k a ++ r ∧ a.length = ofBigEndian (b.take k) := by
  set n := ofBigEndian (b.take k) with hn
  have hlen : ((b.drop k).take n).length = n := by
    rw [List.length_take, List.length_drop]
    omega
  refine ⟨(b.drop k).take n, (b.drop k).drop n, ?_, hlen⟩
  have htake : (b.take k).length = k := by
    rw [List.length_take]
    omega
  have hpre : bigEndian k n = b.take k := by
    have h := bigEndian_ofBigEndian (b.take k)
    rwa [htake] at h
  rw [field, hlen, hpre, List.append_assoc, List.take_append_drop, List.take_append_drop]

end LengthPrefixed
