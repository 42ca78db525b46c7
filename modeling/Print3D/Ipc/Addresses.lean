import Print3D.Ipc.Layout

/-! The functions of `ipc_shared.c` that walk over the arguments of a message, with their pointers
as addresses: sums wrap around at the width of an address, and lengths at 32 bits. -/
namespace Print3D
open FixedWidth LengthPrefixed

/-- Where a buffer lies. The address behind its last byte is an address as well, and its length an `int`. -/
structure Placement where
  width : ℕ
  base : ℕ
  size : ℕ
  width_ge : 32 ≤ width
  size_lt : size < 2 ^ 31
  base_add_size_lt : base + size < 2 ^ width

/-- Where an argument starts, and its length, by the lengths of those in front of it. -/
def extent (buf : Text) : ℕ → ℕ → Option (ℕ × ℕ)
  | 0, p => (readNl buf p).map fun al => (p, al)
  | argidx + 1, p => do
    let al ← readNl buf p
    extent buf argidx (p + 4 + al)

namespace Placement

variable (b : Placement) (buf : Text)

def readNlAt (p : ℕ) : Option ℕ := if b.base ≤ p then readNl buf (p - b.base) else none

def readBytesAt (p n : ℕ) : Option Text := if b.base ≤ p then readBytes buf (p - b.base) n else none

def add (p n : ℕ) : ℕ := (p + n) % 2 ^ b.width

/-- The loop of `ipc_cmd_is_complete`. -/
def isCompleteFrom : ℕ → ℕ → Option ℤ
  | 0, p => some (i32 (p - b.base))
  | argsleft + 1, p =>
    if b.base + buf.length < b.add p 4 then some 0
    else do
      let al ← b.readNlAt buf p
      if b.base + buf.length < b.add (b.add p 4) al then some 0
      else isCompleteFrom argsleft (b.add p ((4 + al) % 2 ^ 32))

def ipcCmdIsComplete : Option ℤ :=
  if buf.length < 4 then some 0
  else do
    let argsleft ← readNs buf 2
    b.isCompleteFrom buf argsleft (b.base + 4)

def findArg : ℕ → ℕ → Option (ℕ × ℕ)
  | 0, p => do
    let currarglen ← b.readNlAt buf p
    some (p, currarglen)
  | argidx + 1, p => do
    let currarglen ← b.readNlAt buf p
    findArg argidx (b.add p ((4 + currarglen) % 2 ^ 32))

def ipcCmdGetArg (grants : ℕ → Bool) (argidx : ℕ) (addzero : Bool) : Option (Except ℤ Text) := do
  let count ← readNs buf 2
  if argidx ≥ count then some (.error (-2))
  else
    let (p, currarglen) ← b.findArg buf argidx (b.base + 4)
    if grants ((currarglen + addzero.toNat) % 2 ^ 32) then do
      let arg ← b.readBytesAt buf (b.add p 4) currarglen
      some (.ok (arg ++ if addzero then [0] else []))
    else some (.error (-1))

def ipcCmdGetArgLen (argidx : ℕ) : Option ℤ := do
  let count ← readNs buf 2
  if argidx ≥ count then some (-2)
  else
    let (_, currarglen) ← b.findArg buf argidx (b.base + 4)
    some (i32 currarglen)

def ipcCmdGetShortArg (grants : ℕ → Bool) (argidx : ℕ) : Option (Except ℤ ℤ) := do
  match ← b.ipcCmdGetArg buf grants argidx false with
  | .error rv => some (.error rv)
  | .ok argbuf => do
    let v ← readNs argbuf 0
    some (.ok (i16 v))

def ipcCmdGetLongArg (grants : ℕ → Bool) (argidx : ℕ) : Option (Except ℤ ℤ) := do
  match ← b.ipcCmdGetArg buf grants argidx false with
  | .error rv => some (.error rv)
  | .ok argbuf => do
    let v ← readNl argbuf 0
    some (.ok (i32 v))

/-- The return value and the buffer; with a length that the buffer does not have, `memmove` leaves it. If a
shrunk buffer is not granted, its bytes have been moved but its length stays; a buffer of 0 bytes need not be
granted. -/
def ipcCmdRemove (grants : ℕ → Bool) : Option (ℤ × Text) := do
  let l ← b.ipcCmdIsComplete buf
  if l = 0 then some (0, buf)
  else if l < 0 ∨ buf.length < l then none
  else if grants (buf.length - l.toNat) = false ∧ buf.length - l.toNat > 0 then
    some (-1, buf.drop l.toNat ++ buf.drop (buf.length - l.toNat))
  else some (1, buf.drop l.toNat)

/-- An argument and its length lie within the first `n` bytes, and the readers stay in the buffer. -/
structure Readable (argidx : ℕ) (n : ℤ) : Prop where
  inside : ∃ p al, extent buf argidx 4 = some (p, al) ∧ ((p + 4 + al : ℕ) : ℤ) ≤ n
  getArg : ∀ grants addzero, (b.ipcCmdGetArg buf grants argidx addzero).isSome
  getArgLen : (b.ipcCmdGetArgLen buf argidx).isSome

/-- The check reads inside of the buffer, and what it finds complete is. -/
def Bounds : Prop :=
  ∃ n, b.ipcCmdIsComplete buf = some n ∧
    (0 < n → 4 ≤ n ∧ n ≤ buf.length ∧ ∀ count, readNs buf 2 = some count →
      ∀ argidx < count, b.Readable buf argidx n)

/-- The sums that the loop compares are addresses, from an offset on. -/
def FitFrom : ℕ → ℕ → Prop
  | 0, _ => True
  | argsleft + 1, p => b.base + p + 4 < 2 ^ b.width ∧ ∀ al, readNl buf p = some al →
      b.base + p + 4 + al < 2 ^ b.width ∧ (p + 4 + al ≤ buf.length → FitFrom argsleft (p + 4 + al))

/-- No sum of the check wraps around. -/
def SumsFit : Prop := ∀ count, readNs buf 2 = some count → b.FitFrom buf count 4

/-- No sum can wrap around at an offset to which arguments can reach, whatever length is there. -/
def Roomy : Prop :=
  ∀ p ≤ b.size, p = 4 ∨ 8 ≤ p → b.base + p + 4 < 2 ^ b.width ∧
    (p + 4 ≤ b.size → b.base + p + 4 + (2 ^ 32 - 1) < 2 ^ b.width)

variable {b : Placement} {buf : Text} {p q n m al argidx : ℕ}

theorem add_eq (h : p + n < 2 ^ b.width) : b.add p n = p + n := Nat.mod_eq_of_lt h

theorem add_le (h : 2 ^ b.width ≤ p + n) : b.add p n ≤ p + n - 2 ^ b.width := by
  rw [add, Nat.mod_eq_sub_mod h]
  exact Nat.mod_le ..

theorem readNlAt_eq (buf : Text) (p : ℕ) : b.readNlAt buf (b.base + p) = readNl buf p := by
  rw [readNlAt, if_pos (Nat.le_add_right ..), Nat.add_sub_cancel_left]

/-! ### Where no sum wraps around -/

/-- The lengths the loop has accepted lead to every argument. -/
theorem extent_of_completeLengthFrom (h : completeLengthFrom buf n p = some m) (hm : 0 < m)
    (hlen : buf.length < 2 ^ 31) (hidx : argidx < n) :
    ∃ q al, extent buf argidx p = some (q, al) ∧ q + 4 + al ≤ m := by
  induction argidx generalizing n p with
  | zero =>
    obtain ⟨n, rfl⟩ := Nat.exists_eq_succ_of_ne_zero hidx.ne'
    obtain ⟨al, hread, hle, h⟩ := completeLengthFrom_succ h hm
    have hpm := le_completeLengthFrom h hm
    rw [Nat.mod_eq_of_lt (by omega)] at hpm
    exact ⟨p, al, by rw [extent, hread, Option.map_some], by omega⟩
  | succ argidx ih =>
    obtain ⟨n, rfl⟩ := Nat.exists_eq_succ_of_ne_zero (Nat.ne_zero_of_lt hidx)
    obtain ⟨al, hread, hle, h⟩ := completeLengthFrom_succ h hm
    rw [Nat.mod_eq_of_lt (by omega), ← Nat.add_assoc] at h
    obtain ⟨q, al', hext, hqm⟩ := ih h (Nat.lt_of_succ_lt_succ hidx)
    exact ⟨q, al', by rw [extent, hread]; exact hext, hqm⟩

theorem le_extent (h : extent buf argidx p = some (q, al)) : p ≤ q := by
  induction argidx generalizing p with
  | zero =>
    obtain ⟨l, -, he⟩ := Option.map_eq_some_iff.mp h
    cases he
    exact le_rfl
  | succ argidx ih =>
    obtain ⟨l, -, h⟩ := Option.bind_eq_some_iff.mp h
    have := ih h
    omega

theorem findArg_of_extent (hlen : buf.length < 2 ^ 31) (h : extent buf argidx p = some (q, al))
    (hle : q + 4 + al ≤ buf.length) : Print3D.findArg buf argidx p = some (q, al) := by
  induction argidx generalizing p with
  | zero =>
    obtain ⟨l, hread, he⟩ := Option.map_eq_some_iff.mp h
    cases he
    rw [Print3D.findArg, hread]
    rfl
  | succ argidx ih =>
    obtain ⟨l, hread, h⟩ := Option.bind_eq_some_iff.mp h
    have hpq := le_extent h
    rw [Print3D.findArg, hread, Option.bind_eq_bind, Option.bind_some, Nat.mod_eq_of_lt (by omega),
      ← Nat.add_assoc]
    exact ih h

theorem le_findArg (h : Print3D.findArg buf argidx p = some (q, al)) : p ≤ q := by
  induction argidx generalizing p with
  | zero =>
    obtain ⟨l, -, he⟩ := Option.bind_eq_some_iff.mp h
    cases he
    exact le_rfl
  | succ argidx ih =>
    obtain ⟨l, -, h⟩ := Option.bind_eq_some_iff.mp h
    exact (Nat.le_add_right ..).trans (ih h)

/-- The walk over addresses is the one over offsets while that stays in the buffer. -/
theorem findArg_eq (hsize : buf.length = b.size) (h : Print3D.findArg buf argidx p = some (q, al))
    (hle : q ≤ buf.length) : b.findArg buf argidx (b.base + p) = some (b.base + q, al) := by
  have htop := b.base_add_size_lt
  induction argidx generalizing p with
  | zero =>
    obtain ⟨l, hread, he⟩ := Option.bind_eq_some_iff.mp h
    cases he
    rw [findArg, readNlAt_eq, hread]
    rfl
  | succ argidx ih =>
    obtain ⟨l, hread, h⟩ := Option.bind_eq_some_iff.mp h
    have hpq := le_findArg h
    rw [findArg, readNlAt_eq, hread, Option.bind_eq_bind, Option.bind_some, add_eq (by omega), Nat.add_assoc]
    exact ih h

theorem ipcCmdGetArg_eq (hsize : buf.length = b.size) (h : Print3D.findArg buf argidx 4 = some (q, al))
    (hle : q + 4 + al ≤ buf.length) (grants : ℕ → Bool) (addzero : Bool) :
    b.ipcCmdGetArg buf grants argidx addzero = Print3D.ipcCmdGetArg grants buf argidx addzero := by
  have htop := b.base_add_size_lt
  have hfind := findArg_eq hsize h (by omega)
  have hread : b.readBytesAt buf (b.add (b.base + q) 4) al = readBytes buf (q + 4) al := by
    rw [add_eq (by omega), readBytesAt, if_pos (by omega), Nat.add_assoc, Nat.add_sub_cancel_left]
  unfold ipcCmdGetArg Print3D.ipcCmdGetArg
  rw [hfind, h]
  simp only [Option.bind_eq_bind, Option.bind_some, hread]

theorem ipcCmdGetArgLen_eq (hsize : buf.length = b.size) (h : Print3D.findArg buf argidx 4 = some (q, al))
    (hle : q ≤ buf.length) : b.ipcCmdGetArgLen buf argidx = Print3D.ipcCmdGetArgLen buf argidx := by
  unfold ipcCmdGetArgLen Print3D.ipcCmdGetArgLen
  rw [findArg_eq hsize h hle, h]
  rfl

/-- Without a sum that wraps around the loop is the one over offsets. -/
theorem isCompleteFrom_eq (hsize : buf.length = b.size) (h : b.FitFrom buf n p) (hp : p ≤ buf.length) :
    b.isCompleteFrom buf n (b.base + p) = (completeLengthFrom buf n p).map (↑) := by
  have hlt := b.size_lt
  have htop := b.base_add_size_lt
  induction n generalizing p with
  | zero =>
    have hdiff : ((b.base + p : ℕ) : ℤ) - b.base = p := by
      push_cast
      omega
    rw [isCompleteFrom, hdiff, i32_eq ⟨by omega, by omega⟩]
    rfl
  | succ n ih =>
    obtain ⟨hfit, h⟩ := h
    rw [isCompleteFrom, completeLengthFrom, add_eq hfit, readNlAt_eq]
    have hcut : b.base + buf.length < b.base + p + 4 ↔ buf.length < p + 4 := by omega
    rw [if_congr hcut rfl rfl]
    split_ifs with hshort
    · rfl
    obtain ⟨al, hread⟩ : ∃ al, readNl buf p = some al := ⟨_, if_pos (not_lt.mp hshort)⟩
    obtain ⟨hfit, h⟩ := h al hread
    have hcut : b.base + buf.length < b.base + p + 4 + al ↔ buf.length < p + 4 + al := by omega
    rw [hread, Option.bind_eq_bind, Option.bind_some, Option.bind_eq_bind, Option.bind_some, add_eq hfit,
      if_congr hcut rfl rfl]
    split_ifs with hshort
    · rfl
    have hle := not_lt.mp hshort
    rw [Nat.mod_eq_of_lt (by omega), add_eq (by omega), Nat.add_assoc, ← Nat.add_assoc p]
    exact ih (h hle) hle

theorem ipcCmdIsComplete_eq (hsize : buf.length = b.size) (h : b.SumsFit buf) :
    b.ipcCmdIsComplete buf = (completeLength buf).map (↑) := by
  rw [ipcCmdIsComplete, completeLength]
  split_ifs with h4
  · rfl
  obtain ⟨count, hcount⟩ : ∃ count, readNs buf 2 = some count := ⟨_, if_pos (by omega)⟩
  rw [hcount]
  exact isCompleteFrom_eq hsize (h count hcount) (not_lt.mp h4)

theorem readable_of_extent (hsize : buf.length = b.size) {count : ℕ} (hcount : readNs buf 2 = some count)
    (hidx : argidx < count) (h : extent buf argidx 4 = some (q, al)) (hle : q + 4 + al ≤ m)
    (hm : m ≤ buf.length) : b.Readable buf argidx m := by
  have hlt := b.size_lt
  have hfind := findArg_of_extent (by omega) h (hle.trans hm)
  refine ⟨⟨q, al, h, by exact_mod_cast hle⟩, fun grants addzero => ?_, ?_⟩
  · have hread : readBytes buf (q + 4) al = some ((buf.drop (q + 4)).take al) := if_pos (by omega)
    rw [ipcCmdGetArg_eq hsize hfind (by omega), Print3D.ipcCmdGetArg, hcount, Option.bind_eq_bind,
      Option.bind_some, if_neg (not_le.mpr hidx), hfind, Option.bind_eq_bind, Option.bind_some]
    dsimp only
    rw [hread]
    split_ifs <;> rfl
  · rw [ipcCmdGetArgLen_eq hsize hfind (by omega), Print3D.ipcCmdGetArgLen, hcount, Option.bind_eq_bind,
      Option.bind_some, if_neg (not_le.mpr hidx), hfind]
    rfl

theorem bounds_of_sumsFit (hsize : buf.length = b.size) (h : b.SumsFit buf) : b.Bounds buf := by
  obtain ⟨m, hm⟩ := Option.isSome_iff_exists.mp (completeLength_isSome buf)
  refine ⟨m, by rw [ipcCmdIsComplete_eq hsize h, hm]; rfl, fun hpos => ?_⟩
  have hmpos : 0 < m := Int.natCast_pos.mp hpos
  have hle := completeLength_le hm
  have hlt := b.size_lt
  obtain ⟨count, hcount, hfrom⟩ := completeLength_succ hm hmpos
  have hge := le_completeLengthFrom hfrom hmpos
  refine ⟨by exact_mod_cast hge, by exact_mod_cast hle, fun count' hcount' argidx hidx => ?_⟩
  obtain rfl : count = count' := Option.some.inj (hcount.symm.trans hcount')
  obtain ⟨q, al, hext, hqm⟩ := extent_of_completeLengthFrom hfrom hmpos (by omega) hidx
  exact readable_of_extent hsize hcount hidx hext hqm hle

/-- Arguments that lie in the buffer have no sums that wrap around. -/
theorem fitFrom_of_inside (hsize : buf.length = b.size) (h : ∀ argidx < n, ∃ q al,
    extent buf argidx p = some (q, al) ∧ q + 4 + al ≤ buf.length) : b.FitFrom buf n p := by
  have htop := b.base_add_size_lt
  induction n generalizing p with
  | zero => trivial
  | succ n ih =>
    obtain ⟨q, al, hext, hle⟩ := h 0 (Nat.succ_pos n)
    obtain ⟨_, hread, he⟩ := Option.map_eq_some_iff.mp hext
    obtain ⟨rfl, rfl⟩ := Prod.mk.inj he
    refine ⟨by omega, fun al' hal' => ?_⟩
    obtain rfl := Option.some.inj (hal'.symm.trans hread)
    refine ⟨by omega, fun _ => ih fun argidx hidx => ?_⟩
    have hnext : extent buf (argidx + 1) p = extent buf argidx (p + 4 + al') := by
      rw [extent, hread]
      rfl
    rw [← hnext]
    exact h (argidx + 1) (Nat.succ_lt_succ hidx)

theorem sumsFit_of_complete (hsize : buf.length = b.size) (h : completeLength buf = some m) (hm : 0 < m) :
    b.SumsFit buf := by
  have hlt := b.size_lt
  have hle := completeLength_le h
  obtain ⟨count, hcount, hfrom⟩ := completeLength_succ h hm
  intro count' hcount'
  obtain rfl : count = count' := Option.some.inj (hcount.symm.trans hcount')
  refine fitFrom_of_inside hsize fun argidx hidx => ?_
  obtain ⟨q, al, hext, hqm⟩ := extent_of_completeLengthFrom hfrom hm (by omega) hidx
  exact ⟨q, al, hext, by omega⟩

/-! ### Where a sum can wrap around -/

theorem fitFrom_of_roomy (hsize : buf.length = b.size) (h : b.Roomy) (hp : p ≤ buf.length)
    (hoffset : p = 4 ∨ 8 ≤ p) : b.FitFrom buf n p := by
  induction n generalizing p with
  | zero => trivial
  | succ n ih =>
    obtain ⟨hfit, hlengths⟩ := h p (hsize ▸ hp) hoffset
    refine ⟨hfit, fun al hread => ?_⟩
    obtain ⟨hle, rfl⟩ := readNl_eq_some hread
    have hal := ofBigEndian_lt ((buf.drop p).take 4)
    rw [List.length_take, List.length_drop, min_eq_left (by omega)] at hal
    have := hlengths (hsize ▸ hle)
    exact ⟨by omega, fun hnext => ih hnext (by omega)⟩

theorem sumsFit_of_roomy (hsize : buf.length = b.size) (h : b.Roomy) : b.SumsFit buf := by
  intro count hcount
  have hlen : 4 ≤ buf.length := by
    unfold readNs at hcount
    split_ifs at hcount with h4
    exact h4
  exact fitFrom_of_roomy hsize h hlen (.inl rfl)

/-- Where no sum can wrap around, commands are the frames of any buffer. -/
theorem ipcCmdIsComplete_of_roomy (hsize : buf.length = b.size) (h : b.Roomy) :
    b.ipcCmdIsComplete buf = some (commandFramer.size buf : ℤ) := by
  rw [ipcCmdIsComplete_eq hsize (sumsFit_of_roomy hsize h), completeLength_eq]
  rfl

theorem isCompleteFrom_field {pre a r : Text} (hsize : (pre ++ field 4 a ++ r).length = b.size) (n : ℕ) :
    b.isCompleteFrom (pre ++ field 4 a ++ r) (n + 1) (b.base + pre.length) =
      b.isCompleteFrom (pre ++ field 4 a ++ r) n (b.base + (pre ++ field 4 a).length) := by
  have hlt := b.size_lt
  have htop := b.base_add_size_lt
  have hlen : (pre ++ field 4 a).length = pre.length + 4 + a.length := by
    rw [List.length_append, field_length, Nat.add_assoc]
  have hle : (pre ++ field 4 a).length ≤ b.size := by
    rw [← hsize]
    exact (List.prefix_append _ r).length_le
  rw [isCompleteFrom, readNlAt_eq, readNl_field pre (by omega), Option.bind_eq_bind, Option.bind_some, hsize,
    add_eq (by omega), add_eq (by omega), if_neg (by omega), if_neg (by omega), Nat.mod_eq_of_lt (by omega),
    add_eq (by omega), hlen]
  congr 1
  omega

/-- A message whose arguments reach up to an offset, except for the last one: its length, which is there,
is as large as it can be. -/
theorem exists_reaching (hp : p ≤ b.size) (hoffset : p = 4 ∨ 8 ≤ p) :
    ∃ buf k, buf.length = b.size ∧ readNs buf 2 = some (k + 1) ∧
      b.isCompleteFrom buf (k + 1) (b.base + 4) = b.isCompleteFrom buf 1 (b.base + p) ∧
      extent buf k 4 = extent buf 0 p ∧ (p + 4 ≤ b.size → readNl buf p = some (2 ^ 32 - 1)) := by
  have hlast : ∀ pre : Text, pre.length = p → p + 4 ≤ b.size →
      readNl (pre ++ List.replicate (b.size - p) 0xFF) p = some (2 ^ 32 - 1) := by
    rintro pre rfl hle
    have hlen : pre.length + 4 ≤ (pre ++ List.replicate (b.size - pre.length) (0xFF : UInt8)).length := by
      rw [List.length_append, List.length_replicate]
      omega
    rw [readNl, if_pos hlen, List.drop_left, List.take_replicate, min_eq_left (by omega)]
    rfl
  rcases hoffset with rfl | h8
  · refine ⟨bigEndian 2 0 ++ bigEndian 2 1 ++ List.replicate (b.size - 4) 0xFF, 0, ?_, ?_, rfl, rfl, ?_⟩
    · simp only [List.length_append, bigEndian_length, List.length_replicate]
      omega
    · exact readNs_append (bigEndian 2 0) 1 _
    · exact hlast _ rfl
  · have hfield : (field 4 (List.replicate (p - 8) (0 : UInt8))).length = p - 4 := by
      rw [field_length, List.length_replicate]
      omega
    set pre := bigEndian 2 0 ++ bigEndian 2 2 with hpre
    set a := List.replicate (p - 8) (0 : UInt8)
    set r := List.replicate (b.size - p) (0xFF : UInt8)
    have hreach : (pre ++ field 4 a).length = p := by
      rw [List.length_append, hfield, hpre, List.length_append, bigEndian_length, bigEndian_length]
      omega
    have hsize : (pre ++ field 4 a ++ r).length = b.size := by
      rw [List.length_append, hreach, List.length_replicate]
      omega
    refine ⟨pre ++ field 4 a ++ r, 1, hsize, ?_, ?_, ?_, hlast _ hreach⟩
    · have hcount := readNs_append (bigEndian 2 0) 2 (field 4 a ++ r)
      rwa [← List.append_assoc] at hcount
    · have hpass := isCompleteFrom_field hsize 1
      rwa [hreach] at hpass
    · have hlt := b.size_lt
      have hread : readNl (pre ++ field 4 a ++ r) 4 = some a.length := readNl_field pre (by
        rw [List.length_replicate]
        omega) r
      have hnext : 4 + 4 + a.length = p := by
        rw [List.length_replicate]
        omega
      have hstep : extent (pre ++ field 4 a ++ r) 1 4 = (readNl (pre ++ field 4 a ++ r) 4).bind fun al =>
          extent (pre ++ field 4 a ++ r) 0 (4 + 4 + al) := rfl
      rw [hstep, hread, Option.bind_some, hnext]

theorem roomy_of_bounds (h : ∀ buf, buf.length = b.size → b.Bounds buf) : b.Roomy := by
  intro p hp hoffset
  have hlt := b.size_lt
  have htop := b.base_add_size_lt
  have hwidth : 2 ^ 32 ≤ 2 ^ b.width := Nat.pow_le_pow_right Nat.two_pos b.width_ge
  obtain ⟨buf, k, hsize, hcount, hloop, hext, hlast⟩ := exists_reaching hp hoffset
  obtain ⟨n, hn, hbounds⟩ := h buf hsize
  rw [ipcCmdIsComplete, if_neg (by omega), hcount, Option.bind_eq_bind, Option.bind_some, hloop,
    isCompleteFrom, readNlAt_eq, hsize] at hn
  by_cases hfit : b.base + p + 4 < 2 ^ b.width
  · refine ⟨hfit, fun hle => ?_⟩
    by_contra hwrap
    -- the length is added to an address below it, and accepted
    have hsum := add_le (b := b) (p := b.base + p + 4) (n := 2 ^ 32 - 1) (not_lt.mp hwrap)
    rw [add_eq hfit, if_neg (by omega), hlast hle, Option.bind_eq_bind, Option.bind_some, if_neg (by omega),
      isCompleteFrom, show (4 + (2 ^ 32 - 1)) % 2 ^ 32 = 3 from rfl, add_eq (by omega)] at hn
    have hdiff : ((b.base + p + 3 : ℕ) : ℤ) - b.base = p + 3 := by
      push_cast
      omega
    rw [hdiff, i32_eq ⟨by omega, by omega⟩] at hn
    obtain rfl := Option.some.inj hn
    obtain ⟨-, -, hreadable⟩ := hbounds (by omega)
    obtain ⟨⟨q, al, hq, hinside⟩, -, -⟩ := hreadable _ hcount k (Nat.lt_succ_self k)
    rw [hext, extent, hlast hle] at hq
    cases hq
    push_cast at hinside
    omega
  · -- the address behind the length is below the buffer, so that the length is read, and not there
    have hsum := add_le (b := b) (not_lt.mp hfit)
    have hread : readNl buf p = none := if_neg (by omega)
    rw [if_neg (by omega), hread] at hn
    cases hn

/-- What is found complete, and is, has no sum that wraps around. -/
theorem sumsFit_of_bounds (hsize : buf.length = b.size) {n : ℤ} (hn : b.ipcCmdIsComplete buf = some n)
    (hpos : 0 < n) (h : b.Bounds buf) : b.SumsFit buf := by
  obtain ⟨n', hn', hbounds⟩ := h
  obtain rfl := Option.some.inj (hn.symm.trans hn')
  obtain ⟨-, hle, hreadable⟩ := hbounds hpos
  intro count hcount
  refine fitFrom_of_inside hsize fun argidx hidx => ?_
  obtain ⟨q, al, hext, hinside⟩ := (hreadable count hcount argidx hidx).inside
  exact ⟨q, al, hext, by omega⟩

/-- A buffer in which no sum of the check wraps around is safe, and no other one that is found complete is; and
all buffers at a place are if and only if no sum can wrap around there. -/
theorem bounds_iff (b : Placement) :
    (∀ buf, buf.length = b.size → (b.SumsFit buf → b.Bounds buf) ∧
      ∀ n, b.ipcCmdIsComplete buf = some n → 0 < n → (b.Bounds buf ↔ b.SumsFit buf)) ∧
      ((∀ buf, buf.length = b.size → b.Bounds buf) ↔ b.Roomy) := by
  constructor
  · intro buf hsize
    have hfit : b.SumsFit buf → b.Bounds buf := bounds_of_sumsFit hsize
    exact ⟨hfit, fun n hn hpos => ⟨sumsFit_of_bounds hsize hn hpos, hfit⟩⟩
  · constructor
    · exact roomy_of_bounds
    · intro h buf hsize
      exact bounds_of_sumsFit hsize (sumsFit_of_roomy hsize h)

/-- Below the last 4 GiB of the address space nothing can wrap around. -/
theorem roomy_of_le (h : b.base + b.size + 2 ^ 32 ≤ 2 ^ b.width) : b.Roomy := by
  intro p hp _
  constructor
  · omega
  · intro hle
    omega

/-- With addresses of 32 bits a length can wrap around wherever a buffer has room for one. -/
theorem not_roomy_of_width (hwidth : b.width = 32) (hsize : 8 ≤ b.size) : ¬ b.Roomy := by
  intro h
  have hwrap := (h 4 (by omega) (.inl rfl)).2 hsize
  rw [hwidth] at hwrap
  omega

def onRouter : Placement where
  width := 32
  base := 0x10000
  size := 8
  width_ge := le_rfl
  size_lt := by decide
  base_add_size_lt := by decide

/-- A test whose argument says that it is four bytes shorter than the address space: the message is
complete with four bytes. -/
theorem not_bounds_router : ¬ ∀ (b : Placement) buf, buf.length = b.size → b.Bounds buf := by
  intro h
  let buf : Text := [0, 0x10, 0, 1, 0xFF, 0xFF, 0xFF, 0xFC]
  obtain ⟨n, hn, hbounds⟩ := h onRouter buf rfl
  have hfour : onRouter.ipcCmdIsComplete buf = some 4 := by decide
  obtain rfl := Option.some.inj (hn.symm.trans hfour)
  obtain ⟨-, -, hreadable⟩ := hbounds (by decide)
  obtain ⟨p, al, hext, hinside⟩ := (hreadable 1 (by decide) 0 (by decide)).inside
  cases hext
  exact absurd hinside (by decide)

end Placement
end Print3D
