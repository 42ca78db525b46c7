import Print3D.Ipc.Addresses

/-! Where an allocator can put buffers. -/
namespace Print3D

/-- The memory for buffers: whole pages, from the first address on. -/
structure Memory where
  width : ℕ
  pages : ℕ
  width_ge : 32 ≤ width
  pages_pos : 0 < pages
  pages_lt : 4096 * pages < 2 ^ width

namespace Memory

variable (mem : Memory)

/-- The address behind the last page. -/
def top : ℕ := 4096 * mem.pages

/-- There is room for a buffer of this size, which is an `int`. -/
def Holds (size : ℕ) : Prop := size < 2 ^ 31 ∧ size ≤ mem.top

def place (base size : ℕ) : Option Placement :=
  if h : size < 2 ^ 31 ∧ base + size ≤ mem.top then
    some {
      width := mem.width
      base := base
      size := size
      width_ge := mem.width_ge
      size_lt := h.1
      base_add_size_lt := h.2.trans_lt mem.pages_lt }
  else none

/-- The allocator has an address for every buffer that there is room for, by its size. -/
def Houses (home : ℕ → ℕ) : Prop := ∀ size, mem.Holds size → home size + size ≤ mem.top

/-- The addresses go on for 4 GiB behind the memory. -/
def Roomy : Prop := mem.top + 2 ^ 32 ≤ 2 ^ mem.width

variable {mem} {b : Placement} {home : ℕ → ℕ} {base size : ℕ} {buf : Text}

theorem place_isSome (hhome : mem.Houses home) (h : mem.Holds size) :
    ∃ b, mem.place (home size) size = some b :=
  ⟨_, dif_pos ⟨h.1, hhome size h⟩⟩

theorem place_eq_some (h : mem.place base size = some b) :
    size < 2 ^ 31 ∧ base + size ≤ mem.top ∧ b.width = mem.width ∧ b.base = base ∧ b.size = size := by
  unfold place at h
  split_ifs at h with hplace
  obtain rfl := Option.some.inj h
  exact ⟨hplace.1, hplace.2, rfl, rfl, rfl⟩

theorem roomy_place (hroomy : mem.Roomy) (h : mem.place base size = some b) : b.Roomy := by
  obtain ⟨-, htop, hwidth, hbase, hsize⟩ := place_eq_some h
  refine Placement.roomy_of_le ?_
  rw [hwidth, hbase, hsize]
  exact (Nat.add_le_add_right htop _).trans hroomy

/-- What the check finds in a buffer, wherever in a roomy memory that lies. -/
theorem isComplete_place (hroomy : mem.Roomy) (h : mem.place base buf.length = some b) :
    b.ipcCmdIsComplete buf = some (commandFramer.size buf : ℤ) :=
  Placement.ipcCmdIsComplete_of_roomy (place_eq_some h).2.2.2.2.symm (roomy_place hroomy h)

theorem remove_place {grants : ℕ → Bool} (hgrants : ∀ n, 0 < n → grants n = true) (hroomy : mem.Roomy)
    (h : mem.place base buf.length = some b) (hn : commandFramer.size buf ≠ 0) :
    b.ipcCmdRemove buf grants = some (1, buf.drop (commandFramer.size buf)) := by
  have hle := commandFramer.size_le buf
  rw [Placement.ipcCmdRemove, isComplete_place hroomy h, Option.bind_eq_bind, Option.bind_some,
    if_neg (by omega), if_neg (by omega), Int.toNat_natCast, if_neg]
  rintro ⟨hfalse, hpos⟩
  rw [hgrants _ hpos] at hfalse
  cases hfalse

/-- The memory of a process with addresses of 64 bits, of which 47 are its own. -/
def desktop : Memory where
  width := 64
  pages := 2 ^ 35
  width_ge := by decide
  pages_pos := by decide
  pages_lt := by decide

/-- The memory of a process on a router: the lower half of the addresses. -/
def router : Memory where
  width := 32
  pages := 2 ^ 19
  width_ge := by decide
  pages_pos := by decide
  pages_lt := by decide

theorem roomy_desktop : desktop.Roomy := by
  change 4096 * 2 ^ 35 + 2 ^ 32 ≤ 2 ^ 64
  decide

theorem not_roomy_router : ¬ router.Roomy := by
  change ¬ 4096 * 2 ^ 19 + 2 ^ 32 ≤ 2 ^ 32
  decide

theorem houses_desktop {base : ℕ} (hbase : base < 2 ^ 32) : desktop.Houses fun _ => base := by
  intro size hholds
  have hsize := hholds.1
  change base + size ≤ 4096 * 2 ^ 35
  omega

end Memory
end Print3D
