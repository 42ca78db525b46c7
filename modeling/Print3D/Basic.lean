import Print3D.Library.FixedWidth
import Print3D.Library.Lines
import Print3D.Library.Transition

/-! Bytes, texts and machine integers shared by all parts of the model. A function
that can end in undefined behaviour, an escaping exception or the end of the process
returns an `Option`, with `none` for these outcomes. -/
namespace Print3D

/-- A `std::string`, or a stretch of memory: its bytes. -/
abbrev Text := List UInt8

def newline : UInt8 := 10
def carriageReturn : UInt8 := 13
def semicolon : UInt8 := 59
def atSign : UInt8 := 64

/-- The bytes of a literal of the source. -/
def ascii (s : String) : Text := s.toList.map fun c => c.toNat.toUInt8

/-- The string a `char*` to these bytes stands for: everything before the first NUL. -/
def cString (s : Text) : Text := s.takeWhile (· ≠ 0)

/-- Why a computation does not return: the process has ended in `requestExit`, its behaviour is
undefined (or an exception escapes), or the bound on a loop was too small. -/
inductive Halt
  | exited
  | undefined
  | unfinished
  deriving DecidableEq, Repr

/-- The bounds on the loops of a computation suffice. -/
def Finishes {α : Type} (x : Except Halt α) : Prop := x ≠ .error .unfinished

/-- A value that is there wherever the behaviour is defined. -/
def defined {α : Type} : Option α → Except Halt α
  | some a => .ok a
  | none => .error .undefined

def i32 (x : ℤ) : ℤ := FixedWidth.wrap 32 x

def i16 (x : ℤ) : ℤ := FixedWidth.wrap 16 x

def IsInt32 (x : ℤ) : Prop := -(2 ^ 31) ≤ x ∧ x < 2 ^ 31

instance (x : ℤ) : Decidable (IsInt32 x) := inferInstanceAs (Decidable (_ ∧ _))

theorem defined_eq_ok {α : Type} {x : Option α} {a : α} : defined x = .ok a ↔ x = some a := by
  cases x <;> simp [defined]

theorem finishes_ok {α : Type} (a : α) : Finishes (.ok a) := nofun

theorem finishes_defined {α : Type} (x : Option α) : Finishes (defined x) := by
  cases x <;> exact nofun

theorem Finishes.bind {α β : Type} {x : Except Halt α} {f : α → Except Halt β} (hx : Finishes x)
    (hf : ∀ a, x = .ok a → Finishes (f a)) : Finishes (x >>= f) := by
  cases x with
  | error e => exact fun h => hx (by cases h; rfl)
  | ok a => exact hf a rfl

theorem i32_eq {x : ℤ} (h : IsInt32 x) : i32 x = x := FixedWidth.wrap_of_bounds h.1 h.2

theorem isInt32_i32 (x : ℤ) : IsInt32 (i32 x) := FixedWidth.wrap_bounds 31 x

/-- A count that does not fit comes out negative. -/
theorem i32_neg {x : ℤ} (hlo : 2 ^ 31 ≤ x) (hhi : x < 2 ^ 32) : i32 x < 0 := by
  have hwrap : i32 x = i32 (x - 2 ^ 32) := by
    unfold i32
    rw [← FixedWidth.wrap_emod 32 x, ← FixedWidth.wrap_emod 32 (x - 2 ^ 32), Int.sub_emod_right]
  rw [hwrap, i32_eq ⟨by omega, by omega⟩]
  omega

theorem i32_zero : i32 0 = 0 := i32_eq (by norm_num [IsInt32])

@[simp] theorem i32_i32_add (x y : ℤ) : i32 (i32 x + y) = i32 (x + y) :=
  FixedWidth.wrap_wrap_add 32 x y

@[simp] theorem i32_i32_sub (x y : ℤ) : i32 (i32 x - y) = i32 (x - y) :=
  FixedWidth.wrap_wrap_sub 32 x y

theorem cString_of_notMem {s : Text} (h : 0 ∉ s) : cString s = s := Lines.takeWhile_ne h

theorem cString_append_cons {s : Text} (h : 0 ∉ s) (t : Text) : cString (s ++ 0 :: t) = s :=
  Lines.takeWhile_ne_append_cons h t

theorem cString_append_zero_cons (s t : Text) : cString (s ++ 0 :: t) = cString s := by
  unfold cString
  induction s with
  | nil => simp
  | cons c s ih =>
    by_cases hc : c = 0
    · simp [hc]
    · simpa [hc] using ih

theorem cString_append_zero (s : Text) : cString (s ++ [0]) = cString s := cString_append_zero_cons s []

theorem exists_cString_append {s : Text} (h : (cString s).length < s.length) :
    ∃ rest, s = cString s ++ 0 :: rest := by
  have hsplit : cString s ++ s.dropWhile (· ≠ 0) = s := List.takeWhile_append_dropWhile
  cases hd : s.dropWhile (· ≠ 0) with
  | nil =>
    rw [hd, List.append_nil] at hsplit
    exact absurd (congrArg List.length hsplit) h.ne
  | cons c rest =>
    have hc := List.head?_dropWhile_not (· ≠ 0) s
    rw [hd] at hsplit hc
    obtain rfl : c = 0 := by simpa using hc
    exact ⟨rest, hsplit.symm⟩

theorem zero_notMem_cString (s : Text) : 0 ∉ cString s := fun h => by
  simpa using List.mem_takeWhile_imp h

end Print3D
