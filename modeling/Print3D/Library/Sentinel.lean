import Mathlib.Tactic

/-! Arrays of pointers that end with a null: what a loop finds that goes on up to this cell. -/
namespace Sentinel

/-- What a cell holds is unspecified until it is written. -/
inductive Cell (α : Type*)
  | unspecified
  | null
  | item (a : α)
  deriving DecidableEq, Repr

variable {α : Type*} {cells unused : List (Cell α)} {items : List α}

/-- The items, a null behind them, and perhaps more cells. -/
def Terminated (cells : List (Cell α)) (items : List α) : Prop :=
  ∃ unused, cells = items.map .item ++ .null :: unused

/-- The loop up to a null; `none` where it comes to a cell that has not been written, or to the end. -/
def scan : List (Cell α) → Option (List α)
  | .null :: _ => some []
  | .item a :: cells => (scan cells).map (a :: ·)
  | _ => none

/-- A loop stops where the array is terminated, and only there. -/
theorem scan_eq_some_iff : scan cells = some items ↔ Terminated cells items := by
  induction cells generalizing items with
  | nil =>
    refine iff_of_false nofun ?_
    rintro ⟨unused, h⟩
    exact List.append_ne_nil_of_right_ne_nil _ (List.cons_ne_nil _ _) h.symm
  | cons c cells ih =>
    cases c with
    | unspecified =>
      refine iff_of_false nofun ?_
      rintro ⟨unused, h⟩
      cases items <;> cases h
    | null =>
      rw [scan]
      constructor
      · intro h
        cases h
        exact ⟨cells, rfl⟩
      · rintro ⟨unused, h⟩
        cases items with
        | nil => rfl
        | cons a items => cases h
    | item a =>
      rw [scan, Option.map_eq_some_iff]
      constructor
      · rintro ⟨rest, hrest, rfl⟩
        obtain ⟨unused, h⟩ := ih.mp hrest
        exact ⟨unused, congrArg (Cell.item a :: ·) h⟩
      · rintro ⟨unused, h⟩
        cases items with
        | nil => cases h
        | cons b items =>
          rw [List.map_cons, List.cons_append, List.cons.injEq] at h
          obtain ⟨hab, hcells⟩ := h
          cases hab
          exact ⟨items, ih.mpr ⟨unused, hcells⟩, rfl⟩

/-- An array that is full up to the number of its items is terminated if it holds these and goes on
with a null. -/
theorem terminated_append_iff {written : List (Cell α)} (hlen : written.length = items.length) :
    Terminated (written ++ unused) items ↔ written = items.map .item ∧ unused.head? = some .null := by
  constructor
  · rintro ⟨rest, h⟩
    obtain ⟨hwritten, hunused⟩ := List.append_inj h (by rw [List.length_map, hlen])
    rw [hunused]
    exact ⟨hwritten, rfl⟩
  · rintro ⟨hwritten, hnull⟩
    obtain ⟨rest, hrest⟩ := List.head?_eq_some_iff.mp hnull
    rw [hwritten, hrest]
    exact ⟨rest, rfl⟩

end Sentinel
