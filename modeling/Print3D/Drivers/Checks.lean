import Print3D.Drivers.Accounting
import Print3D.Drivers.Sequence

/-! Where the metadata checks of `append` fall short: the message about a failed one reads the
metadata of the call even if there is none, and a number is held against the total only
once a total is recorded. -/
namespace Print3D
open GCodeBuffer

namespace MetaData

variable {own m : MetaData}

def IsBlank (m : MetaData) : Prop := m.seqNumber < 0 ∧ m.seqTotal < 0 ∧ m.source = none

/-- The number is below the total where both are given. -/
def Bounded (m : MetaData) : Prop := 0 ≤ m.seqNumber → 0 ≤ m.seqTotal → m.seqNumber + 1 ≤ m.seqTotal

/-- The answer to a call without metadata when a recorded field requires it. -/
def missing? (own : MetaData) : Option GcodeSetResult :=
  if 0 ≤ own.seqNumber then some .seqNumMissing
  else if 0 ≤ own.seqTotal then some .seqTtlMissing
  else if own.source ≠ none then some .srcMissing
  else none

theorem isBlank_default : IsBlank {} := by
  refine ⟨?_, ?_, rfl⟩ <;> decide

theorem IsBlank.missing? (h : own.IsBlank) : own.missing? = none := by
  rw [MetaData.missing?, if_neg (not_le.mpr h.1), if_neg (not_le.mpr h.2.1), if_neg (not_not.mpr h.2.2)]

/-- What is recorded stays given: a field is recorded if and only if it was or comes now. -/
theorem isBlank_record (hf : Follows own m) : (own.record m).IsBlank ↔ own.IsBlank ∧ m.IsBlank := by
  constructor
  · rintro ⟨hnumber, htotal, hsource⟩
    change m.seqNumber < 0 at hnumber
    change m.seqTotal < 0 at htotal
    change (if own.source = none then m.source else own.source) = none at hsource
    have hown : own.source = none := by
      by_contra hne
      rw [if_neg hne] at hsource
      exact hne hsource
    rw [if_pos hown] at hsource
    refine ⟨⟨?_, ?_, hown⟩, hnumber, htotal, hsource⟩
    · by_contra hge
      exact absurd (hf.next (not_lt.mp hge)).1 (not_le.mpr hnumber)
    · by_contra hge
      have heq := hf.total (not_lt.mp hge)
      omega
  · rintro ⟨hown, hm⟩
    refine ⟨hm.1, hm.2.1, ?_⟩
    change (if own.source = none then m.source else own.source) = none
    rw [if_pos hown.2.2, hm.2.2]

end MetaData

/-! ### Calls without metadata -/

namespace GCodeBuffer

variable {g g' : GCodeBuffer} {gcode : Text} {totalLines : ℤ} {metaData : Option MetaData}

theorem sanity_none_eq_ok : g.sanity none = .ok ↔ g.md.IsBlank := by
  unfold sanity checkNumber checkTotal checkSource MetaData.IsBlank
  by_cases hnumber : g.md.seqNumber > -1
  · simp [hnumber]
    omega
  · by_cases htotal : g.md.seqTotal > -1
    · simp [hnumber, htotal]
      omega
    · have hn : g.md.seqNumber < 0 := by omega
      have ht : g.md.seqTotal < 0 := by omega
      cases g.md.source <;> simp [hnumber, htotal, hn, ht]

theorem append_none_isSome : (g.append gcode totalLines none).isSome ↔ g.md.IsBlank := by
  rw [← sanity_none_eq_ok, append]
  split_ifs <;> simp_all

/-- `append` returns, and answers a call without metadata as a recorded field requires. -/
def Answers (g : GCodeBuffer) (gcode : Text) (totalLines : ℤ) (metaData : Option MetaData) : Prop :=
  ∃ r g', g.append gcode totalLines metaData = some (r, g') ∧
    (metaData = none → ∀ e, g.md.missing? = some e → r = e)

theorem answers_iff_isBlank : g.Answers gcode totalLines metaData ↔ (metaData = none → g.md.IsBlank) := by
  constructor
  · rintro ⟨r, g', ha, -⟩ rfl
    exact append_none_isSome.mp (Option.isSome_of_eq_some ha)
  · intro hblank
    cases metaData with
    | none =>
      obtain ⟨⟨r, g'⟩, ha⟩ := Option.isSome_iff_exists.mp (append_none_isSome.mpr (hblank rfl))
      refine ⟨r, g', ha, fun _ e he => ?_⟩
      rw [(hblank rfl).missing?] at he
      cases he
    | some m =>
      obtain ⟨⟨r, g'⟩, ha⟩ := Option.isSome_iff_exists.mp (g.append_isSome gcode totalLines m)
      exact ⟨r, g', ha, nofun⟩

theorem append_md {r : GcodeSetResult} (ha : g.append gcode totalLines metaData = some (r, g')) :
    g'.md = if g.Accepts gcode metaData then metaData.elim g.md g.md.record else g.md := by
  rcases append_cases ha with ⟨-, hacc, rfl⟩ | ⟨-, hacc, rfl⟩
  · rw [if_pos hacc, foldl_appendChunk_md]
    cases metaData with
    | none =>
      unfold housekeeping
      dsimp only
      split_ifs <;> rfl
    | some m => exact housekeeping_md totalLines
  · rw [if_neg hacc]

end GCodeBuffer

/-- The metadata of the chunks accepted since the last clear, after a call on `g`. -/
def BufferCall.given (g : GCodeBuffer) (ms : List MetaData) : BufferCall → List MetaData
  | set gcode _ metaData => if g.clear.Accepts gcode metaData then metaData.toList else []
  | append gcode _ metaData => if g.Accepts gcode metaData then ms ++ metaData.toList else ms
  | clear => []
  | _ => ms

/-- A buffer and the metadata given to it since its last clear. -/
structure GivenBuffer where
  buffer : GCodeBuffer
  given : List MetaData := []
  deriving DecidableEq

namespace GivenBuffer

variable {t t' : GivenBuffer} {g' : GCodeBuffer} {c : BufferCall}

def init (keep : Bool) : GivenBuffer := ⟨{ keepGpxMacroComments := keep }, []⟩

def Step (t : GivenBuffer) (c : BufferCall) (t' : GivenBuffer) : Prop :=
  c.exec t.buffer = some t'.buffer ∧ t'.given = c.given t.buffer t.given

/-- The buffer has recorded a field if and only if an accepted chunk gave one. -/
def Remembers (t : GivenBuffer) : Prop := t.buffer.md.IsBlank ↔ ∀ m ∈ t.given, m.IsBlank

theorem remembers_append (h : t.Remembers) {gcode : Text} {totalLines : ℤ} {metaData : Option MetaData}
    {r : GcodeSetResult} (ha : t.buffer.append gcode totalLines metaData = some (r, g')) :
    Remembers ⟨g', (BufferCall.append gcode totalLines metaData).given t.buffer t.given⟩ := by
  unfold Remembers
  dsimp only [BufferCall.given]
  rw [append_md ha]
  by_cases hacc : t.buffer.Accepts gcode metaData
  · rw [if_pos hacc, if_pos hacc, List.forall_mem_append, ← h.eq]
    cases metaData with
    | none => simp
    | some m =>
      simp only [Option.elim_some, Option.toList_some, List.forall_mem_singleton]
      exact MetaData.isBlank_record (follows_of_sanity hacc.1)
  · rwa [if_neg hacc, if_neg hacc]

theorem remembers_clear (g : GCodeBuffer) : Remembers ⟨g.clear, []⟩ :=
  iff_of_true MetaData.isBlank_default fun _ hm => absurd hm List.not_mem_nil

theorem remembers_step (t : GivenBuffer) (c : BufferCall) (t' : GivenBuffer) (h : t.Remembers)
    (hstep : t.Step c t') : t'.Remembers := by
  obtain ⟨g', given'⟩ := t'
  obtain ⟨hexec, rfl⟩ := hstep
  cases c with
  | set gcode totalLines metaData =>
    obtain ⟨r, ha⟩ := BufferCall.exec_set.mp hexec
    exact remembers_append (remembers_clear t.buffer) ha
  | append gcode totalLines metaData =>
    obtain ⟨r, ha⟩ := BufferCall.exec_append.mp hexec
    exact remembers_append h ha
  | clear =>
    cases hexec
    exact remembers_clear t.buffer
  | setCurrentLine line =>
    cases hexec
    exact h
  | setKeepGpxMacroComments keep =>
    cases hexec
    exact h
  | eraseLine amount =>
    obtain ⟨n, he⟩ := BufferCall.exec_eraseLine.mp hexec
    unfold Remembers
    dsimp only [BufferCall.given]
    rw [eraseLine_md he]
    exact h

theorem remembers_run {keep : Bool} {calls : List BufferCall}
    (h : Transition.Run Step (init keep) calls t) : t.Remembers :=
  h.invariant Remembers remembers_step (remembers_clear (init keep).buffer)

def numbered : GivenBuffer where
  buffer :=
    { buckets := [ascii "G28\n"]
      bufferedLines := 1
      totalLinesSent := 1
      bufferSize := 4
      md := { seqNumber := 0, seqTotal := 2 } }
  given := [{ seqNumber := 0, seqTotal := 2 }]

theorem step_numbered :
    (init false).Step (.append (ascii "G28\n") (-1) (some { seqNumber := 0, seqTotal := 2 })) numbered :=
  ⟨by decide, by decide⟩

/-- A call without metadata after a numbered chunk ends the program. -/
theorem append_unanswered :
    ¬ ∀ (keep : Bool) (calls : List BufferCall) (t : GivenBuffer),
      Transition.Run Step (init keep) calls t → ∀ gcode totalLines metaData,
        t.buffer.Answers gcode totalLines metaData := by
  intro h
  have hrun := Transition.Run.cons step_numbered (.nil numbered)
  have hblank := answers_iff_isBlank.mp (h false _ _ hrun (ascii "G1\n") (-1) none) rfl
  exact absurd hblank.1 (by decide)

/-- In every reachable state `append` returns, and answers a call without metadata as required,
unless that call has no metadata and a chunk accepted since the last clear has given some. -/
theorem answers_iff {keep : Bool} {calls : List BufferCall}
    (hrun : Transition.Run Step (init keep) calls t) (gcode : Text) (totalLines : ℤ)
    (metaData : Option MetaData) :
    t.buffer.Answers gcode totalLines metaData ↔ (metaData = none → ∀ m ∈ t.given, m.IsBlank) := by
  have hremembers := remembers_run hrun
  rw [answers_iff_isBlank]
  exact forall_congr' fun _ => hremembers

theorem answers_iff_numbered :
    numbered.buffer.Answers (ascii "G1\n") (-1) none ↔
      ((none : Option MetaData) = none → ∀ m ∈ numbered.given, m.IsBlank) :=
  answers_iff (.cons step_numbered (.nil numbered)) (ascii "G1\n") (-1) none

end GivenBuffer
/-! ### Numbers and totals -/

namespace BufferCall

variable {g g' : GCodeBuffer} {c : BufferCall}

/-- What the checks of the buffer leave to the caller: a chunk that first gives the total, or has the
largest number there is, has to be in bounds by itself. -/
def BoundsTotal (g : GCodeBuffer) : BufferCall → Prop
  | set gcode _ metaData => ∀ m, metaData = some m → g.clear.Accepts gcode metaData → m.Bounded
  | append gcode _ metaData => ∀ m, metaData = some m → g.Accepts gcode metaData →
      g.md.seqTotal < 0 ∨ m.seqNumber = 2 ^ 31 - 1 → m.Bounded
  | _ => True

theorem seqNumber_lt {own m : MetaData} (hf : Follows own m) :
    m.seqNumber < 2 ^ 31 := by
  by_cases hnumber : 0 ≤ own.seqNumber
  · rw [(hf.next hnumber).2]
    exact (isInt32_i32 _).2
  · have hfirst := hf.first (not_le.mp hnumber)
    omega

/-- A recorded total bounds the number of an accepted chunk, unless the next number wraps around. -/
theorem bounded_of_checkTotal {own m : MetaData} (h : checkTotal own (some m) = .ok)
    (htotal : 0 ≤ own.seqTotal) (hlt : m.seqNumber < 2 ^ 31 - 1) : m.Bounded := by
  intro hnumber _
  unfold checkTotal at h
  dsimp only at h
  rw [if_pos (by omega)] at h
  split_ifs at h with hgiven hsame hbound
  rw [i32_eq ⟨by omega, by omega⟩] at hbound
  exact not_lt.mp hbound

theorem bounded_append (hb : g.md.Bounded) {gcode : Text} {totalLines : ℤ} {metaData : Option MetaData}
    {r : GcodeSetResult} (ha : g.append gcode totalLines metaData = some (r, g')) :
    g'.md.Bounded ↔ BoundsTotal g (.append gcode totalLines metaData) := by
  rw [append_md ha]
  by_cases hacc : g.Accepts gcode metaData
  · rw [if_pos hacc]
    cases metaData with
    | none => exact iff_of_true hb fun m hm => by cases hm
    | some m =>
      change m.Bounded ↔ _
      constructor
      · rintro hm m' ⟨⟩ - -
        exact hm
      · intro hbounds
        have hlt := seqNumber_lt (follows_of_sanity hacc.1)
        by_cases hgiven : g.md.seqTotal < 0 ∨ m.seqNumber = 2 ^ 31 - 1
        · exact hbounds m rfl hacc hgiven
        · exact bounded_of_checkTotal (sanity_eq_ok hacc.1).2.1 (by omega) (by omega)
  · rw [if_neg hacc]
    exact iff_of_true hb fun m _ h => absurd h hacc

theorem bounded_default : MetaData.Bounded {} := fun h _ => absurd h (by decide)

/-- A call that is not accepted, or does not return, has no part in it. -/
theorem bounded_step (hb : g.md.Bounded) (c : BufferCall) :
    (∀ g', Step g c g' → g'.md.Bounded) ↔ c.BoundsTotal g := by
  cases c with
  | set gcode totalLines metaData =>
    constructor
    · intro hnext m hm hacc
      have happ := append_of_accepts hacc totalLines
      have hbound := hnext _ (exec_set.mpr ⟨_, happ⟩)
      exact (bounded_append bounded_default happ).mp hbound m hm hacc (.inl neg_one_lt_zero)
    · intro hbounds g' hstep
      obtain ⟨r, ha⟩ := BufferCall.exec_set.mp hstep
      exact (bounded_append bounded_default ha).mpr fun m hm hacc _ => hbounds m hm hacc
  | append gcode totalLines metaData =>
    constructor
    · intro hnext m hm hacc
      have happ := append_of_accepts hacc totalLines
      have hbound := hnext _ (exec_append.mpr ⟨_, happ⟩)
      exact (bounded_append hb happ).mp hbound m hm hacc
    · intro hbounds g' hstep
      obtain ⟨r, ha⟩ := BufferCall.exec_append.mp hstep
      exact (bounded_append hb ha).mpr hbounds
  | clear =>
    refine iff_of_true (fun g' hstep => ?_) trivial
    cases hstep
    exact bounded_default
  | setCurrentLine line =>
    refine iff_of_true (fun g' hstep => ?_) trivial
    cases hstep
    exact hb
  | setKeepGpxMacroComments keep =>
    refine iff_of_true (fun g' hstep => ?_) trivial
    cases hstep
    exact hb
  | eraseLine amount =>
    refine iff_of_true (fun g' hstep => ?_) trivial
    obtain ⟨n, he⟩ := BufferCall.exec_eraseLine.mp hstep
    rwa [eraseLine_md he]

/-- A total that comes with a number it does not allow is taken. -/
theorem total_exceeded :
    ¬ ∀ (keep : Bool) (calls : List BufferCall) (g : GCodeBuffer),
      Transition.Run Step { keepGpxMacroComments := keep } calls g → g.md.Bounded := by
  intro h
  have hstep : Step {} (.append (ascii "G1") (-1) (some { seqNumber := 0, seqTotal := 0 }))
      { buckets := [ascii "G1\n"]
        bufferedLines := 1
        totalLinesSent := 1
        bufferSize := 3
        md := { seqNumber := 0, seqTotal := 0 } } := by
    unfold Step
    decide
  have hbound := h false _ _ (.cons hstep (.nil _)) le_rfl le_rfl
  exact absurd hbound (by decide)

/-- The recorded number stays below the recorded total along any list of calls if and only if each
accepted chunk that first gives the total, or has the largest number there is, is in bounds. -/
theorem bounded_iff (keep : Bool) (calls : List BufferCall) :
    (∀ pre g, pre <+: calls → Transition.Run Step { keepGpxMacroComments := keep } pre g → g.md.Bounded) ↔
      ∀ pre c g, pre ++ [c] <+: calls →
        Transition.Run Step { keepGpxMacroComments := keep } pre g → c.BoundsTotal g := by
  have hiff : ∀ g c (calls : List BufferCall), True → g.md.Bounded →
      ((True ∧ ∀ g', Step g c g' → g'.md.Bounded) ↔ c.BoundsTotal g) := by
    intro g c _ _ hb
    rw [true_and]
    exact bounded_step hb c
  have hinit : ({ keepGpxMacroComments := keep } : GCodeBuffer).md.Bounded := bounded_default
  simpa using Transition.throughout_iff (fun _ _ => True) (fun _ _ _ _ _ _ _ => trivial) hiff trivial hinit

end BufferCall
end Print3D
