import Print3D.Drivers.BufferRuns

/-! The acceptance protocol of `append` for chunks that carry metadata: what the
metadata of the accepted chunks looks like in any order of arrivals. -/
namespace Print3D

/-! ### Consistent metadata -/

def sequenceNumbers (ms : List MetaData) : List ℤ := (ms.map (·.seqNumber)).filter (0 ≤ ·)

/-- The metadata of chunks that make up one text, in order of arrival: numbers count from
0 without gap or repetition and stay once they are given, as do total and source. -/
structure Consistent (ms : List MetaData) : Prop where
  numbers : ∃ n : ℕ, sequenceNumbers ms = (List.range n).map fun k : ℕ => (k : ℤ)
  numbered : ms.Pairwise fun m m' => 0 ≤ m.seqNumber → 0 ≤ m'.seqNumber
  total : ms.Pairwise fun m m' => 0 ≤ m.seqTotal → m'.seqTotal = m.seqTotal
  source : ms.Pairwise fun m m' => m.source ≠ none → m'.source = m.source

/-- `own` sums up the accepted chunks `ms`: what the next one is checked against. -/
structure Recorded (ms : List MetaData) (own : MetaData) : Prop where
  numbers : sequenceNumbers ms = (List.range (own.seqNumber + 1).toNat).map fun k : ℕ => (k : ℤ)
  bound : own.seqNumber < 2 ^ 31
  numbered : ∀ m ∈ ms, 0 ≤ m.seqNumber → 0 ≤ own.seqNumber
  total : ∀ m ∈ ms, 0 ≤ m.seqTotal → own.seqTotal = m.seqTotal
  source : ∀ m ∈ ms, m.source ≠ none → own.source = m.source

/-- A chunk that may follow what `own` records. -/
structure Follows (own m : MetaData) : Prop where
  first : own.seqNumber < 0 → m.seqNumber ≤ 0
  next : 0 ≤ own.seqNumber → 0 ≤ m.seqNumber ∧ m.seqNumber = i32 (own.seqNumber + 1)
  total : 0 ≤ own.seqTotal → m.seqTotal = own.seqTotal
  source : own.source ≠ none → m.source = own.source

/-- What is recorded once `m` has followed `own`. -/
def MetaData.record (own m : MetaData) : MetaData :=
  { seqNumber := m.seqNumber
    seqTotal := m.seqTotal
    source := if own.source = none then m.source else own.source }

theorem recorded_nil : Recorded [] {} := by
  refine ⟨rfl, ?_, ?_, ?_, ?_⟩ <;> simp

theorem consistent_nil : Consistent [] := ⟨⟨0, rfl⟩, .nil, .nil, .nil⟩

variable {ms : List MetaData} {own m : MetaData}

theorem sequenceNumbers_append_singleton (ms : List MetaData) (m : MetaData) :
    sequenceNumbers (ms ++ [m]) =
      sequenceNumbers ms ++ if 0 ≤ m.seqNumber then [m.seqNumber] else [] := by
  by_cases h : 0 ≤ m.seqNumber <;> simp [sequenceNumbers, h]

theorem Follows.number (h : Recorded ms own) (hf : Follows own m) :
    (m.seqNumber < 0 ∧ own.seqNumber < 0) ∨
      (0 ≤ m.seqNumber ∧ m.seqNumber < 2 ^ 31 ∧ m.seqNumber = ((own.seqNumber + 1).toNat : ℤ)) := by
  by_cases hown : 0 ≤ own.seqNumber
  · obtain ⟨hm, hnext⟩ := hf.next hown
    have hbound := h.bound
    by_cases hmax : own.seqNumber + 1 < 2 ^ 31
    · rw [i32_eq ⟨by omega, hmax⟩] at hnext
      exact .inr ⟨hm, by omega, by omega⟩
    · have hlast : own.seqNumber + 1 = 2 ^ 31 := by omega
      rw [hlast, show i32 (2 ^ 31) = -(2 ^ 31) by decide] at hnext
      omega
  · have hfirst := hf.first (by omega)
    by_cases hm : 0 ≤ m.seqNumber
    · exact .inr ⟨hm, by omega, by omega⟩
    · exact .inl ⟨by omega, by omega⟩

theorem Recorded.snoc (h : Recorded ms own) (hf : Follows own m) :
    Recorded (ms ++ [m]) (own.record m) := by
  have hnum := hf.number h
  refine ⟨?_, ?_, ?_, ?_, ?_⟩
  · rw [sequenceNumbers_append_singleton, h.numbers]
    unfold MetaData.record
    rcases hnum with ⟨hm, hown⟩ | ⟨hm, -, hnext⟩
    · have h1 : (own.seqNumber + 1).toNat = 0 := by omega
      have h2 : (m.seqNumber + 1).toNat = 0 := by omega
      simp [h1, h2, hm]
    · have h1 : (m.seqNumber + 1).toNat = (own.seqNumber + 1).toNat + 1 := by omega
      rw [if_pos hm, h1, List.range_succ, List.map_append]
      simp [hnext]
  · change m.seqNumber < 2 ^ 31
    rcases hnum with ⟨hm, -⟩ | ⟨-, hm, -⟩ <;> omega
  · intro m' hm' hnonneg
    change 0 ≤ m.seqNumber
    rcases List.mem_append.mp hm' with hm' | hm'
    · exact (hf.next (h.numbered m' hm' hnonneg)).1
    · rw [← List.mem_singleton.mp hm']
      exact hnonneg
  · intro m' hm' hnonneg
    change m.seqTotal = m'.seqTotal
    rcases List.mem_append.mp hm' with hm' | hm'
    · have hown := h.total m' hm' hnonneg
      rw [← hown]
      exact hf.total (hown ▸ hnonneg)
    · rw [List.mem_singleton.mp hm']
  · intro m' hm' hsome
    change (if own.source = none then m.source else own.source) = m'.source
    rcases List.mem_append.mp hm' with hm' | hm'
    · have hown := h.source m' hm' hsome
      rw [if_neg (hown ▸ hsome), hown]
    · rw [List.mem_singleton.mp hm'] at hsome ⊢
      split_ifs with hnone
      · rfl
      · exact (hf.source hnone).symm

theorem Consistent.snoc (h : Consistent ms) (hr : Recorded ms own) (hf : Follows own m) :
    Consistent (ms ++ [m]) := by
  have hpair : ∀ R : MetaData → MetaData → Prop, ms.Pairwise R → (∀ m' ∈ ms, R m' m) →
      (ms ++ [m]).Pairwise R := fun R hms hm =>
    List.pairwise_append.mpr ⟨hms, List.pairwise_singleton R m, fun a ha b hb =>
      List.mem_singleton.mp hb ▸ hm a ha⟩
  refine ⟨⟨_, (hr.snoc hf).numbers⟩, ?_, ?_, ?_⟩
  · exact hpair _ h.numbered fun m' hm' hnonneg => (hf.next (hr.numbered m' hm' hnonneg)).1
  · refine hpair _ h.total fun m' hm' hnonneg => ?_
    have hown := hr.total m' hm' hnonneg
    rw [← hown]
    exact hf.total (hown ▸ hnonneg)
  · refine hpair _ h.source fun m' hm' hsome => ?_
    have hown := hr.source m' hm' hsome
    rw [← hown]
    exact hf.source (hown ▸ hsome)

/-! ### The checks of the buffer -/

namespace GCodeBuffer

variable {g g' : GCodeBuffer}

theorem sanity_eq_ok {metaData : Option MetaData} (h : g.sanity metaData = .ok) :
    checkNumber g.md g.bufferSize metaData = .ok ∧ checkTotal g.md metaData = .ok ∧
      checkSource g.md metaData = .ok := by
  unfold sanity at h
  by_cases hn : checkNumber g.md g.bufferSize metaData = .ok
  · by_cases ht : checkTotal g.md metaData = .ok
    · simp only [hn, ht, if_true] at h
      exact ⟨hn, ht, h⟩
    · simp [hn, ht] at h
  · simp [hn] at h

theorem checkNumber_eq_ok {bufferSize : ℤ} (h : checkNumber own bufferSize (some m) = .ok) :
    (own.seqNumber < 0 → m.seqNumber ≤ 0) ∧
      (0 ≤ own.seqNumber → 0 ≤ m.seqNumber ∧ m.seqNumber = i32 (own.seqNumber + 1)) := by
  unfold checkNumber at h
  dsimp only at h
  constructor
  · intro hown
    by_contra hm
    rw [if_neg (by omega), if_pos (by omega), if_pos (by omega)] at h
    cases h
  · intro hown
    rw [if_pos (by omega)] at h
    split_ifs at h with hm hnext
    exact ⟨not_lt.mp hm, (not_not.mp hnext).symm⟩

theorem checkTotal_eq_ok (h : checkTotal own (some m) = .ok) :
    0 ≤ own.seqTotal → m.seqTotal = own.seqTotal := by
  intro hown
  unfold checkTotal at h
  dsimp only at h
  rw [if_pos (by omega)] at h
  split_ifs at h with hm htotal hlast
  exact (not_not.mp htotal).symm

theorem checkSource_eq_ok (h : checkSource own (some m) = .ok) :
    own.source ≠ none → m.source = own.source := by
  intro hown
  obtain ⟨src, hsrc⟩ := Option.ne_none_iff_exists'.mp hown
  simp only [checkSource, hsrc, Option.bind_some] at h
  cases hm : m.source with
  | none => simp [hm] at h
  | some src' =>
    simp only [hm, ne_eq, ite_not] at h
    split_ifs at h with heq
    rw [hsrc, heq]

theorem follows_of_sanity (h : g.sanity (some m) = .ok) : Follows g.md m := by
  obtain ⟨hn, ht, hs⟩ := sanity_eq_ok h
  exact ⟨(checkNumber_eq_ok hn).1, (checkNumber_eq_ok hn).2, checkTotal_eq_ok ht, checkSource_eq_ok hs⟩

@[simp] theorem appendChunk_md (chunk : Text) : (g.appendChunk chunk).md = g.md := by
  unfold appendChunk updateStats
  dsimp only
  unfold cleanupGCode
  dsimp only
  split <;> rfl

@[simp] theorem foldl_appendChunk_md (cs : List Text) : (cs.foldl appendChunk g).md = g.md := by
  induction cs generalizing g with
  | nil => rfl
  | cons c cs ih => rw [List.foldl_cons, ih, appendChunk_md]

theorem housekeeping_md (totalLines : ℤ) : (g.housekeeping totalLines (some m)).md = g.md.record m := by
  unfold housekeeping MetaData.record
  dsimp only
  split_ifs <;> rfl

theorem eraseLine_md {amount : ℕ} {n : ℤ} (h : g.eraseLine amount = some (n, g')) : g'.md = g.md := by
  rw [eraseLine_frame h]

theorem append_isSome (g : GCodeBuffer) (gcode : Text) (totalLines : ℤ) (m : MetaData) :
    (g.append gcode totalLines (some m)).isSome := by
  unfold append
  dsimp only
  split_ifs <;> simp_all

end GCodeBuffer

/-! ### Arrivals -/

/-- What happens to a buffer between two clears: chunks arrive with metadata and are
answered, and lines are erased. -/
inductive Arrival
  | chunk (gcode : Text) (totalLines : ℤ) (metaData : MetaData) (result : GcodeSetResult)
  | erased (amount : ℕ)

namespace Arrival

inductive Step : GCodeBuffer → Arrival → GCodeBuffer → Prop
  | chunk {g g' : GCodeBuffer} {gcode : Text} {totalLines : ℤ} {m : MetaData} {r : GcodeSetResult} :
      g.append gcode totalLines (some m) = some (r, g') → Step g (.chunk gcode totalLines m r) g'
  | erased {g g' : GCodeBuffer} {amount : ℕ} {n : ℤ} :
      g.eraseLine amount = some (n, g') → Step g (.erased amount) g'

/-- The metadata of an accepted chunk. -/
def metaData? : Arrival → Option MetaData
  | chunk _ _ m .ok => some m
  | _ => none

def accepted (as : List Arrival) : List MetaData := as.filterMap metaData?

def keepsProtocol (ms : List MetaData) (g : GCodeBuffer) : Prop := Consistent ms ∧ Recorded ms g.md

theorem keepsProtocol_step (ms : List MetaData) (g : GCodeBuffer) (a : Arrival) (g' : GCodeBuffer)
    (h : keepsProtocol ms g) (hstep : Step g a g') : keepsProtocol (ms ++ accepted [a]) g' := by
  cases hstep with
  | @chunk _ gcode totalLines m r ha =>
    rcases GCodeBuffer.append_cases ha with ⟨rfl, hacc, rfl⟩ | ⟨hr, -, rfl⟩
    · have hf := GCodeBuffer.follows_of_sanity hacc.1
      refine ⟨h.1.snoc h.2 hf, ?_⟩
      rw [GCodeBuffer.foldl_appendChunk_md, GCodeBuffer.housekeeping_md]
      exact h.2.snoc hf
    · have hnone : accepted [.chunk gcode totalLines m r] = [] := by
        cases r <;> first | rfl | exact absurd rfl hr
      rwa [hnone, List.append_nil]
  | erased he =>
    have hmd := GCodeBuffer.eraseLine_md he
    simpa only [accepted, List.filterMap_cons, metaData?, List.filterMap_nil, List.append_nil,
      keepsProtocol, hmd] using h

theorem keepsProtocol_run {g g' : GCodeBuffer} {as : List Arrival}
    (h : Transition.Run Step g.clear as g') : keepsProtocol (accepted as) g' := by
  have hfold := h.invariant_fold keepsProtocol (fun ms a => ms ++ accepted [a])
    (fun ms s a t hs hstep => keepsProtocol_step ms s a t hs hstep) ⟨consistent_nil, recorded_nil⟩
  have heq : ∀ as : List Arrival, ∀ ms, as.foldl (fun ms a => ms ++ accepted [a]) ms =
      ms ++ accepted as := by
    intro as
    induction as with
    | nil => simp [accepted]
    | cons a as ih =>
      intro ms
      rw [List.foldl_cons, ih, List.append_assoc]
      congr 1
      simp only [accepted, ← List.filterMap_append, List.singleton_append]
  rwa [heq, List.nil_append] at hfold

/-- Between two clears the accepted chunks are consistent, whatever arrives in whatever
order, and a chunk that is not accepted changes nothing. -/
theorem accepted_consistent {g g' : GCodeBuffer} {as : List Arrival}
    (h : Transition.Run Step g.clear as g') :
    Consistent (accepted as) ∧
      ∀ gcode totalLines m, ∃ r g'', g'.append gcode totalLines (some m) = some (r, g'') ∧
        (r ≠ .ok → g'' = g') := by
  refine ⟨(keepsProtocol_run h).1, fun gcode totalLines m => ?_⟩
  obtain ⟨⟨r, g''⟩, ha⟩ := Option.isSome_iff_exists.mp (g'.append_isSome gcode totalLines m)
  refine ⟨r, g'', ha, fun hr => ?_⟩
  rcases GCodeBuffer.append_cases ha with ⟨rfl, -⟩ | ⟨-, -, hg⟩
  · exact absurd rfl hr
  · exact hg

def twoChunks : GCodeBuffer where
  buckets := [ascii "G2\n"]
  bufferedLines := 1
  totalLinesSent := 2
  bufferSize := 3
  md := { seqNumber := 1, seqTotal := 2 }

theorem accepted_consistent_repeated :
    Consistent [{ seqNumber := 0, seqTotal := 2 }, { seqNumber := 1, seqTotal := 2 }] ∧
      ∀ gcode totalLines m, ∃ r g'', twoChunks.append gcode totalLines (some m) = some (r, g'') ∧
        (r ≠ .ok → g'' = twoChunks) := by
  let g₁ : GCodeBuffer :=
    { buckets := [ascii "G1\n"]
      bufferedLines := 1
      totalLinesSent := 1
      bufferSize := 3
      md := { seqNumber := 0, seqTotal := 2 } }
  let g₂ : GCodeBuffer := { g₁ with buckets := [], bufferedLines := 0, bufferSize := 0 }
  have h₁ : Step (GCodeBuffer.clear {}) (.chunk (ascii "G1") (-1) { seqNumber := 0, seqTotal := 2 } .ok) g₁ :=
    .chunk (by decide)
  have h₂ : Step g₁ (.chunk (ascii "G1") (-1) { seqNumber := 0, seqTotal := 2 } .seqNumMismatch) g₁ :=
    .chunk (by decide)
  have h₃ : Step g₁ (.erased 1) g₂ := .erased (n := 1) (by decide)
  have h₄ : Step g₂ (.chunk (ascii "G2") (-1) { seqNumber := 1, seqTotal := 2 } .ok) twoChunks :=
    .chunk (by decide)
  exact accepted_consistent (.cons h₁ (.cons h₂ (.cons h₃ (.cons h₄ (.nil twoChunks)))))

end Arrival
end Print3D
