import Print3D.Drivers.FrontLines

/-! Runs of the gcode buffer, and what appending does to its contents in every state
such a run can reach. -/
namespace Print3D
open Lines

namespace GCodeBuffer

variable {g g' : GCodeBuffer} {s : LineStore} {sent : List Text}

/-! ### One append -/

/-- The conditions under which `append` takes a text. -/
def Accepts (g : GCodeBuffer) (gcode : Text) (metaData : Option MetaData) : Prop :=
  g.sanity metaData = .ok ∧ sizeT g.bufferSize + gcode.length ≤ maxBufferSize

instance (g : GCodeBuffer) (gcode : Text) (metaData : Option MetaData) :
    Decidable (g.Accepts gcode metaData) := by
  unfold Accepts
  infer_instance

theorem append_cases {gcode : Text} {totalLines : ℤ} {metaData : Option MetaData}
    {r : GcodeSetResult} (h : g.append gcode totalLines metaData = some (r, g')) :
    (r = .ok ∧ g.Accepts gcode metaData ∧
        g' = (chunks gcode).foldl appendChunk (g.housekeeping totalLines metaData)) ∨
      (r ≠ .ok ∧ ¬ g.Accepts gcode metaData ∧ g' = g) := by
  have hmax : (0 : ℕ) < maxBufferSize := by decide
  simp only [append, hmax, true_and, gt_iff_lt] at h
  by_cases hs : g.sanity metaData = .ok
  · rw [if_neg (not_not.mpr hs)] at h
    by_cases hfull : maxBufferSize < sizeT g.bufferSize + gcode.length
    · rw [if_pos hfull, Option.some.injEq, Prod.mk.injEq] at h
      refine .inr ⟨by rw [← h.1]; decide, ?_, h.2.symm⟩
      exact fun ha => absurd ha.2 (not_le.mpr hfull)
    · rw [if_neg hfull, Option.some.injEq, Prod.mk.injEq] at h
      exact .inl ⟨h.1.symm, ⟨hs, not_lt.mp hfull⟩, h.2.symm⟩
  · rw [if_pos hs] at h
    split_ifs at h
    rw [Option.some.injEq, Prod.mk.injEq] at h
    exact .inr ⟨h.1 ▸ hs, fun ha => hs ha.1, h.2.symm⟩

theorem append_of_accepts {gcode : Text} {metaData : Option MetaData} (h : g.Accepts gcode metaData)
    (totalLines : ℤ) : g.append gcode totalLines metaData =
      some (.ok, (chunks gcode).foldl appendChunk (g.housekeeping totalLines metaData)) := by
  have hfull : ¬ (maxBufferSize > 0 ∧ sizeT g.bufferSize + gcode.length > maxBufferSize) := fun hf =>
    absurd h.2 (not_le.mpr hf.2)
  rw [append, if_neg (not_not.mpr h.1), if_neg hfull]

@[simp] theorem housekeeping_buckets (totalLines : ℤ) (metaData : Option MetaData) :
    (g.housekeeping totalLines metaData).buckets = g.buckets := by
  unfold housekeeping
  cases metaData <;> dsimp only <;> split_ifs <;> rfl

@[simp] theorem housekeeping_bufferSize (totalLines : ℤ) (metaData : Option MetaData) :
    (g.housekeeping totalLines metaData).bufferSize = g.bufferSize := by
  unfold housekeeping
  cases metaData <;> dsimp only <;> split_ifs <;> rfl

@[simp] theorem housekeeping_bufferedLines (totalLines : ℤ) (metaData : Option MetaData) :
    (g.housekeeping totalLines metaData).bufferedLines = g.bufferedLines := by
  unfold housekeeping
  cases metaData <;> dsimp only <;> split_ifs <;> rfl

@[simp] theorem housekeeping_totalLinesSent (totalLines : ℤ) (metaData : Option MetaData) :
    (g.housekeeping totalLines metaData).totalLinesSent = g.totalLinesSent := by
  unfold housekeeping
  cases metaData <;> dsimp only <;> split_ifs <;> rfl

@[simp] theorem housekeeping_keepGpxMacroComments (totalLines : ℤ) (metaData : Option MetaData) :
    (g.housekeeping totalLines metaData).keepGpxMacroComments = g.keepGpxMacroComments := by
  unfold housekeeping
  cases metaData <;> dsimp only <;> split_ifs <;> rfl

/-! ### The buffer against the lines sent to it -/

/-- The buffer holds the lines of `s`, the last ones of the lines `sent` since the last
clear, and its counters count both. -/
structure Tracks (g : GCodeBuffer) (s : LineStore) (sent : List Text) : Prop where
  stores : g.Stores s
  suffix : s.lines <:+ sent
  buffered : g.bufferedLines = i32 s.lines.length
  total : g.totalLinesSent = i32 sent.length

theorem tracks_clear (g : GCodeBuffer) : g.clear.Tracks .empty [] :=
  ⟨stores_clear g, List.suffix_refl _, i32_zero.symm, i32_zero.symm⟩

theorem Tracks.housekeeping (h : g.Tracks s sent) (totalLines : ℤ) (metaData : Option MetaData) :
    (g.housekeeping totalLines metaData).Tracks s sent := by
  refine ⟨?_, h.suffix, ?_, ?_⟩
  · exact (housekeeping_buckets ..).trans h.stores
  · exact (housekeeping_bufferedLines ..).trans h.buffered
  · exact (housekeeping_totalLinesSent ..).trans h.total

theorem Tracks.appendChunk (h : g.Tracks s sent) (chunk : Text) :
    (g.appendChunk chunk).Tracks
      (s.put (normLines g.keepGpxMacroComments chunk) fun _ => isLine_of_mem_normLines)
      (sent ++ normLines g.keepGpxMacroComments chunk) := by
  obtain ⟨t, ht⟩ := h.suffix
  rw [appendChunk_eq h.stores]
  refine ⟨rfl, ?_, ?_, ?_⟩
  · rw [LineStore.lines_put, ← ht, List.append_assoc]
    exact List.suffix_append _ _
  · simp only [h.buffered, i32_i32_add, LineStore.lines_put, List.length_append, Nat.cast_add]
  · simp only [h.total, i32_i32_add, List.length_append, Nat.cast_add]

@[simp] theorem appendChunk_keepGpxMacroComments (h : g.Stores s) (chunk : Text) :
    (g.appendChunk chunk).keepGpxMacroComments = g.keepGpxMacroComments := by
  rw [appendChunk_eq h]

theorem Tracks.foldl_appendChunk (h : g.Tracks s sent) (cs : List Text) :
    ∃ s', (cs.foldl GCodeBuffer.appendChunk g).Tracks s'
        (sent ++ (cs.map (normLines g.keepGpxMacroComments)).flatten) ∧
      s'.lines = s.lines ++ (cs.map (normLines g.keepGpxMacroComments)).flatten := by
  induction cs generalizing g s sent with
  | nil => exact ⟨s, by simpa using h, by simp⟩
  | cons c cs ih =>
    obtain ⟨s', h', hl⟩ := ih (h.appendChunk c)
    rw [appendChunk_keepGpxMacroComments h.stores] at h' hl
    refine ⟨s', ?_, ?_⟩
    · simpa [List.append_assoc] using h'
    · simpa [List.append_assoc] using hl

theorem Tracks.append (h : g.Tracks s sent) {gcode : Text} {totalLines : ℤ}
    {metaData : Option MetaData} (ha : g.append gcode totalLines metaData = some (.ok, g')) :
    ∃ s', g'.Tracks s' (sent ++ normLines g.keepGpxMacroComments gcode) ∧
      s'.lines = s.lines ++ normLines g.keepGpxMacroComments gcode := by
  rcases append_cases ha with ⟨-, -, rfl⟩ | ⟨hr, -⟩
  · obtain ⟨s', h', hl⟩ := (h.housekeeping totalLines metaData).foldl_appendChunk (chunks gcode)
    rw [housekeeping_keepGpxMacroComments, ← normLines_flatten _ (chunked_chunks gcode),
      flatten_chunks] at h' hl
    exact ⟨s', h', hl⟩
  · exact absurd rfl hr

theorem Tracks.eraseLine (h : g.Tracks s sent) (hf : s.front ≠ []) (amount : ℕ) :
    ∃ g', g.eraseLine amount = some ((taken amount s.front.length : ℤ), g') ∧
      g'.Tracks (s.erase (taken amount s.front.length)) sent := by
  have hk : taken amount s.front.length ≤ s.front.length := min_le_right ..
  have hlines := s.lines_erase hk
  have hle : taken amount s.front.length ≤ s.lines.length := hk.trans s.front_prefix.length_le
  refine ⟨_, eraseLine_eq h.stores hf amount, rfl, ?_, ?_, h.total⟩
  · rw [hlines]
    exact (List.drop_suffix _ _).trans h.suffix
  · simp only [h.buffered, i32_i32_sub, hlines, List.length_drop]
    rw [Nat.cast_sub hle]

theorem Tracks.eraseLine_one (h : g.Tracks s sent) {l : Text} {ls : List Text} (hl : s.lines = l :: ls) :
    ∃ n g' s', g.eraseLine = some (n, g') ∧ g'.Tracks s' sent ∧ s'.lines = ls := by
  have hf : s.front ≠ [] := fun hf => by rw [s.lines_eq_nil_of_front hf] at hl; cases hl
  have hlen : 0 < s.front.length := List.length_pos_iff.mpr hf
  obtain ⟨g', hg', h'⟩ := h.eraseLine hf 1
  have htaken : taken 1 s.front.length = 1 := by
    unfold taken
    omega
  rw [htaken] at h'
  refine ⟨_, g', _, hg', h', ?_⟩
  rw [s.lines_erase hlen, hl]
  rfl

theorem Tracks.setCurrentLine (h : g.Tracks s sent) (line : ℤ) : (g.setCurrentLine line).Tracks s sent :=
  ⟨h.stores, h.suffix, h.buffered, h.total⟩

end GCodeBuffer

/-! ### Runs -/

inductive BufferCall
  | set (gcode : Text) (totalLines : ℤ) (metaData : Option MetaData)
  | append (gcode : Text) (totalLines : ℤ) (metaData : Option MetaData)
  | clear
  | setCurrentLine (line : ℤ)
  | setKeepGpxMacroComments (keep : Bool)
  | eraseLine (amount : ℕ)
  deriving DecidableEq

namespace BufferCall
open GCodeBuffer

def exec (g : GCodeBuffer) : BufferCall → Option GCodeBuffer
  | set gcode totalLines metaData => (g.set gcode totalLines metaData).map (·.2)
  | append gcode totalLines metaData => (g.append gcode totalLines metaData).map (·.2)
  | clear => some g.clear
  | setCurrentLine line => some (g.setCurrentLine line)
  | setKeepGpxMacroComments keep => some (g.setKeepGpxMacroComments keep)
  | eraseLine amount => (g.eraseLine amount).map (·.2)

theorem exec_set {g g' : GCodeBuffer} {gcode : Text} {totalLines : ℤ} {metaData : Option MetaData} :
    (set gcode totalLines metaData).exec g = some g' ↔
      ∃ r, g.clear.append gcode totalLines metaData = some (r, g') := by
  simp [exec, GCodeBuffer.set]

theorem exec_append {g g' : GCodeBuffer} {gcode : Text} {totalLines : ℤ} {metaData : Option MetaData} :
    (append gcode totalLines metaData).exec g = some g' ↔
      ∃ r, g.append gcode totalLines metaData = some (r, g') := by
  simp [exec]

theorem exec_eraseLine {g g' : GCodeBuffer} {amount : ℕ} :
    (eraseLine amount).exec g = some g' ↔ ∃ n, g.eraseLine amount = some (n, g') := by
  simp [exec]

/-- The lines sent since the last clear, after a call on `g`. -/
def history (g : GCodeBuffer) (sent : List Text) : BufferCall → List Text
  | set gcode _ metaData =>
    if g.clear.Accepts gcode metaData then normLines g.keepGpxMacroComments gcode else []
  | append gcode _ metaData =>
    if g.Accepts gcode metaData then sent ++ normLines g.keepGpxMacroComments gcode else sent
  | clear => []
  | _ => sent

/-- `eraseLine` is called when `getNextLine` has returned a line. -/
def Careful (g : GCodeBuffer) : BufferCall → Prop
  | eraseLine _ => ∃ n, 0 < (g.getNextLine n).1
  | _ => True

end BufferCall

/-- A buffer and the lines sent to it since its last clear. -/
structure SentBuffer where
  buffer : GCodeBuffer
  sent : List Text := []
  deriving DecidableEq

namespace SentBuffer
open GCodeBuffer

def init (keep : Bool) : SentBuffer := ⟨{ keepGpxMacroComments := keep }, []⟩

def Step (t : SentBuffer) (c : BufferCall) (t' : SentBuffer) : Prop :=
  c.Careful t.buffer ∧ c.exec t.buffer = some t'.buffer ∧ t'.sent = c.history t.buffer t.sent

def Tracked (t : SentBuffer) : Prop := ∃ s, t.buffer.Tracks s t.sent

theorem tracked_append {t : SentBuffer} {gcode : Text} {totalLines : ℤ} {metaData : Option MetaData}
    {r : GcodeSetResult} {g' : GCodeBuffer} (h : t.Tracked)
    (ha : t.buffer.append gcode totalLines metaData = some (r, g')) :
    (⟨g', (BufferCall.append gcode totalLines metaData).history t.buffer t.sent⟩ : SentBuffer).Tracked := by
  obtain ⟨s, hs⟩ := h
  rcases append_cases ha with ⟨rfl, hacc, -⟩ | ⟨-, hacc, rfl⟩
  · obtain ⟨s', h', -⟩ := hs.append ha
    refine ⟨s', ?_⟩
    simpa only [BufferCall.history, if_pos hacc] using h'
  · refine ⟨s, ?_⟩
    simpa only [BufferCall.history, if_neg hacc] using hs

theorem tracked_step (t : SentBuffer) (c : BufferCall) (t' : SentBuffer) (h : t.Tracked)
    (hstep : t.Step c t') : t'.Tracked := by
  obtain ⟨g', sent'⟩ := t'
  obtain ⟨hcareful, hexec, rfl⟩ := hstep
  obtain ⟨s, hs⟩ := h
  cases c with
  | set gcode totalLines metaData =>
    obtain ⟨r, ha⟩ := BufferCall.exec_set.mp hexec
    have h' := tracked_append (t := ⟨t.buffer.clear, []⟩) ⟨.empty, tracks_clear _⟩ ha
    exact h'
  | append gcode totalLines metaData =>
    obtain ⟨r, ha⟩ := BufferCall.exec_append.mp hexec
    exact tracked_append ⟨s, hs⟩ ha
  | clear =>
    cases hexec
    exact ⟨.empty, tracks_clear _⟩
  | setCurrentLine line =>
    cases hexec
    exact ⟨s, hs.stores, hs.suffix, hs.buffered, hs.total⟩
  | setKeepGpxMacroComments keep =>
    cases hexec
    exact ⟨s, hs.stores, hs.suffix, hs.buffered, hs.total⟩
  | eraseLine amount =>
    obtain ⟨n, hn⟩ := hcareful
    obtain ⟨g₁, he, h'⟩ := hs.eraseLine ((getNextLine_pos hs.stores n).mp hn) amount
    simp only [BufferCall.exec, he, Option.map_some, Option.some.injEq] at hexec
    subst hexec
    exact ⟨_, h'⟩

theorem tracked_run {keep : Bool} {calls : List BufferCall} {t : SentBuffer}
    (h : Transition.Run Step (init keep) calls t) : t.Tracked :=
  h.invariant Tracked tracked_step ⟨.empty, tracks_clear (init keep).buffer⟩

/-- In every reachable state, an accepted text of any length adds its cleaned text to the
contents and its lines to the counters, wherever it is cut into chunks and buckets. -/
theorem append_adds_norm {keep : Bool} {calls : List BufferCall} {t : SentBuffer}
    (hrun : Transition.Run Step (init keep) calls t) {gcode : Text} {totalLines : ℤ}
    {metaData : Option MetaData} {g' : GCodeBuffer}
    (happ : t.buffer.append gcode totalLines metaData = some (.ok, g')) :
    g'.buckets.flatten = t.buffer.buckets.flatten ++ norm t.buffer.keepGpxMacroComments gcode ∧
      (t.sent.length + (normLines t.buffer.keepGpxMacroComments gcode).length < 2 ^ 31 →
        g'.getTotalLinesSent = t.buffer.getTotalLinesSent +
            (normLines t.buffer.keepGpxMacroComments gcode).length ∧
          g'.getBufferedLines = t.buffer.getBufferedLines +
            (normLines t.buffer.keepGpxMacroComments gcode).length) := by
  obtain ⟨s, hs⟩ := tracked_run hrun
  obtain ⟨s', hs', hlines⟩ := hs.append happ
  set ls := normLines t.buffer.keepGpxMacroComments gcode with hls
  refine ⟨?_, fun hlt => ?_⟩
  · rw [hs'.stores.flatten_buckets, hs.stores.flatten_buckets, hlines, unlines_append, norm]
  · have hle := hs.suffix.length_le
    have hi : ∀ n : ℕ, n < 2 ^ 31 → i32 n = n := fun n hn => i32_eq ⟨by omega, by omega⟩
    have hsent := hs'.total
    have hstored := hs'.buffered
    rw [List.length_append] at hsent
    rw [hlines, List.length_append] at hstored
    unfold getTotalLinesSent getBufferedLines
    rw [hsent, hs.total, hstored, hs.buffered, hi _ hlt, hi _ (by omega), hi _ (by omega),
      hi _ (by omega)]
    constructor <;> push_cast <;> rfl

theorem append_adds_norm_mixed :
    ascii "M1\nG2\n" = [] ++ norm false (ascii "\r\nM1;x\n;y\nG2") ∧
      (1 + (normLines false (ascii "\r\nM1;x\n;y\nG2")).length < 2 ^ 31 →
        (3 : ℤ) = 1 + (normLines false (ascii "\r\nM1;x\n;y\nG2")).length ∧
          (2 : ℤ) = 0 + (normLines false (ascii "\r\nM1;x\n;y\nG2")).length) := by
  let t₁ : SentBuffer :=
    { buffer :=
        { buckets := [ascii "G1 X1\n"], bufferedLines := 1, totalLinesSent := 1, bufferSize := 6 }
      sent := [ascii "G1 X1"] }
  let t : SentBuffer := { buffer := { totalLinesSent := 1 }, sent := [ascii "G1 X1"] }
  have h₁ : (init false).Step (.append (ascii "G1 X1;a") (-1) none) t₁ :=
    ⟨trivial, by decide, by decide⟩
  have h₂ : t₁.Step (.eraseLine 1) t := ⟨⟨1, by decide⟩, by decide, by decide⟩
  have happ : t.buffer.append (ascii "\r\nM1;x\n;y\nG2") (-1) none = some (.ok,
      { buckets := [ascii "M1\nG2\n"], bufferedLines := 2, totalLinesSent := 3, bufferSize := 6 }) := by
    decide
  exact append_adds_norm (.cons h₁ (.cons h₂ (.nil t))) happ

end SentBuffer
end Print3D
