import Print3D.Drivers.LineCount
import Print3D.Drivers.Restart

/-! The line counter the progress of a print is computed from. It is kept apart from the counters of
the buffer: moved on with each line sent, back with each line asked for again, and set to 0 when
a print starts or ends. -/
namespace Print3D
open GCodeBuffer MarlinDriver Transition

namespace GCodeBuffer

variable {g g' : GCodeBuffer} {s : LineStore} {sent : List Text}

/-- The current line is never behind the lines sent, and appending does not change it as long as
these fit their counter. -/
theorem Tracks.foldl_currentLine (h : g.Tracks s sent) (hc : g.currentLine ≤ g.totalLinesSent)
    (cs : List Text) :
    (cs.foldl GCodeBuffer.appendChunk g).currentLine ≤ (cs.foldl GCodeBuffer.appendChunk g).totalLinesSent ∧
      (sent.length + (cs.map (normLines g.keepGpxMacroComments)).flatten.length < 2 ^ 31 →
        (cs.foldl GCodeBuffer.appendChunk g).currentLine = g.currentLine) := by
  induction cs generalizing g s sent with
  | nil => exact ⟨hc, fun _ => rfl⟩
  | cons c cs ih =>
    have hchunk := h.appendChunk c
    have hcurrent : (g.appendChunk c).currentLine = min g.currentLine (g.appendChunk c).totalLinesSent := by
      rw [appendChunk_eq h.stores]
    obtain ⟨hle, heq⟩ := ih hchunk (hcurrent ▸ min_le_right _ _)
    refine ⟨hle, fun hfits => ?_⟩
    rw [List.map_cons, List.flatten_cons, List.length_append] at hfits
    rw [appendChunk_keepGpxMacroComments h.stores, List.length_append] at heq
    have htotal := h.total
    have htotal' := hchunk.total
    rw [List.length_append, i32_eq ⟨by omega, by omega⟩] at htotal'
    rw [i32_eq ⟨by omega, by omega⟩] at htotal
    rw [List.foldl_cons, heq (by omega), hcurrent, htotal']
    push_cast
    omega

theorem Tracks.append_currentLine (h : g.Tracks s sent) (hc : g.currentLine ≤ g.totalLinesSent)
    {gcode : Text} {totalLines : ℤ} {metaData : Option MetaData} {r : GcodeSetResult}
    (ha : g.append gcode totalLines metaData = some (r, g')) :
    g'.currentLine ≤ g'.totalLinesSent ∧
      (sent.length + (accepted g gcode metaData).length < 2 ^ 31 → g'.currentLine = g.currentLine) := by
  rcases append_cases ha with ⟨-, hacc, rfl⟩ | ⟨-, -, rfl⟩
  · have hcurrent : (g.housekeeping totalLines metaData).currentLine = g.currentLine := by
      unfold GCodeBuffer.housekeeping
      cases metaData <;> dsimp only <;> split_ifs <;> rfl
    obtain ⟨hle, heq⟩ := (h.housekeeping totalLines metaData).foldl_currentLine
      (by rwa [hcurrent, housekeeping_totalLinesSent]) (chunks gcode)
    rw [housekeeping_keepGpxMacroComments, ← normLines_flatten _ (chunked_chunks gcode), flatten_chunks,
      hcurrent] at heq
    rw [accepted, if_pos hacc]
    exact ⟨hle, heq⟩
  · exact ⟨hc, fun _ => rfl⟩

theorem Tracks.append_accepted (h : g.Tracks s sent) {gcode : Text} {totalLines : ℤ}
    {metaData : Option MetaData} {r : GcodeSetResult}
    (ha : g.append gcode totalLines metaData = some (r, g')) :
    ∃ s', g'.Tracks s' (sent ++ accepted g gcode metaData) ∧
      s'.lines = s.lines ++ accepted g gcode metaData := by
  rcases append_cases ha with ⟨rfl, hacc, -⟩ | ⟨-, hacc, rfl⟩
  · rw [accepted, if_pos hacc]
    exact h.append ha
  · rw [accepted, if_neg hacc, List.append_nil, List.append_nil]
    exact ⟨s, h, rfl⟩

theorem Tracks.counters (h : g.Tracks s sent) (hfits : sent.length < 2 ^ 31) :
    g.getTotalLinesSent = sent.length ∧ g.getBufferedLines = s.lines.length ∧
      s.lines.length ≤ sent.length ∧ (0 < g.getNextLine.1 ↔ 0 < s.lines.length) := by
  have hle := h.suffix.length_le
  refine ⟨?_, ?_, hle, ?_⟩
  · rw [getTotalLinesSent, h.total, i32_eq ⟨by omega, by omega⟩]
  · rw [getBufferedLines, h.buffered, i32_eq ⟨by omega, by omega⟩]
  · rw [h.stores.getNextLine_pos_iff, List.length_pos_iff]

theorem length_accepted_le (g : GCodeBuffer) (gcode : Text) (metaData : Option MetaData) :
    (accepted g gcode metaData).length ≤ maxBufferSize + 1 := by
  unfold accepted
  split_ifs with hacc
  · have hlen := length_normLines_le g.keepGpxMacroComments gcode
    have hroom := hacc.2
    omega
  · exact Nat.zero_le _

end GCodeBuffer

/-- A driver and the cleaned lines appended since the last clear. -/
structure PrintJob where
  driver : MarlinDriver
  appended : List Text := []
  deriving DecidableEq

namespace PrintJob

variable {atof : Text → Int32} {t t' : PrintJob} {e : DriverEvent} {d d' : MarlinDriver} {app : List Text}
  {s : LineStore}

def init : PrintJob := { driver := MarlinEvent.opened }

def appendedAfter (t : PrintJob) (e : DriverEvent) : List Text :=
  Transmission.appendedAfter { driver := t.driver, appended := t.appended } e

def Step (atof : Text → Int32) (t : PrintJob) (e : DriverEvent) (t' : PrintJob) : Prop :=
  e.exec atof t.driver = some t'.driver ∧ t'.appended = t.appendedAfter e

/-- The current line is one of the lines appended, during a print the one at the printer. -/
structure ShowsProgress (t : PrintJob) : Prop where
  nonneg : 0 ≤ t.driver.gcodeBuffer.getCurrentLine
  le : t.driver.gcodeBuffer.getCurrentLine ≤ t.appended.length
  printing : t.driver.isPrinting = true → t.driver.gcodeBuffer.getCurrentLine =
    t.driver.gcodeBuffer.getTotalLinesSent - t.driver.gcodeBuffer.getBufferedLines + 1

/-- What an event must not do for the current line to be right: a text must not overflow the counter
of the lines, a print must start with the first line appended, and can be started again only with the
last line at the printer; and nothing must be asked for again from a driver that has nothing and
is not online. -/
def KeepsProgress (t : PrintJob) : DriverEvent → Prop
  | .appendGCode gcode _ metaData => t.driver.gcodeBuffer.getTotalLinesSent +
      (accepted t.driver.gcodeBuffer gcode metaData).length < 2 ^ 31
  | .startPrint => t.driver.isPrinterOnline = true → 0 < t.driver.gcodeBuffer.getNextLine.1 →
      if t.driver.isPrinting = true then
        t.driver.gcodeBuffer.getBufferedLines = 1 ∧ t.driver.gcodeBuffer.getTotalLinesSent < 2 ^ 31 - 1
      else t.driver.gcodeBuffer.getBufferedLines = t.driver.gcodeBuffer.getTotalLinesSent
  | .response code => AsksResend code → 0 < t.driver.gcodeBuffer.getNextLine.1 ∨
      t.driver.isPrinterOnline = true
  | _ => True

/-- What holds beside it as long as it is right. -/
structure Sound (t : PrintJob) : Prop where
  tracks : ∃ s, t.driver.gcodeBuffer.Tracks s t.appended
  fits : t.appended.length < 2 ^ 31
  next : t.driver.isPrinting = true → 0 < t.driver.gcodeBuffer.getNextLine.1
  clamped : t.driver.gcodeBuffer.currentLine ≤ t.driver.gcodeBuffer.totalLinesSent
  offline : t.driver.isPrinterOnline = false → t.driver.gcodeBuffer.currentLine = 0

theorem sound_init : init.Sound := by
  refine ⟨⟨.empty, tracks_clear {}⟩, ?_, ?_, le_rfl, fun _ => rfl⟩
  · change 0 < 2 ^ 31
    norm_num
  · intro hp
    cases hp

theorem showsProgress_init : init.ShowsProgress := by
  refine ⟨le_rfl, le_rfl, ?_⟩
  intro hp
  cases hp

/-- With exact counters the counter of the current line alone decides. -/
theorem showsProgress_iff (h : d.gcodeBuffer.Tracks s app) (hfits : app.length < 2 ^ 31) :
    ShowsProgress ⟨d, app⟩ ↔ 0 ≤ d.gcodeBuffer.currentLine ∧ d.gcodeBuffer.currentLine ≤ app.length ∧
      (d.isPrinting = true → d.gcodeBuffer.currentLine = app.length - s.lines.length + 1) := by
  obtain ⟨htotal, hbuffered, -, -⟩ := h.counters hfits
  constructor
  · rintro ⟨hnonneg, hle, hprinting⟩
    rw [htotal, hbuffered] at hprinting
    exact ⟨hnonneg, hle, hprinting⟩
  · rintro ⟨hnonneg, hle, hprinting⟩
    refine ⟨hnonneg, hle, ?_⟩
    rw [htotal, hbuffered]
    exact hprinting

theorem printNextLine_counts (h : d.gcodeBuffer.Tracks s app) (hfits : app.length < 2 ^ 31)
    (hd : printNextLine atof d = some d') :
    d'.gcodeBuffer.Tracks s app ∧
      ((0 < s.lines.length ∧ 0 < d'.gcodeBuffer.getNextLine.1 ∧ d'.state = d.state ∧
          d'.gcodeBuffer.currentLine = min (i32 (d.gcodeBuffer.currentLine + 1)) app.length) ∨
        (s.lines.length = 0 ∧ d.isPrinterOnline = true ∧ d'.state = .idle ∧ d'.gcodeBuffer.currentLine = 0) ∨
        (s.lines.length = 0 ∧ d.isPrinterOnline = false ∧ d' = d)) := by
  obtain ⟨htotal, -, -, hnext⟩ := h.counters hfits
  rcases printNextLine_gcodeBuffer hd with ⟨hpos, hs, hg⟩ | ⟨hnone, rfl⟩
  · rw [hg]
    refine ⟨h.setCurrentLine _, .inl ⟨hnext.mp hpos, hpos, hs, ?_⟩⟩
    rw [setCurrentLine, ← htotal]
    rfl
  · cases ho : d.isPrinterOnline with
    | true =>
      rw [resetPrint_online_eq ho]
      refine ⟨h.setCurrentLine 0, .inr (.inl ⟨by omega, rfl, rfl, ?_⟩)⟩
      change min 0 d.gcodeBuffer.totalLinesSent = 0
      rw [getTotalLinesSent] at htotal
      omega
    | false =>
      rw [resetPrint_offline ho]
      exact ⟨h, .inr (.inr ⟨by omega, rfl, rfl⟩)⟩

theorem printNextLine_counts_online (h : d.gcodeBuffer.Tracks s app) (hfits : app.length < 2 ^ 31)
    (ho : d.isPrinterOnline = true) (hd : printNextLine atof d = some d') :
    d'.gcodeBuffer.Tracks s app ∧
      ((0 < s.lines.length ∧ 0 < d'.gcodeBuffer.getNextLine.1 ∧ d'.state = d.state ∧
          d'.gcodeBuffer.currentLine = min (i32 (d.gcodeBuffer.currentLine + 1)) app.length) ∨
        (s.lines.length = 0 ∧ d'.state = .idle ∧ d'.gcodeBuffer.currentLine = 0)) := by
  obtain ⟨hs', hnext | ⟨hl, -, hidle⟩ | ⟨-, hoff, -⟩⟩ := printNextLine_counts h hfits hd
  · exact ⟨hs', .inl hnext⟩
  · exact ⟨hs', .inr ⟨hl, hidle⟩⟩
  · rw [ho] at hoff
    cases hoff

theorem startPrint_counts (h : d.gcodeBuffer.Tracks s app) (hfits : app.length < 2 ^ 31)
    (ho : d.isPrinterOnline = true) (hp : d.isPrinting = false) {state : DriverState}
    (hstate : state = .printing ∨ state = .stopping) {r : Bool} (hd : startPrint atof d state = some (r, d')) :
    d'.gcodeBuffer.Tracks s app ∧
      ((0 < s.lines.length ∧ 0 < d'.gcodeBuffer.getNextLine.1 ∧ d'.state = state ∧
          d'.gcodeBuffer.currentLine = 1) ∨
        (s.lines.length = 0 ∧ d'.state = .idle ∧ d'.gcodeBuffer.currentLine = 0)) := by
  obtain ⟨htotal, -, hle, -⟩ := h.counters hfits
  have hnot : d.state ≠ .printing ∧ d.state ≠ .stopping := not_or.mp (of_decide_eq_false hp)
  rw [startPrint, AbstractDriver.startPrint, if_neg (not_not.mpr ho)] at hd
  simp only [if_pos hnot, if_true, AbstractDriver.resetPrint, ho] at hd
  obtain ⟨d₁, hd₁, he⟩ := Option.map_eq_some_iff.mp hd
  cases he
  obtain ⟨htracks, hcase⟩ := printNextLine_counts_online (h.setCurrentLine 0) hfits
    (AbstractDriver.isPrinterOnline_iff.mpr (.inr (.inr hstate))) hd₁
  have hzero : (d.gcodeBuffer.setCurrentLine 0).currentLine = 0 := by
    change min 0 d.gcodeBuffer.totalLinesSent = 0
    rw [getTotalLinesSent] at htotal
    omega
  refine ⟨htracks, hcase.imp_left ?_⟩
  rintro ⟨hpos, hnext, hs, hc⟩
  refine ⟨hpos, hnext, hs, ?_⟩
  change _ = min (i32 ((d.gcodeBuffer.setCurrentLine 0).currentLine + 1)) _ at hc
  rw [hc, hzero, zero_add, i32_eq ⟨by norm_num, by norm_num⟩]
  omega

/-- An event leaves the counter right exactly if it may, and then everything else sound. -/
def Preserves (t : PrintJob) (e : DriverEvent) (t' : PrintJob) : Prop :=
  (t'.ShowsProgress ↔ t.KeepsProgress e) ∧ (t'.ShowsProgress → t'.Sound)

theorem append_preserves (hsound : t.Sound) (hshows : t.ShowsProgress) {gcode : Text} {totalLines : ℤ}
    {metaData : Option MetaData} {r : GcodeSetResult}
    (hd : appendGCode atof t.driver gcode totalLines metaData = some (r, d')) :
    Preserves t (.appendGCode gcode totalLines metaData)
      ⟨d', t.appended ++ accepted t.driver.gcodeBuffer gcode metaData⟩ := by
  obtain ⟨⟨s, hs⟩, hfits, hnext, hclamped, hoffline⟩ := hsound
  have happ := appendGCode_calls hd
  have hstores := appendGCode_stores hd
  obtain ⟨s', hs', hlines⟩ := hs.append_accepted happ
  obtain ⟨hle, hsame⟩ := hs.append_currentLine hclamped happ
  obtain ⟨htotal, -, hsub, hpos⟩ := hs.counters hfits
  have hadded := length_accepted_le t.driver.gcodeBuffer gcode metaData
  have hmax : maxBufferSize = 3145728 := by decide
  unfold Preserves
  simp only [KeepsProgress, htotal]
  by_cases hfits' : t.appended.length + (accepted t.driver.gcodeBuffer gcode metaData).length < 2 ^ 31
  · have hfits'' : (t.appended ++ accepted t.driver.gcodeBuffer gcode metaData).length < 2 ^ 31 := by
      rwa [List.length_append]
    obtain ⟨-, -, -, hpos'⟩ := hs'.counters hfits''
    have hlen : s'.lines.length = s.lines.length + (accepted t.driver.gcodeBuffer gcode metaData).length := by
      rw [hlines, List.length_append]
    refine ⟨iff_of_true ?_ (by exact_mod_cast hfits'), fun _ => ⟨⟨s', hs'⟩, hfits'', ?_, hle, ?_⟩⟩
    · obtain ⟨hnonneg, hbound, hprinting⟩ := (showsProgress_iff hs hfits).mp hshows
      rw [showsProgress_iff hs' hfits'', hsame hfits', hstores.isPrinting, List.length_append, hlen]
      refine ⟨hnonneg, by omega, fun hp => ?_⟩
      rw [hprinting hp]
      push_cast
      ring
    · intro hp
      rw [hstores.isPrinting] at hp
      have hbefore := hpos.mp (hnext hp)
      exact hpos'.mpr (by omega)
    · intro ho
      rw [hstores.isPrinterOnline] at ho
      exact (hsame hfits').trans (hoffline ho)
  · have hneg : ¬ ShowsProgress ⟨d', t.appended ++ accepted t.driver.gcodeBuffer gcode metaData⟩ := by
      intro h
      have hnonneg : 0 ≤ d'.gcodeBuffer.currentLine := h.nonneg
      have htotal' := hs'.total
      rw [List.length_append] at htotal'
      have hwrap : i32 (t.appended.length + (accepted t.driver.gcodeBuffer gcode metaData).length : ℕ) < 0 :=
        i32_neg (by omega) (by omega)
      exact absurd (hnonneg.trans hle) (not_le.mpr (htotal' ▸ hwrap))
    exact ⟨iff_of_false hneg (by exact_mod_cast hfits'), fun h => absurd h hneg⟩

theorem resting (hs : d'.gcodeBuffer.Tracks s app) (hfits : app.length < 2 ^ 31)
    (hnot : d'.isPrinting = false) (hc : d'.gcodeBuffer.currentLine = 0) :
    ShowsProgress ⟨d', app⟩ ∧ Sound ⟨d', app⟩ := by
  obtain ⟨htotal, -, -, -⟩ := hs.counters hfits
  constructor
  · rw [showsProgress_iff hs hfits, hc]
    refine ⟨le_rfl, Int.natCast_nonneg _, fun hp => ?_⟩
    rw [hnot] at hp
    cases hp
  · refine ⟨⟨s, hs⟩, hfits, fun hp => ?_, ?_, fun _ => hc⟩
    · rw [hnot] at hp
      cases hp
    · change d'.gcodeBuffer.currentLine ≤ d'.gcodeBuffer.getTotalLinesSent
      rw [hc, htotal]
      exact Int.natCast_nonneg _

theorem clear_preserves (t : PrintJob) : Preserves t .clearGCode ⟨t.driver.clearGCode, []⟩ := by
  obtain ⟨-, hg, hp, -⟩ := AbstractDriver.clearGCode_cases t.driver.toAbstractDriver
  have hbuffer : t.driver.clearGCode.gcodeBuffer = t.driver.gcodeBuffer.clear := hg
  have hfits : ([] : List Text).length < 2 ^ 31 := by
    rw [List.length_nil]
    norm_num
  have htracks : t.driver.clearGCode.gcodeBuffer.Tracks .empty [] := hbuffer ▸ tracks_clear _
  have hzero : t.driver.clearGCode.gcodeBuffer.currentLine = 0 := by
    rw [hbuffer]
    rfl
  obtain ⟨hshows, hsound⟩ := resting htracks hfits hp hzero
  exact ⟨iff_of_true hshows trivial, fun _ => hsound⟩

/-- A driver with a next line, and a counter that is not behind the lines appended. -/
theorem sound_of_next (hs : d'.gcodeBuffer.Tracks s app) (hfits : app.length < 2 ^ 31)
    (hnext : 0 < d'.gcodeBuffer.getNextLine.1) (hc : d'.gcodeBuffer.currentLine ≤ app.length)
    (hoff : d'.isPrinterOnline = false → d'.gcodeBuffer.currentLine = 0) : Sound ⟨d', app⟩ := by
  obtain ⟨htotal, -, -, -⟩ := hs.counters hfits
  refine ⟨⟨s, hs⟩, hfits, fun _ => hnext, ?_, hoff⟩
  change d'.gcodeBuffer.currentLine ≤ d'.gcodeBuffer.getTotalLinesSent
  rwa [htotal]

theorem sound_of_printing (hs : d'.gcodeBuffer.Tracks s app) (hfits : app.length < 2 ^ 31)
    (hnext : 0 < d'.gcodeBuffer.getNextLine.1) (hp : d'.isPrinting = true)
    (hc : d'.gcodeBuffer.currentLine ≤ app.length) : Sound ⟨d', app⟩ := by
  refine sound_of_next hs hfits hnext hc fun hoff => ?_
  rw [AbstractDriver.isPrinterOnline_of_isPrinting hp] at hoff
  cases hoff

theorem start_preserves (hsound : t.Sound) (hshows : t.ShowsProgress) {r : Bool}
    (hd : startPrint atof t.driver = some (r, d')) : Preserves t .startPrint ⟨d', t.appended⟩ := by
  have hsound' := hsound
  obtain ⟨⟨s, hs⟩, hfits, hnext, -, -⟩ := hsound
  obtain ⟨htotal, hbuffered, hle, hpos⟩ := hs.counters hfits
  unfold Preserves
  simp only [KeepsProgress, htotal, hbuffered, hpos]
  cases ho : t.driver.isPrinterOnline with
  | false =>
    rw [startPrint, AbstractDriver.startPrint_offline ho] at hd
    cases hd
    exact ⟨iff_of_true hshows (fun h => by cases h), fun _ => hsound'⟩
  | true =>
    cases hp : t.driver.isPrinting with
    | false =>
      obtain ⟨hs', ⟨hl, hnext', hstate, hc⟩ | ⟨hl, hstate, hc⟩⟩ :=
        startPrint_counts hs hfits ho hp (.inl rfl) hd
      · have hprinting := AbstractDriver.isPrinting_of_state (.inl hstate)
        refine ⟨?_, fun _ => sound_of_printing hs' hfits hnext' hprinting (by omega)⟩
        rw [showsProgress_iff hs' hfits, hc, hprinting]
        simp only [hl, true_imp_iff, Bool.false_eq_true, if_false]
        omega
      · obtain ⟨hshows', hsound'⟩ := resting hs' hfits (AbstractDriver.isPrinting_of_idle hstate) hc
        exact ⟨iff_of_true hshows' fun _ h => absurd h (by omega), fun _ => hsound'⟩
    | true =>
      have hcurrent := ((showsProgress_iff hs hfits).mp hshows).2.2 hp
      have hl := hpos.mp (hnext hp)
      rw [startPrint_of_isPrinting hp] at hd
      obtain ⟨d₁, hd₁, he⟩ := Option.map_eq_some_iff.mp hd
      cases he
      have hcases := printNextLine_counts_online (d := { t.driver with state := .printing }) hs hfits rfl hd₁
      obtain ⟨hs', ⟨-, hnext', hstate, hc⟩ | ⟨hl', -, -⟩⟩ := hcases
      · have hprinting := AbstractDriver.isPrinting_of_state (.inl hstate)
        change _ = min (i32 (t.driver.gcodeBuffer.currentLine + 1)) _ at hc
        refine ⟨?_, fun _ => sound_of_printing hs' hfits hnext' hprinting (by omega)⟩
        rw [showsProgress_iff hs' hfits, hc, hcurrent, hprinting]
        simp only [hl, true_imp_iff, if_true]
        -- the counter overflows only where the last line has the largest number
        by_cases hlast : (t.appended.length : ℤ) - s.lines.length + 1 + 1 < 2 ^ 31
        · rw [i32_eq ⟨by omega, hlast⟩]
          omega
        · have hneg := i32_neg (not_lt.mp hlast) (by omega)
          omega
      · omega

theorem stop_preserves (t : PrintJob) {endcode : Text} {r : Bool}
    (hd : stopPrint atof t.driver endcode = some (r, d')) :
    Preserves t (.stopPrint endcode) ⟨d', accepted t.driver.gcodeBuffer.clear endcode none⟩ := by
  obtain ⟨⟨gsr, d₁⟩, hset, hd⟩ := Option.bind_eq_some_iff.mp hd
  change startPrint atof d₁ .stopping = some (r, d') at hd
  obtain ⟨hnot, -, -, hclear⟩ := resetPrint_eq t.driver
  have hp : d₁.isPrinting = false := (setGCode_stores hset).isPrinting.trans hnot
  have hcall := setGCode_calls hset
  unfold GCodeBuffer.set at hcall
  rw [hclear] at hcall
  obtain ⟨s, hs, hlines⟩ := (tracks_clear t.driver.gcodeBuffer).append_accepted hcall
  obtain ⟨-, hsame⟩ := (tracks_clear t.driver.gcodeBuffer).append_currentLine le_rfl hcall
  have hlen := length_accepted_le t.driver.gcodeBuffer.clear endcode none
  have hmax : maxBufferSize = 3145728 := by decide
  rw [List.nil_append] at hs
  have hfits : (accepted t.driver.gcodeBuffer.clear endcode none).length < 2 ^ 31 := by omega
  have hzero : d₁.gcodeBuffer.currentLine = 0 := hsame (by rw [List.length_nil]; omega)
  have hl : s.lines = accepted t.driver.gcodeBuffer.clear endcode none := by
    rw [hlines]
    rfl
  unfold Preserves
  cases ho : d₁.isPrinterOnline with
  | false =>
    rw [startPrint, AbstractDriver.startPrint_offline ho] at hd
    cases hd
    obtain ⟨hshows, hsound⟩ := resting hs hfits hp hzero
    exact ⟨iff_of_true hshows trivial, fun _ => hsound⟩
  | true =>
    obtain ⟨hs', ⟨hpos, hnext, hstate, hc⟩ | ⟨-, hstate, hc⟩⟩ :=
      startPrint_counts hs hfits ho hp (.inr rfl) hd
    · have hprinting := AbstractDriver.isPrinting_of_state (.inr hstate)
      rw [hl] at hpos
      refine ⟨iff_of_true ?_ trivial, fun _ => sound_of_printing hs' hfits hnext hprinting (by omega)⟩
      rw [showsProgress_iff hs' hfits, hc, hl]
      exact ⟨by norm_num, by omega, fun _ => by ring⟩
    · obtain ⟨hshows, hsound⟩ := resting hs' hfits (AbstractDriver.isPrinting_of_idle hstate) hc
      exact ⟨iff_of_true hshows trivial, fun _ => hsound⟩

theorem quiet_preserves (hsound : t.Sound) (hshows : t.ShowsProgress)
    (hg : d'.gcodeBuffer = t.driver.gcodeBuffer) (hstate : d'.state = t.driver.state ∨ d'.state = .idle)
    (hoffline : d'.isPrinterOnline = false → t.driver.isPrinterOnline = false) :
    ShowsProgress ⟨d', t.appended⟩ ∧ Sound ⟨d', t.appended⟩ := by
  obtain ⟨⟨s, hs⟩, hfits, hnext, hclamped, hzero⟩ := hsound
  obtain ⟨hnonneg, hbound, hprinting⟩ := (showsProgress_iff hs hfits).mp hshows
  have hp : d'.isPrinting = true → t.driver.isPrinting = true := by
    intro h
    rcases hstate with hstate | hstate
    · rwa [← AbstractDriver.isPrinting_congr hstate]
    · rw [AbstractDriver.isPrinting_of_idle hstate] at h
      cases h
  have hs' : d'.gcodeBuffer.Tracks s t.appended := hg ▸ hs
  constructor
  · rw [showsProgress_iff hs' hfits, hg]
    exact ⟨hnonneg, hbound, fun h => hprinting (hp h)⟩
  · refine ⟨⟨s, hs'⟩, hfits, fun h => ?_, ?_, fun h => ?_⟩
    · change 0 < d'.gcodeBuffer.getNextLine.1
      rw [hg]
      exact hnext (hp h)
    · change d'.gcodeBuffer.currentLine ≤ d'.gcodeBuffer.totalLinesSent
      rwa [hg]
    · change d'.gcodeBuffer.currentLine = 0
      rw [hg]
      exact hzero (hoffline h)

theorem ok_preserves (hsound : t.Sound) (hshows : t.ShowsProgress) (hp : t.driver.isPrinting = true)
    {n : ℤ} {g : GCodeBuffer} (he : t.driver.gcodeBuffer.eraseLine = some (n, g))
    (hd : printNextLine atof { t.driver with gcodeBuffer := g } = some d') :
    ShowsProgress ⟨d', t.appended⟩ ∧ Sound ⟨d', t.appended⟩ := by
  obtain ⟨⟨s, hs⟩, hfits, hnext, -, -⟩ := hsound
  obtain ⟨-, -, hle, hpos⟩ := hs.counters hfits
  have hline := ((showsProgress_iff hs hfits).mp hshows).2.2 hp
  obtain ⟨l, ls, hlines⟩ := List.exists_cons_of_length_pos (hpos.mp (hnext hp))
  obtain ⟨n', g', s', he', hs', hlines'⟩ := hs.eraseLine_one hlines
  have heq := he'.symm.trans he
  cases heq
  have hframe := eraseLine_frame he
  have hcurrent : g.currentLine = t.driver.gcodeBuffer.currentLine := by rw [hframe]
  have hlen : s.lines.length = s'.lines.length + 1 := by rw [hlines, hlines', List.length_cons]
  have ho := AbstractDriver.isPrinterOnline_of_isPrinting hp
  have hcases := printNextLine_counts_online (d := { t.driver with gcodeBuffer := g }) hs' hfits ho hd
  obtain ⟨hs'', ⟨hl', hnext', hstate, hc⟩ | ⟨-, hstate, hc⟩⟩ := hcases
  · change _ = min (i32 (g.currentLine + 1)) _ at hc
    rw [hcurrent, hline, i32_eq ⟨by omega, by omega⟩] at hc
    have hp' : d'.isPrinting = true := (AbstractDriver.isPrinting_congr hstate).trans hp
    constructor
    · rw [showsProgress_iff hs'' hfits, hc]
      exact ⟨by omega, by omega, fun _ => by omega⟩
    · exact sound_of_printing hs'' hfits hnext' hp' (by omega)
  · exact resting hs'' hfits (AbstractDriver.isPrinting_of_idle hstate) hc

/-- A request to send again takes one from the counter, which sending adds again. -/
theorem resend_preserves (hsound : t.Sound) (hshows : t.ShowsProgress)
    (hoffline : d'.isPrinterOnline = false → t.driver.isPrinterOnline = false)
    (hd : printNextLine atof { t.driver with
      gcodeBuffer := t.driver.gcodeBuffer.setCurrentLine (i32 (t.driver.gcodeBuffer.getCurrentLine - 1)) } =
        some d') :
    (ShowsProgress ⟨d', t.appended⟩ ↔
        0 < t.driver.gcodeBuffer.getNextLine.1 ∨ t.driver.isPrinterOnline = true) ∧
      (ShowsProgress ⟨d', t.appended⟩ → Sound ⟨d', t.appended⟩) := by
  obtain ⟨⟨s, hs⟩, hfits, -, hclamped, hzero⟩ := hsound
  obtain ⟨-, -, hle, hpos⟩ := hs.counters hfits
  obtain ⟨hnonneg, hbound, hprinting⟩ := (showsProgress_iff hs hfits).mp hshows
  rw [hpos]
  have hback : (t.driver.gcodeBuffer.setCurrentLine
      (i32 (t.driver.gcodeBuffer.getCurrentLine - 1))).currentLine = t.driver.gcodeBuffer.currentLine - 1 := by
    change min (i32 (t.driver.gcodeBuffer.currentLine - 1)) t.driver.gcodeBuffer.totalLinesSent = _
    rw [i32_eq ⟨by omega, by omega⟩]
    omega
  obtain ⟨hs', ⟨hl, hnext', hstate, hc⟩ | ⟨hl, ho, hstate, hc⟩ | ⟨hl, ho, he⟩⟩ :=
    printNextLine_counts (hs.setCurrentLine _) hfits hd
  · change t.driver.gcodeBuffer.currentLine ≤ t.driver.gcodeBuffer.totalLinesSent at hclamped
    dsimp only at hc
    rw [hback, i32_eq ⟨by omega, by omega⟩, sub_add_cancel, min_eq_left hbound] at hc
    refine ⟨iff_of_true ?_ (.inl hl), fun _ => sound_of_next hs' hfits hnext' (hc ▸ hbound) fun h => ?_⟩
    · rw [showsProgress_iff hs' hfits, hc, AbstractDriver.isPrinting_congr hstate]
      exact ⟨hnonneg, hbound, hprinting⟩
    · rw [hc]
      exact hzero (hoffline h)
  · have hrest := resting hs' hfits (AbstractDriver.isPrinting_of_idle hstate) hc
    exact ⟨iff_of_true hrest.1 (.inr ho), fun _ => hrest.2⟩
  · have hneg : ¬ ShowsProgress ⟨d', t.appended⟩ := by
      intro h
      have hnonneg' : 0 ≤ d'.gcodeBuffer.currentLine := h.nonneg
      rw [he] at hnonneg'
      dsimp only at hnonneg'
      rw [hback, hzero ho] at hnonneg'
      omega
    refine ⟨iff_of_false hneg fun h => ?_, fun h => absurd h hneg⟩
    rcases h with h | h
    · omega
    · change t.driver.isPrinterOnline = false at ho
      rw [ho] at h
      cases h

theorem response_preserves (hsound : t.Sound) (hshows : t.ShowsProgress) {code : Text}
    (hd : readResponseCode atof t.driver code = some d') : Preserves t (.response code) ⟨d', t.appended⟩ := by
  have hoffline : d'.isPrinterOnline = false → t.driver.isPrinterOnline = false := by
    intro ho
    cases (MarlinEvent.connects_of_hears (readResponseCode_hears hd)).2 with
    | keeps _ honline => rw [← honline, ho]
    | establishes _ _ _ _ hs =>
      rw [AbstractDriver.isPrinterOnline_of_idle hs] at ho
      cases ho
  unfold Preserves
  simp only [KeepsProgress]
  rcases readResponseCode_cases hd with ⟨hr, hg, hstate⟩ | ⟨hr, hp, n, g, he, hd⟩ | ⟨hr, hd⟩
  · have hquiet := quiet_preserves hsound hshows hg hstate hoffline
    exact ⟨iff_of_true hquiet.1 fun h => absurd h hr, fun _ => hquiet.2⟩
  · have hok := ok_preserves hsound hshows hp he hd
    exact ⟨iff_of_true hok.1 fun h => absurd h hr, fun _ => hok.2⟩
  · rw [imp_iff_right hr]
    exact resend_preserves hsound hshows hoffline hd

/-! ### Runs -/

theorem step_preserves (hsound : t.Sound) (hshows : t.ShowsProgress) (hstep : t.Step atof e t') :
    Preserves t e t' := by
  obtain ⟨d', app'⟩ := t'
  obtain ⟨hexec, rfl⟩ := hstep
  cases e with
  | appendGCode gcode totalLines metaData =>
    obtain ⟨⟨r, d₁⟩, hd, rfl⟩ := Option.map_eq_some_iff.mp hexec
    exact append_preserves hsound hshows hd
  | clearGCode =>
    cases hexec
    exact clear_preserves t
  | startPrint =>
    obtain ⟨⟨r, d₁⟩, hd, rfl⟩ := Option.map_eq_some_iff.mp hexec
    exact start_preserves hsound hshows hd
  | stopPrint endcode =>
    obtain ⟨⟨r, d₁⟩, hd, rfl⟩ := Option.map_eq_some_iff.mp hexec
    exact stop_preserves t hd
  | response code => exact response_preserves hsound hshows hexec

/-- A buffer that ran empty and is filled again: the second print starts at line 1, not at line 2. -/
theorem progress_of_refilled :
    ¬ ∀ (es : List DriverEvent) (t : PrintJob), Run (Step fun _ => 0) init es t → t.ShowsProgress := by
  intro h
  let d₁ : MarlinDriver := { MarlinEvent.opened with
    heating := true
    state := .idle
    checkConnection := false
    checkTemperatureInterval := 1500 }
  let g : GCodeBuffer := { buckets := [ascii "G1\n"], bufferedLines := 1, totalLinesSent := 1, bufferSize := 3 }
  let d₂ : MarlinDriver := { d₁ with gcodeBuffer := g, state := .buffering }
  let d₃ : MarlinDriver := { d₂ with
    gcodeBuffer := { g with currentLine := 1 }
    state := .printing
    written := [ascii "G1\n"] }
  let d₄ : MarlinDriver := { d₃ with gcodeBuffer := { totalLinesSent := 1 }, state := .idle }
  let g' : GCodeBuffer :=
    { buckets := [ascii "G2\n"], bufferedLines := 1, totalLinesSent := 2, bufferSize := 3 }
  let d₅ : MarlinDriver := { d₄ with gcodeBuffer := g', state := .buffering }
  let d₆ : MarlinDriver := { d₅ with
    gcodeBuffer := { g' with currentLine := 1 }
    state := .printing
    written := [ascii "G1\n", ascii "G2\n"] }
  have h₁ : init.Step (fun _ => 0) (.response (ascii "T:0")) ⟨d₁, []⟩ := ⟨by decide, by decide⟩
  have h₂ : Step (fun _ => 0) ⟨d₁, []⟩ (.appendGCode (ascii "G1") (-1) none) ⟨d₂, [ascii "G1"]⟩ :=
    ⟨by decide, by decide⟩
  have h₃ : Step (fun _ => 0) ⟨d₂, [ascii "G1"]⟩ .startPrint ⟨d₃, [ascii "G1"]⟩ := ⟨by decide, by decide⟩
  have h₄ : Step (fun _ => 0) ⟨d₃, [ascii "G1"]⟩ (.response (ascii "ok")) ⟨d₄, [ascii "G1"]⟩ :=
    ⟨by decide, by decide⟩
  have h₅ : Step (fun _ => 0) ⟨d₄, [ascii "G1"]⟩ (.appendGCode (ascii "G2") (-1) none)
      ⟨d₅, [ascii "G1", ascii "G2"]⟩ := ⟨by decide, by decide⟩
  have h₆ : Step (fun _ => 0) ⟨d₅, [ascii "G1", ascii "G2"]⟩ .startPrint ⟨d₆, [ascii "G1", ascii "G2"]⟩ :=
    ⟨by decide, by decide⟩
  have hshows := h _ _ (.cons h₁ (.cons h₂ (.cons h₃ (.cons h₄ (.cons h₅ (.cons h₆ (.nil _)))))))
  exact absurd (hshows.printing rfl) (by decide)

/-- In every run the current line is right in all states, if and only if every event keeps it right. -/
theorem showsProgress_iff_keepsProgress {es : List DriverEvent} :
    RunWith (Step atof) (fun _ _ t => t.ShowsProgress) init es t ↔
      RunWith (Step atof) (fun t e _ => t.KeepsProgress e) init es t := by
  refine runWith_iff (fun t _ => t.Sound ∧ t.ShowsProgress) ?_ ?_ ⟨sound_init, showsProgress_init⟩
  · intro t e es t' h hstep
    exact (step_preserves h.1 h.2 hstep).1
  · intro t e es t' h hstep hshows
    exact ⟨(step_preserves h.1 h.2 hstep).2 hshows, hshows⟩

end PrintJob
end Print3D
