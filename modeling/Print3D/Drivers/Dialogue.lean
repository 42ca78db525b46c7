import Print3D.Drivers.MarlinRuns

/-! The Marlin driver with a printer that answers every line it receives, once and in order.
The parameter `isM105` says which lines the printer answers with its temperatures. -/
namespace Print3D
open GCodeBuffer MarlinDriver Transition

/-- A line the printer has been sent, and whether it was taken from the gcode buffer. -/
structure SentLine where
  line : Text
  buffered : Bool
  deriving DecidableEq

/-- A driver, and the lines to its printer whose answers it has not processed, oldest first. -/
structure Dialogue where
  driver : MarlinDriver
  unanswered : List SentLine := []
  deriving DecidableEq

inductive DialogueEvent
  | call (e : MarlinEvent)
  | answer (code : Text)
  deriving DecidableEq

/-- The texts of gcode are C strings, as all callers of the driver have them. -/
def MarlinEvent.NulFree : MarlinEvent → Prop
  | .setGCode gcode _ _ => 0 ∉ gcode
  | .other e => e.NulFree
  | _ => True

namespace Dialogue

variable {atof : Text → Int32} {isM105 : Text → Bool} {s t : Dialogue} {l : DialogueEvent}

/-- The printer's answer to a line: a temperature report or an acknowledgement. -/
def Answers (isM105 : Text → Bool) (line code : Text) : Prop :=
  if isM105 line then ascii "ok T:" <+: code else Acknowledges code

instance (isM105 : Text → Bool) (line code : Text) : Decidable (Answers isM105 line code) := by
  unfold Answers Acknowledges ReportsTemperature
  infer_instance

def sentLines (buffered : Bool) (ws : List Text) : List SentLine := ws.map fun w => ⟨w, buffered⟩

/-- In a step the driver writes `ws`. -/
inductive Step (atof : Text → Int32) (isM105 : Text → Bool) (s : Dialogue) : DialogueEvent → Dialogue → Prop
  | call {e : MarlinEvent} {t : Dialogue} (ws : List Text) :
      ¬ e.IsResponse → ¬ e.IsOpening → e.NulFree → e.exec atof s.driver = some t.driver →
      t.driver.written = s.driver.written ++ ws →
      t.unanswered = s.unanswered ++ sentLines (!e.isOwnCommand) ws → Step atof isM105 s (.call e) t
  | answer {code : Text} {t : Dialogue} (q : SentLine) (rest : List SentLine) (ws : List Text) :
      s.unanswered = q :: rest → Answers isM105 q.line code →
      s.driver.readResponseCode atof code = some t.driver →
      t.driver.written = s.driver.written ++ ws → t.unanswered = rest ++ sentLines true ws →
      Step atof isM105 s (.answer code) t

def init (ssrOk : Bool) : Dialogue :=
  { driver := { toAbstractDriver := (AbstractDriver.openConnection {} 0 ssrOk).2 } }

def outstanding (unanswered : List SentLine) : ℕ := unanswered.countP (·.buffered)

@[simp] theorem outstanding_append (us vs : List SentLine) :
    outstanding (us ++ vs) = outstanding us + outstanding vs := List.countP_append

@[simp] theorem outstanding_cons (q : SentLine) (us : List SentLine) :
    outstanding (q :: us) = outstanding us + if q.buffered then 1 else 0 := List.countP_cons

@[simp] theorem outstanding_sentLines_true (ws : List Text) : outstanding (sentLines true ws) = ws.length := by
  simp [outstanding, sentLines, List.countP_map, Function.comp_def]

@[simp] theorem outstanding_sentLines_false (ws : List Text) : outstanding (sentLines false ws) = 0 := by
  simp [outstanding, sentLines, List.countP_map, Function.comp_def]

/-! ### One step -/

/-- What all steps keep. -/
structure Running (s : Dialogue) : Prop where
  isConnected : s.driver.isConnected = true
  checked : MarlinEvent.Checked s.driver

theorem running_init (ssrOk : Bool) : (init ssrOk).Running := by
  cases ssrOk <;> exact ⟨by decide, by unfold MarlinEvent.Checked; decide⟩

theorem Running.step (h : s.Running) (hstep : s.Step atof isM105 l t) : t.Running := by
  cases hstep with
  | call ws _ ho _ he =>
    obtain ⟨hc, hconnects⟩ := MarlinEvent.connects ho he
    exact ⟨hc.trans h.isConnected, hconnects.checked h.checked⟩
  | @answer code _ q rest ws _ _ he =>
    have hresponse : MarlinEvent.Step atof s.driver (.other (.response code)) t.driver := he
    obtain ⟨hc, hconnects⟩ := MarlinEvent.connects id hresponse
    exact ⟨hc.trans h.isConnected, hconnects.checked h.checked⟩

theorem Running.checkConnection (h : s.Running) (hp : s.driver.isPrinting = true) :
    s.driver.checkConnection = false := h.checked.mp (AbstractDriver.isPrinterOnline_of_isPrinting hp)

theorem eq_nil_of_silent {d d' : MarlinDriver} {ws : List Text} (h : d'.written = d.written)
    (hw : d'.written = d.written ++ ws) : ws = [] := by
  rw [h] at hw
  exact List.self_eq_append_right.mp hw

theorem length_of_sendsNext {g : GCodeBuffer} {d d' : MarlinDriver} {ws : List Text} (hd : d.isConnected = true)
    (h : SendsNext g d d') (hw : d'.written = d.written ++ ws) : ws.length = 1 := by
  rw [h.written, List.append_cancel_left_eq, if_pos hd] at hw
  rw [← hw]
  rfl

theorem call_outstanding {e : MarlinEvent} (h : s.Running) (hstep : s.Step atof isM105 (.call e) t) :
    (outstanding t.unanswered = outstanding s.unanswered ∧
        (t.driver.isPrinting = true → s.driver.isPrinting = true)) ∨
      (e.Starts ∧ outstanding t.unanswered = outstanding s.unanswered + 1 ∧ t.driver.isPrinting = true) := by
  cases hstep with
  | call ws hr _ _ he hw hu =>
    rw [hu, outstanding_append]
    cases MarlinEvent.affects hr he with
    | command hown hp =>
      refine .inl ⟨?_, fun hp' => hp ▸ hp'⟩
      rw [hown, Bool.not_true, outstanding_sentLines_false, Nat.add_zero]
    | quiet _ hsilent hp =>
      refine .inl ⟨?_, hp⟩
      rw [eq_nil_of_silent hsilent hw]
      rfl
    | sends hstarts hsends hp =>
      refine .inr ⟨hstarts, ?_, hp⟩
      have hown : e.isOwnCommand = false := by
        cases e <;> first | rfl | cases hstarts
      rw [hown, Bool.not_false, outstanding_sentLines_true, length_of_sendsNext h.isConnected hsends hw]

/-- What the driver does with the answer to the line `q`. -/
inductive Answered (isM105 : Text → Bool) (d : MarlinDriver) (q : SentLine) (rest : List SentLine)
    (t : Dialogue) : Prop
  | temperature : isM105 q.line = true → t.unanswered = rest → t.driver.isPrinting = d.isPrinting →
      Answered isM105 d q rest t
  | sends {n : ℤ} {g : GCodeBuffer} : isM105 q.line = false → d.isPrinting = true →
      d.gcodeBuffer.eraseLine = some (n, g) → 0 < g.getNextLine.1 →
      outstanding t.unanswered = outstanding rest + 1 → t.driver.isPrinting = true → Answered isM105 d q rest t
  | finished {n : ℤ} {g : GCodeBuffer} : isM105 q.line = false → d.isPrinting = true →
      d.gcodeBuffer.eraseLine = some (n, g) → ¬ 0 < g.getNextLine.1 → t.unanswered = rest →
      t.driver.isPrinting = false → Answered isM105 d q rest t
  | ignored : isM105 q.line = false → d.isPrinting = false → t.unanswered = rest → t.driver.isPrinting = false →
      Answered isM105 d q rest t

theorem answered {code : Text} (h : s.Running) (hstep : s.Step atof isM105 (.answer code) t) :
    ∃ q rest, s.unanswered = q :: rest ∧ Answered isM105 s.driver q rest t := by
  cases hstep with
  | answer q rest ws hq hanswers he hw hu =>
    refine ⟨q, rest, hq, ?_⟩
    have hsilent : t.driver.written = s.driver.written → t.unanswered = rest := fun hs => by
      rw [hu, eq_nil_of_silent hs hw]
      exact List.append_nil rest
    unfold Answers at hanswers
    cases hm : isM105 q.line with
    | true =>
      rw [hm, if_pos rfl] at hanswers
      have ht : ReportsTemperature code := .inl hanswers
      cases readResponseCode_hears he with
      | connects _ hc hs _ hi =>
        refine .temperature hm (hsilent hs.written) ((AbstractDriver.isPrinting_of_idle hi).trans ?_)
        by_contra hp
        have hcheck := h.checkConnection (by simpa using hp)
        rw [hc] at hcheck
        cases hcheck
      | temperature _ _ hs _ hsame =>
        exact .temperature hm (hsilent hs.written) (AbstractDriver.isPrinting_congr hsame)
      | next hk => exact absurd ht hk.2
      | finished hk => exact absurd ht hk.2
      | again hr => exact absurd hr (not_asksResend_of_reportsTemperature ht)
      | nothingAgain hr => exact absurd hr (not_asksResend_of_reportsTemperature ht)
      | ignored hn => exact absurd ht hn
    | false =>
      rw [hm, if_neg Bool.false_ne_true] at hanswers
      cases readResponseCode_hears he with
      | connects ht => exact absurd ht hanswers.2
      | temperature ht => exact absurd ht hanswers.2
      | next _ hp he hsends _ hs =>
        refine .sends hm hp he hsends.next ?_ ((AbstractDriver.isPrinting_congr hs).trans hp)
        rw [hu, outstanding_append, outstanding_sentLines_true, length_of_sendsNext h.isConnected hsends hw]
      | finished _ hp he hnext hs _ hi =>
        exact .finished hm hp he hnext (hsilent hs.written) (AbstractDriver.isPrinting_of_idle hi)
      | again hr => exact absurd hanswers.1 hr.1
      | nothingAgain hr => exact absurd hanswers.1 hr.1
      | ignored _ _ hnot he =>
        refine .ignored hm (hnot hanswers) (hsilent (by rw [he])) ?_
        rw [he]
        exact hnot hanswers

/-! ### No stall -/

/-- While the driver prints, a line of the buffer is unanswered. -/
def Waits (s : Dialogue) : Prop := s.driver.isPrinting = true → 0 < outstanding s.unanswered

/-- The only unanswered line of the buffer asks for the temperatures, and its answer is processed
while the driver prints. -/
def Stalls (isM105 : Text → Bool) (s : Dialogue) : DialogueEvent → Prop
  | .answer _ => s.driver.isPrinting = true ∧ ∃ q rest, s.unanswered = q :: rest ∧ q.buffered = true ∧
      isM105 q.line = true ∧ outstanding rest = 0
  | .call _ => False

theorem Running.step_waits_iff (h : s.Running) (hwaits : s.Waits) (hstep : s.Step atof isM105 l t) :
    t.Waits ↔ ¬ s.Stalls isM105 l := by
  cases l with
  | call e =>
    refine iff_of_true (fun hp => ?_) id
    rcases call_outstanding h hstep with ⟨hsame, hp'⟩ | ⟨-, hnext, -⟩
    · rw [hsame]
      exact hwaits (hp' hp)
    · omega
  | answer code =>
    obtain ⟨q, rest, hq, hanswered⟩ := answered h hstep
    have hacknowledged : isM105 q.line = false → ¬ s.Stalls isM105 (.answer code) := by
      rintro hm ⟨-, q', rest', hq', -, hm', -⟩
      rw [hq, List.cons.injEq] at hq'
      rw [← hq'.1, hm] at hm'
      cases hm'
    cases hanswered with
    | temperature hm hrest hp =>
      unfold Waits Stalls
      rw [hrest, hp]
      constructor
      · rintro hpos ⟨hprinting, q', rest', hq', -, -, hzero⟩
        rw [hq, List.cons.injEq] at hq'
        rw [← hq'.2] at hzero
        exact absurd (hpos hprinting) (by omega)
      · intro hstall hprinting
        have hpos := hwaits hprinting
        rw [hq, outstanding_cons] at hpos
        by_contra hzero
        cases hbuffered : q.buffered with
        | false =>
          rw [hbuffered] at hpos
          exact hzero hpos
        | true => exact hstall ⟨hprinting, q, rest, hq, hbuffered, hm, by omega⟩
    | sends hm _ _ _ hnext => exact iff_of_true (fun _ => by omega) (hacknowledged hm)
    | finished hm _ _ _ _ hp' | ignored hm _ _ hp' =>
      refine iff_of_true (fun hp => ?_) (hacknowledged hm)
      rw [hp'] at hp
      cases hp

private def beginsM105 (w : Text) : Bool := ascii "M105" <+: w

private def online : Dialogue :=
  { driver :=
      { (init true).driver with
        state := .idle
        checkConnection := false
        checkTemperatureInterval := 1500
        heating := false
        written := [ascii "M105\n"] } }

private theorem steps_online : ∃ s : Dialogue, s.driver.isPrinting = false ∧
    (init true).Step (fun _ => 0) beginsM105 (.call .checkTemperature) s ∧
    s.Step (fun _ => 0) beginsM105 (.answer (ascii "ok T:0")) online := by
  refine ⟨{
    driver := { (init true).driver with written := [ascii "M105\n"] }
    unanswered := [⟨ascii "M105\n", false⟩] }, rfl, ?_, ?_⟩
  · exact .call [ascii "M105\n"] id id trivial (by decide) (by decide) (by decide)
  · exact .answer ⟨ascii "M105\n", false⟩ [] [] (by decide) (by decide) (by decide) (by decide) (by decide)

private theorem run_online : Run (Step (fun _ => 0) beginsM105) (init true)
    [.call .checkTemperature, .answer (ascii "ok T:0")] online := by
  obtain ⟨s, -, h₁, h₂⟩ := steps_online
  exact .cons h₁ (.cons h₂ (.nil online))

/-- A run that ends with a driver that waits for nothing: its only line asks for the temperatures. -/
theorem waits_stalled : ¬ ∀ (ls : List DialogueEvent) (s : Dialogue),
    Run (Step (fun _ => 0) beginsM105) (init true) ls s → s.Waits := by
  intro h
  let g : GCodeBuffer :=
    { buckets := [ascii "M105\n"], bufferedLines := 1, totalLinesSent := 1, bufferSize := 5 }
  let s₁ : Dialogue := { online with driver := { online.driver with
    state := .buffering
    gcodeBuffer := g } }
  let s₂ : Dialogue :=
    { driver := { online.driver with
        state := .printing
        gcodeBuffer := { g with currentLine := 1 }
        written := online.driver.written ++ [ascii "M105\n"] }
      unanswered := [⟨ascii "M105\n", true⟩] }
  let s₃ : Dialogue := { driver := { s₂.driver with checkTemperatureInterval := 5000 } }
  have h₁ : online.Step (fun _ => 0) beginsM105 (.call (.other (.appendGCode (ascii "M105") (-1) none))) s₁ :=
    .call [] id id (by change 0 ∉ ascii "M105"; decide) (by decide) (by decide) (by decide)
  have h₂ : s₁.Step (fun _ => 0) beginsM105 (.call (.other .startPrint)) s₂ :=
    .call [ascii "M105\n"] id id trivial (by decide) (by decide) (by decide)
  have h₃ : s₂.Step (fun _ => 0) beginsM105 (.answer (ascii "ok T:0")) s₃ :=
    .answer ⟨ascii "M105\n", true⟩ [] [] (by decide) (by decide) (by decide) (by decide) (by decide)
  have hrun := run_online.append (.cons h₁ (.cons h₂ (.cons h₃ (.nil s₃))))
  exact absurd (h _ _ hrun rfl) (by decide)

/-- In every run a printing driver waits for an answer to a line of the buffer in all states, if
and only if no step stalls. -/
theorem waits_iff {ssrOk : Bool} {ls : List DialogueEvent} :
    RunWith (Step atof isM105) (fun _ _ t => t.Waits) (init ssrOk) ls s ↔
      RunWith (Step atof isM105) (fun s l _ => ¬ s.Stalls isM105 l) (init ssrOk) ls s :=
  runWith_iff (fun s _ => s.Running ∧ s.Waits) (fun _ _ _ _ h hstep => h.1.step_waits_iff h.2 hstep)
    (fun _ _ _ _ h hstep hwaits => ⟨h.1.step hstep, hwaits⟩)
    ⟨running_init ssrOk, fun hp => by cases ssrOk <;> exact absurd hp (by decide)⟩

/-! ### The send window -/

/-- An acknowledgement of a line that is not of the buffer is taken for one of the line in flight,
and there is another line to send. -/
def Overruns (isM105 : Text → Bool) (s : Dialogue) : DialogueEvent → Prop
  | .answer _ => s.driver.isPrinting = true ∧
      (∃ q rest, s.unanswered = q :: rest ∧ q.buffered = false ∧ isM105 q.line = false ∧ 0 < outstanding rest) ∧
      ∃ n g, s.driver.gcodeBuffer.eraseLine = some (n, g) ∧ 0 < g.getNextLine.1
  | .call _ => False

end Dialogue

/-- Appends, starts, heatups, temperature queries and answers. -/
def DialogueEvent.OfPrint : DialogueEvent → Prop
  | .call (.other (.appendGCode ..)) | .call (.other .startPrint) | .call (.heatup _) | .call .checkTemperature
  | .answer _ => True
  | _ => False

def DialogueEvent.isStart : DialogueEvent → Bool
  | .call (.other .startPrint) => true
  | _ => false

namespace Dialogue

variable {atof : Text → Int32} {isM105 : Text → Bool} {s t : Dialogue} {l : DialogueEvent}

/-- At most one line is in flight, and none before the print has started. -/
structure Windowed (s : Dialogue) (ls : List DialogueEvent) : Prop extends Running s where
  window : outstanding s.unanswered ≤ 1
  ofPrint : ∀ l ∈ ls, l.OfPrint
  starts : ls.countP (·.isStart) ≤ 1
  notStarted : 0 < ls.countP (·.isStart) → s.driver.isPrinting = false ∧ outstanding s.unanswered = 0

theorem isStart_of_starts {e : MarlinEvent} (h : e.Starts) (hl : (DialogueEvent.call e).OfPrint) :
    (DialogueEvent.call e).isStart = true := by
  cases e with
  | other e => cases e <;> first | rfl | exact hl.elim | exact h.elim
  | _ => cases h

theorem outstanding_tail_le (q : SentLine) (us : List SentLine) : outstanding us ≤ outstanding (q :: us) := by
  rw [outstanding_cons]
  exact Nat.le_add_right _ _

theorem Windowed.step_window_iff {ls : List DialogueEvent} (h : s.Windowed (l :: ls))
    (hstep : s.Step atof isM105 l t) : outstanding t.unanswered ≤ 1 ↔ ¬ s.Overruns isM105 l := by
  cases l with
  | call e =>
    refine iff_of_true ?_ id
    rcases call_outstanding h.toRunning hstep with ⟨hsame, -⟩ | ⟨hstarts, hnext, -⟩
    · rw [hsame]
      exact h.window
    · have hstart := isStart_of_starts hstarts (h.ofPrint _ (List.mem_cons_self ..))
      have hzero := (h.notStarted (List.countP_pos_iff.mpr ⟨_, List.mem_cons_self .., hstart⟩)).2
      omega
  | answer code =>
    obtain ⟨q, rest, hq, hanswered⟩ := answered h.toRunning hstep
    have hwindow := h.window
    rw [hq] at hwindow
    have hrest : outstanding rest ≤ 1 := (outstanding_tail_le q rest).trans hwindow
    cases hanswered with
    | temperature hm ht _ =>
      rw [ht]
      refine iff_of_true hrest ?_
      rintro ⟨-, ⟨q', rest', hq', -, hm', -⟩, -⟩
      rw [hq, List.cons.injEq] at hq'
      rw [← hq'.1, hm] at hm'
      cases hm'
    | sends hm hp he hnext ht _ =>
      rw [ht]
      constructor
      · rintro hle ⟨-, ⟨q', rest', hq', -, -, hpos⟩, -⟩
        rw [hq, List.cons.injEq] at hq'
        rw [← hq'.2] at hpos
        omega
      · intro hover
        by_contra hgt
        rw [outstanding_cons] at hwindow
        cases hbuffered : q.buffered with
        | true =>
          rw [hbuffered, if_pos rfl] at hwindow
          omega
        | false => exact hover ⟨hp, ⟨q, rest, hq, hbuffered, hm, by omega⟩, _, _, he, hnext⟩
    | finished _ _ he hnext ht _ =>
      rw [ht]
      refine iff_of_true hrest ?_
      rintro ⟨-, -, n', g', he', hnext'⟩
      rw [he] at he'
      cases he'
      exact hnext hnext'
    | ignored _ hp ht _ =>
      rw [ht]
      exact iff_of_true hrest fun hover => absurd (hp.symm.trans hover.1) (by decide)

theorem Windowed.step {ls : List DialogueEvent} (h : s.Windowed (l :: ls)) (hstep : s.Step atof isM105 l t)
    (hwindow : outstanding t.unanswered ≤ 1) : t.Windowed ls := by
  have hstarts := h.starts
  rw [List.countP_cons] at hstarts
  refine ⟨h.toRunning.step hstep, hwindow, fun l hl => h.ofPrint l (List.mem_cons_of_mem _ hl), by omega, ?_⟩
  intro hpos
  obtain ⟨hp, hzero⟩ := h.notStarted (by rw [List.countP_cons]; omega)
  cases l with
  | call e =>
    rcases call_outstanding h.toRunning hstep with ⟨hsame, hp'⟩ | ⟨he, -, -⟩
    · refine ⟨?_, hsame.trans hzero⟩
      by_contra hprinting
      rw [hp' (by simpa using hprinting)] at hp
      cases hp
    · rw [isStart_of_starts he (h.ofPrint _ (List.mem_cons_self ..)), if_pos rfl] at hstarts
      omega
  | answer code =>
    obtain ⟨q, rest, hq, hanswered⟩ := answered h.toRunning hstep
    rw [hq] at hzero
    have hrest : outstanding rest = 0 := Nat.eq_zero_of_le_zero ((outstanding_tail_le q rest).trans_eq hzero)
    cases hanswered with
    | temperature _ ht hp' => exact ⟨hp'.trans hp, by rw [ht, hrest]⟩
    | sends _ hp' =>
      rw [hp] at hp'
      cases hp'
    | finished _ _ _ _ ht hp' => exact ⟨hp', by rw [ht, hrest]⟩
    | ignored _ _ ht hp' => exact ⟨hp', by rw [ht, hrest]⟩

/-- In every run with one start, at most one line of the buffer is in flight in all states, if and
only if no step overruns. -/
theorem window_iff {ssrOk : Bool} {ls : List DialogueEvent} (hprint : ∀ l ∈ ls, l.OfPrint)
    (hstart : ls.countP (·.isStart) ≤ 1) :
    RunWith (Step atof isM105) (fun _ _ t => outstanding t.unanswered ≤ 1) (init ssrOk) ls s ↔
      RunWith (Step atof isM105) (fun s l _ => ¬ s.Overruns isM105 l) (init ssrOk) ls s := by
  refine runWith_iff Windowed (fun _ _ _ _ h hstep => h.step_window_iff hstep)
    (fun _ _ _ _ h hstep hwindow => h.step hstep hwindow) ?_
  refine ⟨running_init ssrOk, Nat.zero_le 1, hprint, hstart, fun _ => ⟨?_, rfl⟩⟩
  cases ssrOk <;> rfl

/-- Two lines are printed, with a heatup command between them whose acknowledgement counts for the second. -/
theorem window_iff_heatup : ∃ s : Dialogue, s.unanswered = [] ∧
    s.driver.written = [ascii "M105\n", ascii "G1\n", ascii "M104 S200\n", ascii "G2\n"] ∧
    RunWith (Step (fun _ => 0) beginsM105) (fun _ _ t => outstanding t.unanswered ≤ 1) (init true)
      [.call .checkTemperature, .answer (ascii "ok T:0"),
        .call (.other (.appendGCode (ascii "G1\nG2") (-1) none)), .call (.other .startPrint),
        .call (.heatup 200),
        .answer (ascii "ok"), .answer (ascii "ok"), .answer (ascii "ok")] s := by
  let g : GCodeBuffer :=
    { buckets := [ascii "G1\nG2\n"], bufferedLines := 2, totalLinesSent := 2, bufferSize := 6 }
  let g₁ : GCodeBuffer :=
    { buckets := [ascii "G2\n"], currentLine := 2, bufferedLines := 1, totalLinesSent := 2, bufferSize := 3 }
  let s₁ : Dialogue := { online with driver := { online.driver with state := .buffering, gcodeBuffer := g } }
  let s₂ : Dialogue :=
    { driver := { online.driver with
        state := .printing
        gcodeBuffer := { g with currentLine := 1 }
        written := online.driver.written ++ [ascii "G1\n"] }
      unanswered := [⟨ascii "G1\n", true⟩] }
  let s₃ : Dialogue :=
    { driver := { s₂.driver with written := s₂.driver.written ++ [ascii "M104 S200\n"] }
      unanswered := [⟨ascii "G1\n", true⟩, ⟨ascii "M104 S200\n", false⟩] }
  let s₄ : Dialogue :=
    { driver := { s₃.driver with gcodeBuffer := g₁, written := s₃.driver.written ++ [ascii "G2\n"] }
      unanswered := [⟨ascii "M104 S200\n", false⟩, ⟨ascii "G2\n", true⟩] }
  let s₅ : Dialogue :=
    { driver := { s₄.driver with state := .idle, gcodeBuffer := { totalLinesSent := 2 } }
      unanswered := [⟨ascii "G2\n", true⟩] }
  let s₆ : Dialogue := { s₅ with unanswered := [] }
  obtain ⟨s₀, hp, hquery, hreport⟩ := steps_online
  have h₁ : online.Step (fun _ => 0) beginsM105 (.call (.other (.appendGCode (ascii "G1\nG2") (-1) none))) s₁ :=
    .call [] id id (by change 0 ∉ ascii "G1\nG2"; decide) (by decide) (by decide) (by decide)
  have h₂ : s₁.Step (fun _ => 0) beginsM105 (.call (.other .startPrint)) s₂ :=
    .call [ascii "G1\n"] id id trivial (by decide) (by decide) (by decide)
  have h₃ : s₂.Step (fun _ => 0) beginsM105 (.call (.heatup 200)) s₃ :=
    .call [ascii "M104 S200\n"] id id trivial (by decide) (by decide) (by decide)
  have h₄ : s₃.Step (fun _ => 0) beginsM105 (.answer (ascii "ok")) s₄ :=
    .answer ⟨ascii "G1\n", true⟩ [⟨ascii "M104 S200\n", false⟩] [ascii "G2\n"] (by decide) (by decide)
      (by decide) (by decide) (by decide)
  have h₅ : s₄.Step (fun _ => 0) beginsM105 (.answer (ascii "ok")) s₅ :=
    .answer ⟨ascii "M104 S200\n", false⟩ [⟨ascii "G2\n", true⟩] [] (by decide) (by decide) (by decide)
      (by decide) (by decide)
  have h₆ : s₅.Step (fun _ => 0) beginsM105 (.answer (ascii "ok")) s₆ :=
    .answer ⟨ascii "G2\n", true⟩ [] [] (by decide) (by decide) (by decide) (by decide) (by decide)
  have hacknowledged : ¬ s₃.Overruns beginsM105 (.answer (ascii "ok")) := by
    rintro ⟨-, ⟨q, rest, hq, hbuffered, -⟩, -⟩
    cases hq
    cases hbuffered
  -- nothing is left to send when the heatup is acknowledged
  have hempty : ¬ s₄.Overruns beginsM105 (.answer (ascii "ok")) := by
    rintro ⟨-, -, n, g', he, hnext⟩
    have herased : g₁.eraseLine.map (fun p => decide (0 < p.2.getNextLine.1)) = some false := by decide
    rw [show g₁.eraseLine = some (n, g') from he, Option.map_some, decide_eq_true hnext] at herased
    cases herased
  refine ⟨s₆, rfl, rfl, (window_iff (by simp [DialogueEvent.OfPrint]) (by decide)).mpr ?_⟩
  refine .cons ⟨hquery, id⟩ (.cons ⟨hreport, fun h => ?_⟩ ?_)
  · rw [h.1] at hp
    cases hp
  · exact .cons ⟨h₁, id⟩ (.cons ⟨h₂, id⟩ (.cons ⟨h₃, id⟩ (.cons ⟨h₄, hacknowledged⟩ (.cons ⟨h₅, hempty⟩
      (.cons ⟨h₆, fun h => by cases h.1⟩ (.nil s₆))))))

/-- A run that ends with two lines in flight: the acknowledgement of a heatup command counts for a
line of the buffer. -/
theorem window_overrun : ¬ ∀ (ls : List DialogueEvent) (s : Dialogue), (∀ l ∈ ls, l.OfPrint) →
    ls.countP (·.isStart) ≤ 1 → Run (Step (fun _ => 0) beginsM105) (init true) ls s →
    outstanding s.unanswered ≤ 1 := by
  intro h
  let g : GCodeBuffer :=
    { buckets := [ascii "G1\nG2\nG3\n"], bufferedLines := 3, totalLinesSent := 3, bufferSize := 9 }
  let g₁ : GCodeBuffer :=
    { buckets := [ascii "G2\nG3\n"], currentLine := 2, bufferedLines := 2, totalLinesSent := 3,
      bufferSize := 6 }
  let g₂ : GCodeBuffer :=
    { buckets := [ascii "G3\n"], currentLine := 3, bufferedLines := 1, totalLinesSent := 3, bufferSize := 3 }
  let s₁ : Dialogue := { online with driver := { online.driver with state := .buffering, gcodeBuffer := g } }
  let s₂ : Dialogue :=
    { driver := { online.driver with
        state := .printing
        gcodeBuffer := { g with currentLine := 1 }
        written := online.driver.written ++ [ascii "G1\n"] }
      unanswered := [⟨ascii "G1\n", true⟩] }
  let s₃ : Dialogue :=
    { driver := { s₂.driver with written := s₂.driver.written ++ [ascii "M104 S200\n"] }
      unanswered := [⟨ascii "G1\n", true⟩, ⟨ascii "M104 S200\n", false⟩] }
  let s₄ : Dialogue :=
    { driver := { s₃.driver with gcodeBuffer := g₁, written := s₃.driver.written ++ [ascii "G2\n"] }
      unanswered := [⟨ascii "M104 S200\n", false⟩, ⟨ascii "G2\n", true⟩] }
  let s₅ : Dialogue :=
    { driver := { s₄.driver with gcodeBuffer := g₂, written := s₄.driver.written ++ [ascii "G3\n"] }
      unanswered := [⟨ascii "G2\n", true⟩, ⟨ascii "G3\n", true⟩] }
  have h₁ : online.Step (fun _ => 0) beginsM105
      (.call (.other (.appendGCode (ascii "G1\nG2\nG3") (-1) none))) s₁ :=
    .call [] id id (by change 0 ∉ ascii "G1\nG2\nG3"; decide) (by decide) (by decide) (by decide)
  have h₂ : s₁.Step (fun _ => 0) beginsM105 (.call (.other .startPrint)) s₂ :=
    .call [ascii "G1\n"] id id trivial (by decide) (by decide) (by decide)
  have h₃ : s₂.Step (fun _ => 0) beginsM105 (.call (.heatup 200)) s₃ :=
    .call [ascii "M104 S200\n"] id id trivial (by decide) (by decide) (by decide)
  have h₄ : s₃.Step (fun _ => 0) beginsM105 (.answer (ascii "ok")) s₄ :=
    .answer ⟨ascii "G1\n", true⟩ [⟨ascii "M104 S200\n", false⟩] [ascii "G2\n"] (by decide) (by decide)
      (by decide) (by decide) (by decide)
  have h₅ : s₄.Step (fun _ => 0) beginsM105 (.answer (ascii "ok")) s₅ :=
    .answer ⟨ascii "M104 S200\n", false⟩ [⟨ascii "G2\n", true⟩] [ascii "G3\n"] (by decide) (by decide)
      (by decide) (by decide) (by decide)
  have hrun := run_online.append (.cons h₁ (.cons h₂ (.cons h₃ (.cons h₄ (.cons h₅ (.nil s₅))))))
  exact absurd (h _ _ (by simp [DialogueEvent.OfPrint]) (by decide) hrun) (by decide)

end Dialogue
end Print3D
