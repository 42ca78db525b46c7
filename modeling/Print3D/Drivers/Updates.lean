import Print3D.Drivers.Connection
import Print3D.Drivers.SerialLines

/-! `MarlinDriver::update`: the polls of the temperature, and the lines that the printer sends. Times are
in microseconds; the rounding of the source's `double`s is not modelled. -/
namespace Print3D
open Lines Effects Transition

/-- A running timer, by the time at which it was started. -/
structure Timer where
  startCount : ℤ := 0
  deriving DecidableEq, Repr

namespace Timer

def start (now : ℤ) : Timer := ⟨now⟩

def getElapsedTimeInMicroSec (t : Timer) (now : ℤ) : ℤ := now - t.startCount

/-- `getElapsedTimeInMilliSec() > interval` -/
def exceeds (t : Timer) (now interval : ℤ) : Bool := t.getElapsedTimeInMicroSec now > interval * 1000

end Timer

/-- The readings of the clock in an update: where the timer of the temperature is looked at and where it is
restarted, the same for the timer of the reads, and the last one. -/
structure Clock where
  polling : ℤ
  polled : ℤ
  reading : ℤ
  read : ℤ
  left : ℤ
  deriving DecidableEq, Repr

/-- What an update finds. -/
structure UpdateInput where
  clock : Clock
  found : List ReadResult
  errno : Errno := .other
  deriving DecidableEq

/-- The driver with the fields of its `update`, and the buffer of its serial port. -/
structure TimedMarlinDriver extends MarlinDriver where
  checkTemperatureAttempt : ℕ := 0
  temperatureTimer : Timer := {}
  timer : Timer := {}
  buffer : Text := []
  /-- What has been read from the serial port. -/
  received : Text := []
  /-- The times at which `update` has asked for the temperature. -/
  polls : List ℤ := []
  /-- The time of the last reading of the clock. -/
  now : ℤ := 0
  deriving DecidableEq

namespace TimedMarlinDriver

section Source

variable (atof : Text → Int32) (input : UpdateInput) (d : TimedMarlinDriver)

def updateInterval : ℤ := 200
def maxCheckTemperatureAttempts : ℕ := 3

def ask : Except Halt TimedMarlinDriver := do
  let base ← defined (d.toMarlinDriver.checkTemperature atof)
  return { d with
    toMarlinDriver := base
    polls := d.polls ++ [input.clock.polled] }

/-- The timer has just been restarted. -/
def pollDue : Except Halt TimedMarlinDriver :=
  if d.checkConnection then
    if d.checkTemperatureAttempt < maxCheckTemperatureAttempts then
      .ok { d with checkTemperatureAttempt := d.checkTemperatureAttempt + 1 }
    else d.ask atof input
  else d.ask atof input

def poll : Except Halt TimedMarlinDriver :=
  if d.checkTemperatureInterval ≠ -1 ∧
      d.temperatureTimer.exceeds input.clock.polling d.checkTemperatureInterval then
    pollDue atof input { d with temperatureTimer := Timer.start input.clock.polled }
  else .ok d

/-- `AbstractDriver::readData`: the process exits where the port is closed. -/
def readData (buffer : Text) : Except Halt (ℤ × Text) := do
  let (rv, buffer, _) ← defined (Serial.readData 0 false input.found buffer)
  if rv = -2 ∨ rv = -1 ∧ (input.errno = .enxio ∨ input.errno = .ebadf) then .error .exited
  else return (rv, buffer)

def readLines : ℕ → Text → MarlinDriver → Except Halt (MarlinDriver × Text)
  | 0, _, _ => .error .unfinished
  | fuel + 1, buffer, d => do
    let (line, buffer) ← defined (Serial.extractLine buffer)
    match line with
    | none => return (d, buffer)
    | some line => do
      let d ← defined (d.readResponseCode atof line)
      readLines fuel buffer d

/-- A buffer has no more lines than bytes. -/
def readLinesIf (rv : ℤ) (buffer : Text) (d : MarlinDriver) : Except Halt (MarlinDriver × Text) :=
  if rv > 0 then readLines atof (buffer.length + 1) buffer d else .ok (d, buffer)

def receive : Except Halt TimedMarlinDriver :=
  if d.isPrinting ∨ d.timer.exceeds input.clock.reading updateInterval then do
    let (rv, read) ← readData input d.buffer
    let (base, buffer) ← readLinesIf atof rv read d.toMarlinDriver
    return { d with
      toMarlinDriver := base
      buffer := buffer
      received := d.received ++ read.drop d.buffer.length
      timer := Timer.start input.clock.read }
  else .ok d

def timeLeft : ℤ :=
  (updateInterval * 1000 - d.timer.getElapsedTimeInMicroSec input.clock.left).tdiv 1000

def update : Except Halt (ℤ × TimedMarlinDriver) :=
  if ¬ d.isConnected then .ok (-1, d)
  else do
    let d ← d.poll atof input
    let d ← d.receive atof input
    return (d.timeLeft input, { d with now := input.clock.left })

end Source
end TimedMarlinDriver

/-- What happens to a driver: requests, and updates. -/
inductive TimedEvent
  | request (e : MarlinEvent)
  | update (input : UpdateInput)
  deriving DecidableEq

/-- The events that are not of the driver's own making, and do not come from the printer. -/
def MarlinEvent.isRequest : MarlinEvent → Bool
  | .checkTemperature | .other (.response _) => false
  | _ => true

/-- The readings of the clock in an update that follows the time `now`. -/
structure Clock.Follows (c : Clock) (now : ℤ) : Prop where
  polling : now ≤ c.polling
  polled : c.polling ≤ c.polled
  reading : c.polled ≤ c.reading
  read : c.reading ≤ c.read
  left : c.read ≤ c.left

namespace TimedEvent

def exec (atof : Text → Int32) (d : TimedMarlinDriver) : TimedEvent → Except Halt TimedMarlinDriver
  | request e =>
    if e.isRequest then (defined (e.exec atof d.toMarlinDriver)).map fun base =>
      { d with toMarlinDriver := base }
    else .error .undefined
  | update input => (d.update atof input).map (·.2)

def Step (atof : Text → Int32) (d : TimedMarlinDriver) (e : TimedEvent) (d' : TimedMarlinDriver) : Prop :=
  e.exec atof d = .ok d'

/-- The clock does not go back. -/
def Timely (d : TimedMarlinDriver) (e : TimedEvent) (_ : TimedMarlinDriver) : Prop :=
  ∀ input, e = .update input → input.clock.Follows d.now

end TimedEvent

/-! ### What an update does -/

namespace TimedMarlinDriver

variable {atof : Text → Int32} {input : UpdateInput} {d d' : TimedMarlinDriver} {base base' : MarlinDriver}
  {buffer buffer' : Text}

def heard (line : Text) : MarlinEvent := .other (.response (cString (Serial.stripReturn line)))

/-- The lines at the head of the buffer are read in order, and none is left. -/
theorem readLines_run {fuel : ℕ} (h : readLines atof fuel buffer base = .ok (base', buffer')) :
    ∃ lines, buffer = unlines newline lines ++ buffer' ∧ (∀ l ∈ lines, newline ∉ l) ∧ newline ∉ buffer' ∧
      Run (MarlinEvent.Step atof) base (lines.map heard) base' := by
  induction fuel generalizing buffer base with
  | zero => cases h
  | succ fuel ih =>
    rw [readLines] at h
    by_cases hbuffer : newline ∈ buffer
    · obtain ⟨line, rest, rfl, hline⟩ := List.eq_append_cons_of_mem hbuffer
      rw [Serial.extractLine_eq hline] at h
      by_cases hempty : line = []
      · rw [if_pos hempty] at h
        cases h
      · rw [if_neg hempty, defined, bind_ok] at h
        obtain ⟨base₁, hbase₁, h⟩ := bind_eq_ok.mp h
        obtain ⟨lines, rfl, hlines, hrest, hrun⟩ := ih h
        have hstep : MarlinEvent.Step atof base (heard line) base₁ := defined_eq_ok.mp hbase₁
        refine ⟨line :: lines, by simp, ?_, hrest, .cons hstep hrun⟩
        intro l hl
        rcases List.mem_cons.mp hl with rfl | hl
        · exact hline
        · exact hlines l hl
    · rw [Serial.extractLine_of_notMem hbuffer, defined, bind_ok] at h
      cases h
      exact ⟨[], rfl, by simp, hbuffer, .nil _⟩

theorem readData_append {rv : ℤ} (h : readData input buffer = .ok (rv, buffer')) :
    ∃ bytes, buffer' = buffer ++ bytes := by
  obtain ⟨⟨rv', read, more⟩, hread, h⟩ := bind_eq_ok.mp h
  have happend := Serial.readAndAppend_append 0 false input.found buffer [] 0
  rw [List.append_nil] at happend
  rw [defined_eq_ok, Serial.readData, happend] at hread
  obtain ⟨⟨rv'', bytes, more'⟩, -, he⟩ := Option.map_eq_some_iff.mp hread
  cases he
  dsimp only at h
  split_ifs at h
  cases h
  exact ⟨bytes, rfl⟩

/-- What the part for the serial port does: the bytes that it reads go through the buffer, line by line. -/
structure Receives (atof : Text → Int32) (d d' : TimedMarlinDriver) (bytes : Text) (lines : List Text) :
    Prop where
  received : d'.received = d.received ++ bytes
  polls : d'.polls = d.polls
  temperatureTimer : d'.temperatureTimer = d.temperatureTimer
  attempt : d'.checkTemperatureAttempt = d.checkTemperatureAttempt
  buffer : d.buffer ++ bytes = unlines newline lines ++ d'.buffer
  whole : ∀ l ∈ lines, newline ∉ l
  run : Run (MarlinEvent.Step atof) d.toMarlinDriver (lines.map heard) d'.toMarlinDriver

theorem receive_receives (h : d.receive atof input = .ok d') :
    ∃ bytes lines, Receives atof d d' bytes lines := by
  unfold receive at h
  split_ifs at h
  · obtain ⟨⟨rv, read⟩, hread, h⟩ := bind_eq_ok.mp h
    obtain ⟨⟨base, rest⟩, hlines, h⟩ := bind_eq_ok.mp h
    obtain ⟨bytes, rfl⟩ := readData_append hread
    cases h
    have hreceived : d.received ++ (d.buffer ++ bytes).drop d.buffer.length = d.received ++ bytes :=
      congrArg _ (List.drop_left ..)
    unfold readLinesIf at hlines
    split_ifs at hlines
    · obtain ⟨lines, htext, hnew, -, hrun⟩ := readLines_run hlines
      exact ⟨bytes, lines, hreceived, rfl, rfl, rfl, htext, hnew, hrun⟩
    · cases hlines
      exact ⟨bytes, [], hreceived, rfl, rfl, rfl, rfl, by simp, .nil _⟩
  · cases h
    exact ⟨[], [], (List.append_nil _).symm, rfl, rfl, rfl, List.append_nil _, by simp, .nil _⟩

/-- What the part for the temperature does: nothing, count an attempt, or ask. -/
inductive Polls (atof : Text → Int32) (input : UpdateInput) (d d' : TimedMarlinDriver) : Prop
  | waits : ¬ d.temperatureTimer.exceeds input.clock.polling d.checkTemperatureInterval ∨
      d.checkTemperatureInterval = -1 → d' = d → Polls atof input d d'
  | counts : d.temperatureTimer.exceeds input.clock.polling d.checkTemperatureInterval →
      d.checkConnection = true → d.checkTemperatureAttempt < maxCheckTemperatureAttempts →
      d' = { d with
        temperatureTimer := Timer.start input.clock.polled
        checkTemperatureAttempt := d.checkTemperatureAttempt + 1 } → Polls atof input d d'
  | asks {base : MarlinDriver} : d.temperatureTimer.exceeds input.clock.polling d.checkTemperatureInterval →
      (d.checkConnection = true → maxCheckTemperatureAttempts ≤ d.checkTemperatureAttempt) →
      d.toMarlinDriver.checkTemperature atof = some base →
      d' = { d with
        toMarlinDriver := base
        temperatureTimer := Timer.start input.clock.polled
        polls := d.polls ++ [input.clock.polled] } → Polls atof input d d'

theorem poll_polls (h : d.poll atof input = .ok d') : Polls atof input d d' := by
  unfold poll at h
  split_ifs at h with hdue
  · have hask : ∀ {d₁ d' : TimedMarlinDriver}, d₁.ask atof input = .ok d' → ∃ base,
        d₁.toMarlinDriver.checkTemperature atof = some base ∧
          d' = { d₁ with toMarlinDriver := base, polls := d₁.polls ++ [input.clock.polled] } := by
      intro d₁ d' h
      obtain ⟨base, hbase, h⟩ := bind_eq_ok.mp h
      cases h
      exact ⟨base, defined_eq_ok.mp hbase, rfl⟩
    unfold pollDue at h
    split_ifs at h with hcheck hattempt
    · cases h
      exact .counts hdue.2 hcheck hattempt rfl
    · obtain ⟨base, hbase, rfl⟩ := hask h
      exact .asks hdue.2 (fun _ => not_lt.mp hattempt) hbase rfl
    · obtain ⟨base, hbase, rfl⟩ := hask h
      exact .asks hdue.2 (fun hc => absurd hc hcheck) hbase rfl
  · cases h
    refine .waits ?_ rfl
    by_cases hinterval : d.checkTemperatureInterval = -1
    · exact .inr hinterval
    · exact .inl fun hdue' => hdue ⟨hinterval, hdue'⟩

theorem update_eq {t : ℤ} (h : d.update atof input = .ok (t, d')) :
    (d.isConnected = false ∧ t = -1 ∧ d' = d) ∨
      ∃ d₁ d₂, d.poll atof input = .ok d₁ ∧ d₁.receive atof input = .ok d₂ ∧ t = d₂.timeLeft input ∧
        d' = { d₂ with now := input.clock.left } := by
  unfold update at h
  split_ifs at h with hconnected
  · obtain ⟨d₁, hd₁, h⟩ := bind_eq_ok.mp h
    obtain ⟨d₂, hd₂, h⟩ := bind_eq_ok.mp h
    cases h
    exact .inr ⟨d₁, d₂, hd₁, hd₂, rfl, rfl⟩
  · cases h
    exact .inl ⟨by simpa using hconnected, rfl, rfl⟩

end TimedMarlinDriver

/-! ### The runs -/

namespace MarlinEvent

def response? : MarlinEvent → Option Text
  | .other (.response code) => some code
  | _ => none

def requestsOf (trace : List MarlinEvent) : List MarlinEvent := trace.filter isRequest

def responsesOf (trace : List MarlinEvent) : List Text := trace.filterMap response?

end MarlinEvent

def TimedEvent.requestsOf (es : List TimedEvent) : List MarlinEvent :=
  es.filterMap fun
    | .request e => some e
    | .update _ => none

namespace TimedMarlinDriver

variable {es : List TimedEvent} {trace trace' : List MarlinEvent} {lines lines' : List Text} {t₀ : ℤ}

def init (t₀ : ℤ) : TimedMarlinDriver := { now := t₀ }

theorem requestsOf_heard (lines : List Text) : MarlinEvent.requestsOf (lines.map heard) = [] := by
  induction lines with
  | nil => rfl
  | cons line lines ih => exact ih

theorem responsesOf_heard (lines : List Text) : MarlinEvent.responsesOf (lines.map heard) =
    lines.map fun line => cString (Serial.stripReturn line) := by
  induction lines with
  | nil => rfl
  | cons line lines ih => exact congrArg (_ :: ·) ih

theorem count_heard (lines : List Text) : (lines.map heard).count .checkTemperature = 0 := by
  rw [List.count_eq_zero]
  intro h
  obtain ⟨line, -, he⟩ := List.mem_map.mp h
  cases he

/-- The trace of a driver: the requests as they have come, the polls as often as the timer asked for them, and
the lines of what has been read. -/
structure Traced (atof : Text → Int32) (es : List TimedEvent) (d : TimedMarlinDriver) (trace : List MarlinEvent)
    (lines : List Text) : Prop where
  run : Run (MarlinEvent.Step atof) {} trace d.toMarlinDriver
  requests : MarlinEvent.requestsOf trace = TimedEvent.requestsOf es
  polls : trace.count .checkTemperature = d.polls.length
  responses : MarlinEvent.responsesOf trace = lines.map fun line => cString (Serial.stripReturn line)
  received : d.received = unlines newline lines ++ d.buffer
  whole : ∀ l ∈ lines, newline ∉ l

theorem traced_init (atof : Text → Int32) (t₀ : ℤ) : Traced atof [] (init t₀) [] [] :=
  ⟨.nil _, rfl, rfl, rfl, rfl, fun _ hl => by cases hl⟩

theorem Traced.poll (h : Traced atof es d trace lines) (hpoll : Polls atof input d d') :
    ∃ trace, Traced atof es d' trace lines := by
  cases hpoll with
  | waits _ he =>
    subst he
    exact ⟨trace, h⟩
  | counts _ _ _ he =>
    subst he
    exact ⟨trace, h.run, h.requests, h.polls, h.responses, h.received, h.whole⟩
  | asks _ _ hask he =>
    subst he
    have hstep : MarlinEvent.Step atof d.toMarlinDriver .checkTemperature _ := hask
    refine ⟨trace ++ [.checkTemperature], h.run.append (.cons hstep (.nil _)), ?_, ?_, ?_, h.received, h.whole⟩
    · rw [MarlinEvent.requestsOf, List.filter_append, ← h.requests]
      exact List.append_nil _
    · rw [List.count_append, h.polls, List.length_append]
      rfl
    · rw [MarlinEvent.responsesOf, List.filterMap_append, ← h.responses]
      exact List.append_nil _

theorem Traced.receive (h : Traced atof es d trace lines) (hreceive : d.receive atof input = .ok d') :
    ∃ trace lines, Traced atof es d' trace lines := by
  obtain ⟨bytes, more, hmore⟩ := receive_receives hreceive
  refine ⟨trace ++ more.map heard, lines ++ more, h.run.append hmore.run, ?_, ?_, ?_, ?_, ?_⟩
  · have hrequests := h.requests
    unfold MarlinEvent.requestsOf at hrequests ⊢
    rw [List.filter_append, hrequests, ← MarlinEvent.requestsOf, requestsOf_heard, List.append_nil]
  · rw [List.count_append, count_heard, h.polls, hmore.polls, Nat.add_zero]
  · have hresponses := h.responses
    unfold MarlinEvent.responsesOf at hresponses ⊢
    rw [List.filterMap_append, hresponses, ← MarlinEvent.responsesOf, responsesOf_heard, List.map_append]
  · rw [hmore.received, h.received, List.append_assoc, hmore.buffer, unlines_append, List.append_assoc]
  · intro l hl
    rcases List.mem_append.mp hl with hl | hl
    · exact h.whole l hl
    · exact hmore.whole l hl

theorem Traced.request {e : MarlinEvent} (h : Traced atof es d trace lines)
    (hstep : TimedEvent.Step atof d (.request e) d') :
    Traced atof (es ++ [.request e]) d' (trace ++ [e]) lines := by
  simp only [TimedEvent.Step, TimedEvent.exec] at hstep
  split_ifs at hstep with hrequest
  obtain ⟨base, hbase, rfl⟩ := map_eq_ok.mp hstep
  have hstep : MarlinEvent.Step atof d.toMarlinDriver e base := defined_eq_ok.mp hbase
  refine ⟨h.run.append (.cons hstep (.nil _)), ?_, ?_, ?_, h.received, h.whole⟩
  · rw [MarlinEvent.requestsOf, List.filter_append, List.filter_cons_of_pos hrequest, TimedEvent.requestsOf,
      List.filterMap_append, ← TimedEvent.requestsOf, ← h.requests]
    rfl
  · have hne : e ≠ .checkTemperature := fun he => by
      subst he
      cases hrequest
    rw [List.count_append, h.polls, List.count_singleton, beq_eq_false_iff_ne.mpr hne]
    rfl
  · have hnone : e.response? = none := by
      cases e with
      | other e => cases e <;> first | rfl | cases hrequest
      | _ => rfl
    rw [MarlinEvent.responsesOf, List.filterMap_append, ← h.responses, List.filterMap_cons_none hnone]
    exact List.append_nil _

theorem traced_step (es : List TimedEvent) (d : TimedMarlinDriver) (e : TimedEvent) (d' : TimedMarlinDriver)
    (h : ∃ trace lines, Traced atof es d trace lines) (hstep : e.Step atof d d') :
    ∃ trace lines, Traced atof (es ++ [e]) d' trace lines := by
  obtain ⟨trace, lines, h⟩ := h
  cases e with
  | request e => exact ⟨_, _, h.request hstep⟩
  | update input =>
    have hsame : TimedEvent.requestsOf (es ++ [.update input]) = TimedEvent.requestsOf es := by
      rw [TimedEvent.requestsOf, List.filterMap_append]
      exact List.append_nil _
    obtain ⟨⟨t, d₃⟩, hupdate, rfl⟩ := map_eq_ok.mp hstep
    obtain ⟨trace', lines', h'⟩ : ∃ trace lines, Traced atof es d₃ trace lines := by
      rcases update_eq hupdate with ⟨-, -, rfl⟩ | ⟨d₁, d₂, hpoll, hreceive, -, rfl⟩
      · exact ⟨trace, lines, h⟩
      · obtain ⟨trace₁, h₁⟩ := h.poll (poll_polls hpoll)
        obtain ⟨trace₂, lines₂, h₂⟩ := h₁.receive hreceive
        exact ⟨trace₂, lines₂, h₂.run, h₂.requests, h₂.polls, h₂.responses, h₂.received, h₂.whole⟩
    exact ⟨trace', lines', h'.run, hsame ▸ h'.requests, h'.polls, h'.responses, h'.received, h'.whole⟩

theorem traced_run (h : Run (TimedEvent.Step atof) (init t₀) es d) :
    ∃ trace lines, Traced atof es d trace lines :=
  h.invariant_history (fun es d => ∃ trace lines, Traced atof es d trace lines) traced_step
    ⟨[], [], traced_init atof t₀⟩

/-- The driver that polls the port and the clock makes only runs of the driver of requests and responses: with
the requests that it gets, a query whenever its timer has asked for one, and the lines of the bytes that it
has read, whatever the pieces that these have come in. -/
theorem timed_refines (h : Run (TimedEvent.Step atof) (init t₀) es d) :
    ∃ trace lines, Traced atof es d trace lines := traced_run h

/-- The clock of an update that takes no time until it reads. -/
def clockAt (now read : ℤ) : Clock := ⟨now, now, now, read, read⟩

theorem clockAt_follows {now time read : ℤ} (h : now ≤ time) (hread : time ≤ read) :
    (clockAt time read).Follows now := ⟨h, le_refl _, le_refl _, hread, le_refl _⟩

/-- A printer that reports its temperature in two pieces, with an update after each, and is asked for it. -/
def answered : List TimedEvent := [
  .request (.openConnection 0 true),
  .update ⟨clockAt 6000000 6000100, [.data (ascii "ok T:"), .wouldBlock false], .other⟩,
  .update ⟨clockAt 6300000 6300100, [.data [50, 49, 13, 10], .wouldBlock false], .other⟩,
  .update ⟨clockAt 7600000 7600100, [.wouldBlock false], .other⟩]

def answeredDriver : TimedMarlinDriver where
  isConnected := true
  state := .idle
  checkConnection := false
  checkTemperatureInterval := 1500
  checkTemperatureAttempt := 1
  written := [ascii "M105" ++ [newline]]
  temperatureTimer := ⟨7600000⟩
  timer := ⟨7600100⟩
  received := ascii "ok T:" ++ [50, 49, 13, 10]
  polls := [7600000]
  now := 7600100

theorem runWith_answered :
    RunWith (TimedEvent.Step fun _ => 0) TimedEvent.Timely (init 5000000) answered answeredDriver := by
  let opened : TimedMarlinDriver := { init 5000000 with
    isConnected := true
    state := .connecting }
  let half : TimedMarlinDriver := { opened with
    checkTemperatureAttempt := 1
    temperatureTimer := ⟨6000000⟩
    timer := ⟨6000100⟩
    buffer := ascii "ok T:"
    received := ascii "ok T:"
    now := 6000100 }
  let whole : TimedMarlinDriver := { answeredDriver with
    written := []
    temperatureTimer := ⟨6000000⟩
    timer := ⟨6300100⟩
    polls := []
    now := 6300100 }
  have htimely : ∀ {d d' : TimedMarlinDriver} {time read : ℤ} {found : List ReadResult}, d.now ≤ time →
      time ≤ read → TimedEvent.Timely d (.update ⟨clockAt time read, found, .other⟩) d' := by
    intro d d' time read found htime hread input he
    cases he
    exact clockAt_follows htime hread
  have hhalf : TimedEvent.Step (fun _ => 0) opened
      (.update ⟨clockAt 6000000 6000100, [.data (ascii "ok T:"), .wouldBlock false], .other⟩) half := by
    unfold TimedEvent.Step
    decide +kernel
  have hwhole : TimedEvent.Step (fun _ => 0) half
      (.update ⟨clockAt 6300000 6300100, [.data [50, 49, 13, 10], .wouldBlock false], .other⟩) whole := by
    unfold TimedEvent.Step
    decide +kernel
  have hasked : TimedEvent.Step (fun _ => 0) whole
      (.update ⟨clockAt 7600000 7600100, [.wouldBlock false], .other⟩) answeredDriver := by
    unfold TimedEvent.Step
    decide +kernel
  refine .cons ⟨rfl, nofun⟩ (.cons ⟨hhalf, htimely ?_ ?_⟩ (.cons ⟨hwhole, htimely ?_ ?_⟩
    (.cons ⟨hasked, htimely ?_ ?_⟩ (.nil _)))) <;> decide

theorem timed_refines_answered :
    ∃ trace lines, Traced (fun _ => 0) answered answeredDriver trace lines ∧ lines.length = 1 := by
  have hrun : Run (TimedEvent.Step fun _ => 0) (init 5000000) answered answeredDriver :=
    runWith_answered.mono fun _ _ _ h => h.1
  obtain ⟨trace, lines, h⟩ := timed_refines hrun
  have hlines := congrArg (List.count newline) h.received
  rw [List.count_append, count_unlines h.whole] at hlines
  exact ⟨trace, lines, h, hlines.symm⟩

end TimedMarlinDriver
end Print3D
