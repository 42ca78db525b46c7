import Print3D.Drivers.Updates

/-! How often a Marlin driver asks for the temperature, however often it is updated. -/
namespace Print3D
open Effects Transition

/-! ### The settings of the polls -/

namespace MarlinDriver

variable {atof : Text → Int32} {d d' : MarlinDriver}

/-- The fields that the polls depend on. -/
def pacing (d : MarlinDriver) : ℤ × Bool := (d.checkTemperatureInterval, d.checkConnection)

theorem sendCode_pacing {code : Text} (h : sendCode atof d code = some d') : d'.pacing = d.pacing := by
  unfold sendCode at h
  split_ifs at h
  · obtain ⟨base, -, h⟩ := Option.bind_eq_some_iff.mp h
    cases h
    rfl
  · cases h
    rfl

theorem printNextLine_pacing (h : printNextLine atof d = some d') : d'.pacing = d.pacing := by
  unfold printNextLine at h
  dsimp only at h
  split_ifs at h
  · obtain ⟨d₁, hsend, h⟩ := Option.bind_eq_some_iff.mp h
    have hd₁ := sendCode_pacing hsend
    cases h
    exact hd₁
  · cases h
    rfl

theorem setGCode_pacing {gcode : Text} {totalLines : ℤ} {metaData : Option MetaData} {r : GcodeSetResult}
    (h : setGCode atof d gcode totalLines metaData = some (r, d')) : d'.pacing = d.pacing := by
  obtain ⟨⟨gsr, base⟩, -, h⟩ := Option.bind_eq_some_iff.mp h
  cases h
  rfl

theorem startPrint_pacing {state : DriverState} {r : Bool} (h : startPrint atof d state = some (r, d')) :
    d'.pacing = d.pacing := by
  unfold startPrint at h
  dsimp only at h
  split_ifs at h
  · obtain ⟨d₁, hnext, h⟩ := Option.map_eq_some_iff.mp h
    have hsame := printNextLine_pacing hnext
    cases h
    exact hsame
  · cases h
    rfl

/-- What can happen to the settings of the polls: a report ends the check of the connection and
chooses the interval. -/
inductive Paces (d d' : MarlinDriver) : Prop
  | keeps : d'.pacing = d.pacing → Paces d d'
  | reported : d'.checkConnection = false →
      d'.checkTemperatureInterval = 5000 ∨ d'.checkTemperatureInterval = 1500 → Paces d d'

theorem readResponseCode_paces {code : Text} (h : readResponseCode atof d code = some d') : Paces d d' := by
  unfold readResponseCode at h
  split_ifs at h
  · obtain ⟨d₁, -, h⟩ := Option.bind_eq_some_iff.mp h
    cases h
    refine .reported ?_ ?_
    · dsimp only
      split_ifs with hcheck
      · rfl
      · simp [hcheck]
    · dsimp only
      exact ite_eq_or_eq ..
  · obtain ⟨⟨n, g⟩, -, h⟩ := Option.bind_eq_some_iff.mp h
    have hsame := printNextLine_pacing h
    exact .keeps hsame
  · cases h
    exact .keeps rfl
  · cases h
    exact .keeps rfl
  · have hsame := printNextLine_pacing h
    exact .keeps hsame
  · cases h
    exact .keeps rfl

theorem paces {e : MarlinEvent} (h : e.Step atof d d') : Paces d d' := by
  cases e with
  | openConnection rv ssrOk =>
    cases h
    exact .keeps rfl
  | setGCode gcode totalLines metaData =>
    obtain ⟨⟨r, d₁⟩, hset, rfl⟩ := Option.map_eq_some_iff.mp h
    exact .keeps (setGCode_pacing hset)
  | heatup temperature => exact .keeps (sendCode_pacing h)
  | checkTemperature => exact .keeps (sendCode_pacing h)
  | other e =>
    cases e with
    | appendGCode gcode totalLines metaData =>
      obtain ⟨⟨r, d₁⟩, happend, rfl⟩ := Option.map_eq_some_iff.mp h
      obtain ⟨⟨gsr, base⟩, -, happend⟩ := Option.bind_eq_some_iff.mp happend
      cases happend
      exact .keeps rfl
    | clearGCode =>
      cases h
      exact .keeps rfl
    | startPrint =>
      obtain ⟨⟨r, d₁⟩, hstart, rfl⟩ := Option.map_eq_some_iff.mp h
      exact .keeps (startPrint_pacing hstart)
    | stopPrint endcode =>
      obtain ⟨⟨r, d₁⟩, hstop, rfl⟩ := Option.map_eq_some_iff.mp h
      obtain ⟨⟨gsr, d₂⟩, hset, hstop⟩ := Option.bind_eq_some_iff.mp hstop
      have hreset : d.resetPrint.pacing = d.pacing := rfl
      exact .keeps ((startPrint_pacing hstop).trans ((setGCode_pacing hset).trans hreset))
    | response code => exact readResponseCode_paces h

theorem Paces.trans {d'' : MarlinDriver} (h : Paces d d') (h' : Paces d' d'') : Paces d d'' := by
  cases h' with
  | reported hcheck hinterval => exact .reported hcheck hinterval
  | keeps hsame' =>
    cases h with
    | keeps hsame => exact .keeps (hsame'.trans hsame)
    | reported hcheck hinterval =>
      have hi : d''.checkTemperatureInterval = d'.checkTemperatureInterval := congrArg Prod.fst hsame'
      have hc : d''.checkConnection = d'.checkConnection := congrArg Prod.snd hsame'
      exact .reported (hc.trans hcheck) (hinterval.imp hi.trans hi.trans)

theorem paces_run {trace : List MarlinEvent} (h : Run (MarlinEvent.Step atof) d trace d') : Paces d d' := by
  induction h with
  | nil => exact .keeps rfl
  | cons hstep _ ih => exact (paces hstep).trans ih

/-- A driver asks for the temperature every 5 seconds until it has heard of it, and then every 5 or
1.5 seconds. -/
structure Settled (d : MarlinDriver) : Prop where
  interval : d.checkTemperatureInterval = 5000 ∨ d.checkTemperatureInterval = 1500
  checking : d.checkConnection = true → d.checkTemperatureInterval = 5000

theorem Settled.paces (h : Settled d) (hpaces : Paces d d') : Settled d' := by
  cases hpaces with
  | keeps hsame =>
    have hinterval : d'.checkTemperatureInterval = d.checkTemperatureInterval := congrArg Prod.fst hsame
    have hcheck : d'.checkConnection = d.checkConnection := congrArg Prod.snd hsame
    refine ⟨?_, fun hc => ?_⟩
    · rw [hinterval]
      exact h.interval
    · rw [hinterval]
      exact h.checking (hcheck.symm.trans hc)
  | reported hcheck hinterval =>
    refine ⟨hinterval, fun hc => ?_⟩
    rw [hcheck] at hc
    cases hc

theorem Paces.checkConnection (h : Paces d d') (hc : d'.checkConnection = true) : d.checkConnection = true := by
  cases h with
  | keeps hsame => exact (Prod.ext_iff.mp hsame).2.symm.trans hc
  | reported hcheck =>
    rw [hcheck] at hc
    cases hc

end MarlinDriver

/-! ### The polls -/

namespace TimedMarlinDriver
open MarlinDriver

variable {atof : Text → Int32} {input : UpdateInput} {d d' : TimedMarlinDriver} {e : TimedEvent}
  {es : List TimedEvent} {t₀ : ℤ}

/-- The polls of a driver that has been created at the time `t₀`: more than 1.5 seconds lie between
two of them, and while the connection is still checked, the first comes more than 15 seconds after `t₀`,
once three attempts have been counted. -/
structure Paced (t₀ : ℤ) (d : TimedMarlinDriver) : Prop where
  spaced : d.polls.Pairwise fun p q => p + 1500000 < q
  within : ∀ p ∈ d.polls, t₀ ≤ p ∧ p ≤ d.now
  patient : d.checkConnection = true → ∀ p ∈ d.polls, t₀ + 15000000 < p
  attempts : d.checkConnection = true → d.checkTemperatureAttempt < maxCheckTemperatureAttempts → d.polls = []

/-- The same with what the timer says: the last poll is not after its start, and each attempt has
taken 5 seconds. -/
structure Waits (t₀ : ℤ) (d : TimedMarlinDriver) : Prop extends Paced t₀ d where
  settled : Settled d.toMarlinDriver
  started : t₀ ≤ d.now
  clock : d.temperatureTimer.startCount ≤ d.now
  polled : ∀ p ∈ d.polls, p ≤ d.temperatureTimer.startCount
  counted : d.checkTemperatureAttempt ≤ maxCheckTemperatureAttempts
  waited : d.checkConnection = true → 0 < d.checkTemperatureAttempt →
    t₀ + (d.checkTemperatureAttempt - 1) * 5000000 ≤ d.temperatureTimer.startCount

theorem waits_init (h : 0 ≤ t₀) : Waits t₀ (init t₀) where
  spaced := .nil
  within := fun _ hp => by cases hp
  patient := fun _ _ hp => by cases hp
  attempts := fun _ _ => rfl
  settled := ⟨.inl rfl, fun _ => rfl⟩
  started := le_refl _
  clock := h
  polled := fun _ hp => by cases hp
  counted := Nat.zero_le _
  waited := fun _ hattempt => absurd hattempt (lt_irrefl _)

theorem Waits.paces (h : Waits t₀ d) (hpaces : Paces d.toMarlinDriver d'.toMarlinDriver)
    (hpolls : d'.polls = d.polls) (htimer : d'.temperatureTimer = d.temperatureTimer)
    (hattempt : d'.checkTemperatureAttempt = d.checkTemperatureAttempt) (hnow : d.now ≤ d'.now) :
    Waits t₀ d' := by
  have hcheck := hpaces.checkConnection
  refine ⟨⟨?_, ?_, ?_, ?_⟩, h.settled.paces hpaces, h.started.trans hnow, ?_, ?_, ?_, ?_⟩
  · rw [hpolls]
    exact h.spaced
  · rw [hpolls]
    exact fun p hp => ⟨(h.within p hp).1, (h.within p hp).2.trans hnow⟩
  · rw [hpolls]
    exact fun hc => h.patient (hcheck hc)
  · rw [hpolls, hattempt]
    exact fun hc => h.attempts (hcheck hc)
  · rw [htimer]
    exact h.clock.trans hnow
  · rw [hpolls, htimer]
    exact h.polled
  · rw [hattempt]
    exact h.counted
  · rw [hattempt, htimer]
    exact fun hc => h.waited (hcheck hc)

theorem due {interval : ℤ} (h : d.temperatureTimer.exceeds input.clock.polling interval = true) :
    d.temperatureTimer.startCount + interval * 1000 < input.clock.polling := by
  have h := of_decide_eq_true h
  unfold Timer.getElapsedTimeInMicroSec at h
  omega

theorem Waits.count (h : Waits t₀ d) (hclock : input.clock.Follows d.now)
    (hdue : d.temperatureTimer.exceeds input.clock.polling d.checkTemperatureInterval = true)
    (hcheck : d.checkConnection = true) (hattempt : d.checkTemperatureAttempt < maxCheckTemperatureAttempts) :
    Waits t₀ { d with
      temperatureTimer := Timer.start input.clock.polled
      checkTemperatureAttempt := d.checkTemperatureAttempt + 1
      now := input.clock.polled } := by
  have hdue := due hdue
  have hnow : d.now ≤ input.clock.polled := hclock.polling.trans hclock.polled
  have hpolled := hclock.polled
  rw [h.settled.checking hcheck] at hdue
  refine ⟨⟨h.spaced, ?_, h.patient, ?_⟩, h.settled, h.started.trans hnow, le_refl _, ?_, hattempt, ?_⟩
  · exact fun p hp => ⟨(h.within p hp).1, (h.within p hp).2.trans hnow⟩
  · exact fun hc hlt => h.attempts hc (Nat.lt_of_succ_lt hlt)
  · exact fun p hp => (h.within p hp).2.trans hnow
  · intro _ _
    change t₀ + ((d.checkTemperatureAttempt + 1 : ℕ) - 1 : ℤ) * 5000000 ≤ input.clock.polled
    rcases Nat.eq_zero_or_pos d.checkTemperatureAttempt with hzero | hpos
    · have hstarted := h.started
      rw [hzero]
      omega
    · have hwaited := h.waited hcheck hpos
      push_cast
      omega

theorem Waits.ask {base : MarlinDriver} (h : Waits t₀ d) (hclock : input.clock.Follows d.now)
    (hdue : d.temperatureTimer.exceeds input.clock.polling d.checkTemperatureInterval = true)
    (hattempt : d.checkConnection = true → maxCheckTemperatureAttempts ≤ d.checkTemperatureAttempt)
    (hask : d.toMarlinDriver.checkTemperature atof = some base) :
    Waits t₀ { d with
      toMarlinDriver := base
      temperatureTimer := Timer.start input.clock.polled
      polls := d.polls ++ [input.clock.polled]
      now := input.clock.polled } := by
  have hsame := sendCode_pacing hask
  have hcheck : base.checkConnection = d.checkConnection := congrArg Prod.snd hsame
  have hsettled : Settled base := h.settled.paces (.keeps hsame)
  have hdue := due hdue
  have hnow : d.now ≤ input.clock.polled := hclock.polling.trans hclock.polled
  have hpolled := hclock.polled
  refine ⟨⟨?_, ?_, ?_, ?_⟩, hsettled, h.started.trans hnow, le_refl _, ?_, h.counted, ?_⟩
  · refine List.pairwise_append.mpr ⟨h.spaced, List.pairwise_singleton .., fun p hp q hq => ?_⟩
    have hbefore := h.polled p hp
    rw [List.mem_singleton.mp hq]
    rcases h.settled.interval with hi | hi <;> rw [hi] at hdue <;> omega
  · intro p hp
    rcases List.mem_append.mp hp with hp | hp
    · exact ⟨(h.within p hp).1, (h.within p hp).2.trans hnow⟩
    · rw [List.mem_singleton.mp hp]
      exact ⟨h.started.trans hnow, le_refl _⟩
  · intro hc p hp
    have hc : d.checkConnection = true := hcheck.symm.trans hc
    rcases List.mem_append.mp hp with hp | hp
    · exact h.patient hc p hp
    · have hthree : d.checkTemperatureAttempt = 3 := le_antisymm h.counted (hattempt hc)
      have hwaited := h.waited hc (by omega)
      rw [List.mem_singleton.mp hp]
      rw [h.settled.checking hc] at hdue
      rw [hthree] at hwaited
      omega
  · intro hc hlt
    exact absurd (hattempt (hcheck.symm.trans hc)) (not_le.mpr hlt)
  · intro p hp
    rcases List.mem_append.mp hp with hp | hp
    · exact (h.within p hp).2.trans hnow
    · exact (List.mem_singleton.mp hp).le
  · intro hc hpos
    have hc : d.checkConnection = true := hcheck.symm.trans hc
    have hwaited := h.waited hc hpos
    have hstart : d.temperatureTimer.startCount ≤ input.clock.polled := h.clock.trans hnow
    exact hwaited.trans hstart

theorem Waits.poll (h : Waits t₀ d) (hclock : input.clock.Follows d.now) (hpoll : Polls atof input d d') :
    Waits t₀ { d' with now := input.clock.polled } := by
  cases hpoll with
  | waits _ he =>
    subst he
    exact h.paces (.keeps rfl) rfl rfl rfl (hclock.polling.trans hclock.polled)
  | counts hdue hcheck hattempt he =>
    subst he
    exact h.count hclock hdue hcheck hattempt
  | asks hdue hattempt hask he =>
    subst he
    exact h.ask hclock hdue hattempt hask

theorem waits_step (d : TimedMarlinDriver) (e : TimedEvent) (d' : TimedMarlinDriver) (h : Waits t₀ d)
    (hstep : e.Step atof d d' ∧ e.Timely d d') : Waits t₀ d' := by
  obtain ⟨hstep, htimely⟩ := hstep
  cases e with
  | request e =>
    simp only [TimedEvent.Step, TimedEvent.exec] at hstep
    split_ifs at hstep
    obtain ⟨base, hbase, rfl⟩ := map_eq_ok.mp hstep
    have hstep : MarlinEvent.Step atof d.toMarlinDriver e base := defined_eq_ok.mp hbase
    exact h.paces (paces hstep) rfl rfl rfl (le_refl _)
  | update input =>
    have hclock := htimely input rfl
    obtain ⟨⟨t, d₃⟩, hupdate, rfl⟩ := map_eq_ok.mp hstep
    rcases update_eq hupdate with ⟨-, -, rfl⟩ | ⟨d₁, d₂, hpoll, hreceive, -, rfl⟩
    · exact h
    · have hd₁ := h.poll hclock (poll_polls hpoll)
      obtain ⟨bytes, lines, hlines⟩ := receive_receives hreceive
      exact hd₁.paces (paces_run hlines.run) hlines.polls hlines.temperatureTimer hlines.attempt
        (hclock.reading.trans (hclock.read.trans hclock.left))

/-- An event does not make the driver ask, or it is an update of an open driver that asks once, when
more than the interval in force has passed since each time before. -/
def AsksInTime (d : TimedMarlinDriver) (e : TimedEvent) (d' : TimedMarlinDriver) : Prop :=
  d'.polls = d.polls ∨ d.isConnected = true ∧ ∃ input, e = .update input ∧
    d'.polls = d.polls ++ [input.clock.polled] ∧
    ∀ p ∈ d.polls, p + d.checkTemperatureInterval * 1000 < input.clock.polled

theorem asksInTime_poll (h : Waits t₀ d) (hclock : input.clock.Follows d.now) (hpoll : Polls atof input d d') :
    d'.polls = d.polls ∨ d'.polls = d.polls ++ [input.clock.polled] ∧
      ∀ p ∈ d.polls, p + d.checkTemperatureInterval * 1000 < input.clock.polled := by
  cases hpoll with
  | waits _ he =>
    subst he
    exact .inl rfl
  | counts _ _ _ he =>
    subst he
    exact .inl rfl
  | asks hdue _ _ he =>
    subst he
    refine .inr ⟨rfl, fun p hp => ?_⟩
    have hbefore := h.polled p hp
    have hpolled := hclock.polled
    have hdue := due hdue
    omega

theorem asksInTime (h : Waits t₀ d) (hstep : e.Step atof d d') (htimely : e.Timely d d') :
    AsksInTime d e d' := by
  cases e with
  | request e =>
    simp only [TimedEvent.Step, TimedEvent.exec] at hstep
    split_ifs at hstep
    obtain ⟨base, -, rfl⟩ := map_eq_ok.mp hstep
    exact .inl rfl
  | update input =>
    obtain ⟨⟨t, d₃⟩, hupdate, rfl⟩ := map_eq_ok.mp hstep
    cases hopen : d.isConnected with
    | false =>
      rw [update, if_pos (by simp [hopen])] at hupdate
      cases hupdate
      exact .inl rfl
    | true =>
      rcases update_eq hupdate with ⟨hclosed, -⟩ | ⟨d₁, d₂, hpoll, hreceive, -, rfl⟩
      · rw [hopen] at hclosed
        cases hclosed
      · obtain ⟨bytes, lines, hlines⟩ := receive_receives hreceive
        refine (asksInTime_poll h (htimely input rfl) (poll_polls hpoll)).imp (hlines.polls.trans ·) ?_
        rintro ⟨hasked, hafter⟩
        exact ⟨hopen, input, rfl, hlines.polls.trans hasked, hafter⟩

/-- However often a driver is updated and whatever it is asked to do in between, its polls keep
their pace, and only an open driver polls, after the interval in force. -/
theorem polls_paced (ht₀ : 0 ≤ t₀) (h : RunWith (TimedEvent.Step atof) TimedEvent.Timely (init t₀) es d) :
    Paced t₀ d ∧ ∀ e d', TimedEvent.Step atof d e d' → TimedEvent.Timely d e d' → AsksInTime d e d' := by
  have hwaits := h.invariant (Waits t₀) waits_step (waits_init ht₀)
  exact ⟨hwaits.toPaced, fun e d' => asksInTime hwaits⟩

theorem polls_paced_answered : Paced 5000000 answeredDriver ∧ ∀ e d',
    TimedEvent.Step (fun _ => 0) answeredDriver e d' → TimedEvent.Timely answeredDriver e d' →
      AsksInTime answeredDriver e d' :=
  polls_paced (by decide) runWith_answered

end TimedMarlinDriver
end Print3D
