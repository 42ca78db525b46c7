import Print3D.Drivers.Connection

/-! The states of a printer as one machine, whatever the driver: what brings each of them about, and
what ends it. -/
namespace Print3D
open Effects Transition

/-! ### The machine -/

/-- What happens to a printer, as far as its state goes. -/
inductive PhaseEvent
  | opening (ok : Bool)
  | storing
  | clearing
  | starting
  | stopping
  | hearing
  | commanding
  deriving DecidableEq

def DriverState.online (s : DriverState) : Bool := s ≠ .unknown ∧ s ≠ .disconnected ∧ s ≠ .connecting

namespace PhaseEvent

/-- The states that an event can lead to. -/
def Step (s : DriverState) (e : PhaseEvent) (s' : DriverState) : Prop :=
  match e with
  | opening ok => s' = if ok then .connecting else s
  | storing => s' = s ∨ s = .idle ∧ s' = .buffering
  | clearing => s' = if s = .buffering ∨ s = .printing ∨ s = .stopping then .idle else s
  | starting => if s.online then s' = .printing ∨ s' = .idle else s' = s
  | stopping => if s.online then s' = .stopping ∨ s' = .idle else s' = s
  | hearing => s' = s ∨ s' = .idle
  | commanding => s' = s

/-- Something that `c` holds of is among the events, with nothing after it that is in `ends`. -/
def Since (c : PhaseEvent) (ends : List PhaseEvent) (es : List PhaseEvent) : Prop :=
  ∃ pre post, es = pre ++ c :: post ∧ ∀ e ∈ post, e ∉ ends

/-- Why a printer is in its state. -/
structure Explains (es : List PhaseEvent) (s : DriverState) : Prop where
  online : s.online = true → Since hearing [opening true] es
  buffering : s = .buffering → Since storing [opening true, clearing, starting, stopping] es
  printing : s = .printing → Since starting [opening true, clearing, stopping] es
  stopping : s = .stopping → Since stopping [opening true, clearing, starting] es

variable {s s' : DriverState} {e : PhaseEvent} {es : List PhaseEvent}

theorem since_of_run {P : DriverState → Prop} {c : PhaseEvent} {ends : List PhaseEvent}
    (hstep : ∀ s e s', Step s e s' → P s' → e = c ∨ P s ∧ e ∉ ends) (h : Run Step s es s') (hs : ¬ P s)
    (hs' : P s') : Since c ends es := by
  obtain ⟨pre, e, post, rfl, rfl, hpost⟩ := h.since hstep hs hs'
  exact ⟨pre, post, rfl, hpost⟩

theorem online_step (h : Step s e s') (hs' : s'.online = true) :
    e = hearing ∨ s.online = true ∧ e ∉ [opening true] := by
  cases e with
  | opening ok =>
    cases ok with
    | true =>
      cases h
      cases hs'
    | false =>
      cases h
      exact .inr ⟨hs', by simp⟩
  | storing =>
    refine .inr ⟨?_, by simp⟩
    rcases h with rfl | ⟨rfl, rfl⟩
    · exact hs'
    · rfl
  | clearing =>
    refine .inr ⟨?_, by simp⟩
    cases h
    split_ifs at hs' with hprinting
    · rcases hprinting with rfl | rfl | rfl <;> rfl
    · exact hs'
  | starting =>
    refine .inr ⟨?_, by simp⟩
    by_contra hoffline
    rw [Step, if_neg hoffline] at h
    exact hoffline (h ▸ hs')
  | stopping =>
    refine .inr ⟨?_, by simp⟩
    by_contra hoffline
    rw [Step, if_neg hoffline] at h
    exact hoffline (h ▸ hs')
  | hearing => exact .inl rfl
  | commanding =>
    cases h
    exact .inr ⟨hs', by simp⟩

theorem buffering_step (h : Step s e .buffering) :
    e = storing ∨ s = .buffering ∧ e ∉ [opening true, clearing, starting, stopping] := by
  cases e with
  | opening ok => cases ok <;> simp_all [Step]
  | storing => exact .inl rfl
  | _ => cases s <;> simp_all [Step, DriverState.online]

theorem printing_step (h : Step s e .printing) :
    e = starting ∨ s = .printing ∧ e ∉ [opening true, clearing, stopping] := by
  cases e with
  | opening ok => cases ok <;> simp_all [Step]
  | starting => exact .inl rfl
  | _ => cases s <;> simp_all [Step, DriverState.online]

theorem stopping_step (h : Step s e .stopping) :
    e = stopping ∨ s = .stopping ∧ e ∉ [opening true, clearing, starting] := by
  cases e with
  | opening ok => cases ok <;> simp_all [Step]
  | stopping => exact .inl rfl
  | _ => cases s <;> simp_all [Step, DriverState.online]

/-- In every run of the machine from the start, the events explain the state. -/
theorem explains_of_run (h : Run Step .disconnected es s) : Explains es s where
  online := since_of_run (P := fun s => s.online = true) (fun _ _ _ => online_step) h (by decide)
  buffering := since_of_run (P := fun s => s = .buffering) (fun _ _ _ h hs => by
    subst hs
    exact buffering_step h) h nofun
  printing := since_of_run (P := fun s => s = .printing) (fun _ _ _ h hs => by
    subst hs
    exact printing_step h) h nofun
  stopping := since_of_run (P := fun s => s = .stopping) (fun _ _ _ h hs => by
    subst hs
    exact stopping_step h) h nofun

end PhaseEvent

/-! ### Both drivers -/

theorem AbstractDriver.openConnection_phase (d : AbstractDriver) (rv : ℤ) (ssrOk : Bool) :
    PhaseEvent.Step d.state (.opening (decide (0 ≤ rv) && ssrOk)) (d.openConnection rv ssrOk).2.state := by
  unfold PhaseEvent.Step openConnection setBaudrate
  by_cases hrv : rv < 0
  · rw [if_pos hrv, decide_eq_false (not_le.mpr hrv)]
    rfl
  · rw [if_neg hrv, decide_eq_true (not_lt.mp hrv)]
    cases ssrOk <;> rfl

theorem AbstractDriver.clearGCode_phase (d : AbstractDriver) :
    PhaseEvent.Step d.state .clearing d.clearGCode.state := by
  unfold PhaseEvent.Step clearGCode
  dsimp only
  split_ifs <;> rfl

namespace MarlinEvent
open MarlinDriver

variable {atof : Text → Int32} {d d' : MarlinDriver} {e : MarlinEvent} {es : List MarlinEvent}

/-- What an event is to the state. -/
def phase : MarlinEvent → PhaseEvent
  | openConnection rv ssrOk => .opening (decide (0 ≤ rv) && ssrOk)
  | setGCode .. => .storing
  | heatup _ => .commanding
  | checkTemperature => .commanding
  | other (.appendGCode ..) => .storing
  | other .clearGCode => .clearing
  | other .startPrint => .starting
  | other (.stopPrint _) => .stopping
  | other (.response _) => .hearing

theorem phase_response {code : Text} (h : Hears d code d') : PhaseEvent.Step d.state .hearing d'.state := by
  cases h with
  | connects _ _ _ _ hs => exact .inr hs
  | temperature _ _ _ _ hs => exact .inl hs
  | next _ _ _ _ _ hs => exact .inl hs
  | finished _ _ _ _ _ _ hs => exact .inr hs
  | again _ _ _ hs => exact .inl hs
  | nothingAgain _ _ _ _ hcase =>
    rcases hcase with ⟨-, hs⟩ | ⟨-, hs⟩
    · exact .inr hs
    · exact .inl hs
  | ignored _ _ _ he => exact .inl (he ▸ rfl)

theorem phase_step (h : Step atof d e d') : e.phase.Step d.state d'.state := by
  cases e with
  | openConnection rv ssrOk =>
    cases h
    exact d.openConnection_phase rv ssrOk
  | setGCode gcode totalLines metaData =>
    obtain ⟨⟨r, d₁⟩, hset, rfl⟩ := Option.map_eq_some_iff.mp h
    exact (setGCode_stores hset).state
  | heatup temperature => exact (sendCode_cases h).1
  | checkTemperature => exact (sendCode_cases h).1
  | other e =>
    cases e with
    | appendGCode gcode totalLines metaData =>
      obtain ⟨⟨r, d₁⟩, happend, rfl⟩ := Option.map_eq_some_iff.mp h
      exact (appendGCode_stores happend).state
    | clearGCode =>
      cases h
      exact d.clearGCode_phase
    | startPrint =>
      obtain ⟨⟨r, d₁⟩, hstart, rfl⟩ := Option.map_eq_some_iff.mp h
      rcases startPrint_cases (.inl rfl) hstart with ⟨-, hoffline, rfl⟩ | ⟨-, honline, -, hcase⟩
      · exact (if_neg (ne_true_of_eq_false hoffline)).mpr rfl
      · refine (if_pos honline).mpr ?_
        rcases hcase with ⟨g, -, hs⟩ | ⟨-, hs⟩
        · exact .inl hs
        · exact .inr hs
    | stopPrint endcode =>
      obtain ⟨⟨r, d₁⟩, hstop, rfl⟩ := Option.map_eq_some_iff.mp h
      rcases stopPrint_cases hstop with ⟨-, hoffline, -, -, hs⟩ | ⟨-, honline, -, hcase⟩
      · exact (if_neg (ne_true_of_eq_false hoffline)).mpr hs
      · refine (if_pos honline).mpr ?_
        rcases hcase with ⟨g, -, hs⟩ | ⟨-, hs⟩
        · exact .inl hs
        · exact .inr hs
    | response code => exact phase_response (readResponseCode_hears h)

end MarlinEvent

namespace MakerbotEvent
open MakerbotDriver

variable {σ : Type} {gpx : Gpx σ} {atof : Text → Int32} {d d' : MakerbotDriver σ} {e : MakerbotEvent}

def phase : MakerbotEvent → PhaseEvent
  | openConnection rv ssrOk => .opening (decide (0 ≤ rv) && ssrOk)
  | setGCode .. => .storing
  | appendGCode .. => .storing
  | clearGCode => .clearing
  | startPrint => .starting
  | stopPrint _ => .stopping
  | heatup _ => .commanding
  | update _ => .hearing

theorem phase_talks (h : Talks d d') : PhaseEvent.Step d.state .hearing d'.state := by
  rcases h.state with hs | ⟨-, hs, -⟩
  · exact .inl hs
  · exact .inr hs

theorem hearing_trans {s s' s'' : DriverState} (h : PhaseEvent.Step s .hearing s')
    (h' : PhaseEvent.Step s' .hearing s'') : PhaseEvent.Step s .hearing s'' := by
  rcases h' with hs' | hs'
  · rcases h with hs | hs
    · exact .inl (hs'.trans hs)
    · exact .inr (hs'.trans hs)
  · exact .inr hs'

theorem phase_update {rv : ℤ} (h : d.update gpx = .ok (rv, d')) :
    PhaseEvent.Step d.state .hearing d'.state := by
  rcases update_cases h with ⟨-, rfl⟩ | ⟨-, d₁, d₂, d₃, h₁, h₂, h₃, rfl⟩
  · exact .inl rfl
  · have hd₁ : d₁.state = d.state := by
      rcases refillQueue_cases h₁ with hr | ⟨-, rfl⟩
      · exact hr.state_received.1
      · rfl
    have hd₂ : PhaseEvent.Step d₁.state .hearing d₂.state := by
      unfold MakerbotDriver.sendQueue at h₂
      split_ifs at h₂
      · rcases processQueue_cases h₂ with ⟨-, n, hn⟩ | ⟨-, space, d₄, hd₄, ⟨-, rfl⟩ | ⟨-, rfl⟩⟩
        · have hphase := phase_talks hn
          exact hphase
        · exact phase_talks (requestBufferSpace_talks hd₄)
        · exact .inr rfl
      · cases h₂
        exact .inl rfl
    have hd₃ := phase_talks (queryPrinter_talks h₃)
    exact hd₁ ▸ hearing_trans hd₂ hd₃

/-- A stop leaves the state of an offline driver alone, and stops one that is online. -/
theorem phase_stop {endcode : Text} {r : Bool} (h : d.stopPrint gpx atof endcode = .ok (r, d')) :
    PhaseEvent.Step d.state .stopping d'.state := by
  cases ho : d.isPrinterOnline with
  | false => exact (if_neg (ne_true_of_eq_false ho)).mpr (stopPrint_offline ho h).2
  | true =>
    obtain ⟨r₁, r₂, d₁, d₂, h₁, h₂, h₃⟩ := stopPrint_cases h
    have hclear : (d.clearGCode gpx).isPrinterOnline = true := by
      obtain ⟨-, -, -, hs | ⟨-, hs⟩⟩ := AbstractDriver.clearGCode_cases d.toAbstractDriver
      · exact (AbstractDriver.isPrinterOnline_congr hs).trans ho
      · exact AbstractDriver.isPrinterOnline_of_idle hs
    have ho₁ : d₁.isPrinterOnline = true :=
      (AbstractDriver.isPrinterOnline_of_stores (setGCode_stores h₁).1).trans hclear
    have hreset : d₁.resetPrint.isPrinterOnline = true := by
      rcases (AbstractDriver.resetPrint_cases d₁.toAbstractDriver).1 with ⟨-, hs⟩ | ⟨hoff, -⟩
      · exact AbstractDriver.isPrinterOnline_of_idle hs
      · rw [ho₁] at hoff
        cases hoff
    have ho₂ : d₂.isPrinterOnline = true :=
      (AbstractDriver.isPrinterOnline_of_stores (setGCode_stores h₂).1).trans hreset
    obtain ⟨g, -, he⟩ := startPrint_online ho₂ .stopping
    rw [he] at h₃
    cases h₃
    exact (if_pos ho).mpr (.inl rfl)

theorem phase_step (h : Step gpx atof d e d') : e.phase.Step d.state d'.state := by
  cases e with
  | openConnection rv ssrOk =>
    cases h
    exact d.openConnection_phase rv ssrOk
  | setGCode gcode totalLines metaData =>
    obtain ⟨⟨r, d₁⟩, hset, rfl⟩ := map_eq_ok.mp h
    obtain ⟨g, base, -, hstored, rfl⟩ := setGCode_cases hset
    exact hstored.state
  | appendGCode gcode totalLines metaData =>
    obtain ⟨⟨r, d₁⟩, happend, rfl⟩ := map_eq_ok.mp h
    obtain ⟨g, base, -, hstored, rfl⟩ := appendGCode_cases happend
    exact hstored.state
  | clearGCode =>
    cases h
    exact d.clearGCode_phase
  | startPrint =>
    obtain rfl : d.startPrint.2 = d' := Except.ok.inj h
    cases ho : d.isPrinterOnline with
    | false =>
      rw [startPrint_offline ho]
      exact (if_neg (ne_true_of_eq_false ho)).mpr rfl
    | true =>
      obtain ⟨g, -, he⟩ := startPrint_online ho .printing
      rw [he]
      exact (if_pos ho).mpr (.inl rfl)
  | stopPrint endcode =>
    obtain ⟨⟨r, d₁⟩, hstop, rfl⟩ := map_eq_ok.mp h
    exact phase_stop hstop
  | heatup temperature =>
    cases h
    rfl
  | update arrivals =>
    obtain ⟨⟨rv, d₁⟩, hupdate, rfl⟩ := map_eq_ok.mp h
    have hphase := phase_update hupdate
    exact hphase

end MakerbotEvent

/-- What the machine says about the end of a run. -/
def PhaseEvent.Describes (es : List PhaseEvent) (s : DriverState) : Prop :=
  Run Step .disconnected es s ∧ Explains es s

theorem MarlinEvent.describes_run {atof : Text → Int32} {es : List MarlinEvent} {d : MarlinDriver}
    (h : Run (MarlinEvent.Step atof) {} es d) : PhaseEvent.Describes (es.map phase) d.state := by
  have hlabels : Run (fun d e (d' : MarlinDriver) => PhaseEvent.Step d.state e d'.state) {} (es.map phase) d :=
    h.relabel _ fun _ _ _ => phase_step
  have hphases : Run PhaseEvent.Step .disconnected (es.map phase) d.state :=
    hlabels.map (fun d : MarlinDriver => d.state) fun _ _ _ h => h
  exact ⟨hphases, PhaseEvent.explains_of_run hphases⟩

theorem MakerbotEvent.describes_run {σ : Type} {gpx : Gpx σ} {atof : Text → Int32} {state : σ}
    {es : List MakerbotEvent} {d : MakerbotDriver σ}
    (h : Run (MakerbotEvent.Step gpx atof) (.init state) es d) :
    PhaseEvent.Describes (es.map phase) d.state := by
  have hlabels : Run (fun d e (d' : MakerbotDriver σ) => PhaseEvent.Step d.state e d'.state) (.init state)
      (es.map phase) d := h.relabel _ fun _ _ _ => phase_step
  have hphases : Run PhaseEvent.Step .disconnected (es.map phase) d.state :=
    hlabels.map (fun d : MakerbotDriver σ => d.state) fun _ _ _ h => h
  exact ⟨hphases, PhaseEvent.explains_of_run hphases⟩

end Print3D
