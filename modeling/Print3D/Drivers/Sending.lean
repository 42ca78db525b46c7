import Print3D.Drivers.MarlinRuns

/-! In which states the lines of the gcode buffer go to the printer. -/
namespace Print3D
open GCodeBuffer MarlinDriver Transition

namespace MarlinEvent

variable {atof : Text → Int32} {d d' : MarlinDriver} {e : MarlinEvent}

/-- A line of the gcode buffer is written. `printNextLine` changes no state when it sends one, so
that the state of the write is the one after the event. -/
def SendsBuffered (d : MarlinDriver) (e : MarlinEvent) (d' : MarlinDriver) : Prop :=
  e.isOwnCommand = false ∧ d'.written ≠ d.written

/-- A line of the buffer is written only in the states `PRINTING` and `STOPPING`. -/
def SendsWhilePrinting (d : MarlinDriver) (e : MarlinEvent) (d' : MarlinDriver) : Prop :=
  SendsBuffered d e d' → d'.state = .printing ∨ d'.state = .stopping

/-- A line is asked for again outside a print, and there is one to send. -/
def Strays (d : MarlinDriver) : MarlinEvent → Prop
  | other (.response code) =>
    AsksResend code ∧ d.isPrinting = false ∧ d.isConnected = true ∧ 0 < d.gcodeBuffer.getNextLine.1
  | _ => False

theorem sendsWhilePrinting_of_written_eq (h : d'.written = d.written) : SendsWhilePrinting d e d' :=
  fun hs => absurd h hs.2

theorem startPrint_sendsWhilePrinting {state : DriverState} (hstate : state = .printing ∨ state = .stopping)
    (h : (∃ g, SendsNext g d d' ∧ d'.state = state) ∨ (Silent d d' ∧ d'.state = .idle)) :
    SendsWhilePrinting d e d' := by
  rcases h with ⟨g, -, hs⟩ | ⟨hsilent, -⟩
  · exact fun _ => hs ▸ hstate
  · exact sendsWhilePrinting_of_written_eq hsilent.written

theorem sendsNext_written_ne {g : GCodeBuffer} (h : SendsNext g d d') :
    d'.written ≠ d.written ↔ d.isConnected = true := by
  rw [h.written]
  by_cases hc : d.isConnected = true
  · simp [hc]
  · simp [hc]

theorem response_sendsWhilePrinting_iff {code : Text} (h : Hears d code d') :
    SendsWhilePrinting d (other (.response code)) d' ↔ ¬ Strays d (other (.response code)) := by
  have hquiet : Silent d d' → ¬ Strays d (other (.response code)) →
      (SendsWhilePrinting d (other (.response code)) d' ↔ ¬ Strays d (other (.response code))) :=
    fun hs hn => iff_of_true (sendsWhilePrinting_of_written_eq hs.written) hn
  cases h with
  | connects ht _ hs => exact hquiet hs fun hr => not_asksResend_of_reportsTemperature ht hr.1
  | temperature ht _ hs => exact hquiet hs fun hr => not_asksResend_of_reportsTemperature ht hr.1
  | next hk hp _ _ _ hstate =>
    refine iff_of_true (fun _ => ?_) fun hr => hr.1.1 hk.1
    rw [hstate]
    exact of_decide_eq_true hp
  | finished hk _ _ _ hs => exact hquiet hs fun hr => hr.1.1 hk.1
  | again hr hsends _ hstate =>
    constructor
    · intro hprinting ⟨_, hp, hc, _⟩
      have hwhile := hprinting ⟨rfl, (sendsNext_written_ne hsends).mpr hc⟩
      rw [hstate] at hwhile
      exact absurd (AbstractDriver.isPrinting_of_state hwhile) (by simp [hp])
    · intro hstray hwrites
      have hc := (sendsNext_written_ne hsends).mp hwrites.2
      rw [hstate]
      by_contra hp
      exact hstray ⟨hr, decide_eq_false hp, hc, hsends.next⟩
  | nothingAgain _ hnext hs => exact hquiet hs fun hr => hnext hr.2.2.2
  | ignored _ hr _ he => exact hquiet ⟨by rw [he], by rw [he]⟩ fun hs => hr hs.1

theorem sendsWhilePrinting_iff (h : Step atof d e d') : SendsWhilePrinting d e d' ↔ ¬ Strays d e := by
  cases e with
  | openConnection rv ssrOk =>
    cases h
    exact iff_of_true (sendsWhilePrinting_of_written_eq rfl) id
  | setGCode gcode totalLines metaData =>
    obtain ⟨⟨r, d₁⟩, hd, rfl⟩ := Option.map_eq_some_iff.mp h
    exact iff_of_true (sendsWhilePrinting_of_written_eq (setGCode_stores hd).written) id
  | heatup temperature => exact iff_of_true (fun hs => by cases hs.1) id
  | checkTemperature => exact iff_of_true (fun hs => by cases hs.1) id
  | other e =>
    cases e with
    | appendGCode gcode totalLines metaData =>
      obtain ⟨⟨r, d₁⟩, hd, rfl⟩ := Option.map_eq_some_iff.mp h
      exact iff_of_true (sendsWhilePrinting_of_written_eq (appendGCode_stores hd).written) id
    | clearGCode =>
      cases h
      exact iff_of_true (sendsWhilePrinting_of_written_eq (clearGCode_cases d).1.written) id
    | startPrint =>
      obtain ⟨⟨r, d₁⟩, hd, rfl⟩ := Option.map_eq_some_iff.mp h
      refine iff_of_true ?_ id
      rcases startPrint_cases (.inl rfl) hd with ⟨-, -, rfl⟩ | ⟨-, -, -, hcase⟩
      · exact sendsWhilePrinting_of_written_eq rfl
      · exact startPrint_sendsWhilePrinting (.inl rfl) hcase
    | stopPrint endcode =>
      obtain ⟨⟨r, d₁⟩, hd, rfl⟩ := Option.map_eq_some_iff.mp h
      refine iff_of_true ?_ id
      rcases stopPrint_cases hd with ⟨-, -, hs, -⟩ | ⟨-, -, -, hcase⟩
      · exact sendsWhilePrinting_of_written_eq hs.written
      · exact startPrint_sendsWhilePrinting (.inr rfl) hcase
    | response code => exact response_sendsWhilePrinting_iff (readResponseCode_hears h)

/-- A garbled line makes an idle machine move. -/
theorem not_sendsWhilePrinting : ¬ ∀ (ls : List MarlinEvent) (d : MarlinDriver),
    Run (Step fun _ => 0) {} ls d → RunWith (Step fun _ => 0) SendsWhilePrinting {} ls d := by
  intro h
  let d₁ : MarlinDriver := { isConnected := true, state := .connecting }
  let g : GCodeBuffer :=
    { buckets := [ascii "G1 X1\n"], bufferedLines := 1, totalLinesSent := 1, bufferSize := 6 }
  let d₂ : MarlinDriver := { d₁ with gcodeBuffer := g }
  let d₃ : MarlinDriver := { d₁ with written := [ascii "G1 X1\n"], gcodeBuffer := g }
  have h₁ : Step (fun _ => 0) {} (openConnection 0 true) d₁ := rfl
  have h₂ : Step (fun _ => 0) d₁ (other (.appendGCode (ascii "G1 X1") (-1) none)) d₂ := by
    unfold Step
    decide
  have h₃ : Step (fun _ => 0) d₂ (other (.response (ascii "Resend:1"))) d₃ := by
    unfold Step
    decide
  obtain ⟨d₁', ⟨hd₁, -⟩, hrun⟩ := (h _ _ (.cons h₁ (.cons h₂ (.cons h₃ (.nil d₃))))).cons_inv
  obtain ⟨d₂', ⟨hd₂, -⟩, hrun⟩ := hrun.cons_inv
  obtain ⟨d₃', ⟨hd₃, hwhile⟩, -⟩ := hrun.cons_inv
  obtain rfl := Option.some.inj (h₁.symm.trans hd₁)
  obtain rfl := Option.some.inj (h₂.symm.trans hd₂)
  obtain rfl := Option.some.inj (h₃.symm.trans hd₃)
  exact absurd (hwhile ⟨rfl, by decide⟩) (by decide)

/-- In every run of the driver, lines of the buffer are written only while it prints, if and only
if no step strays. -/
theorem sends_while_printing_iff {ls : List MarlinEvent} :
    RunWith (Step atof) SendsWhilePrinting {} ls d ↔ RunWith (Step atof) (fun d e _ => ¬ Strays d e) {} ls d :=
  runWith_iff (fun _ _ => True) (fun _ _ _ _ _ hstep => sendsWhilePrinting_iff hstep)
    (fun _ _ _ _ _ _ _ => trivial) trivial

end MarlinEvent
end Print3D
