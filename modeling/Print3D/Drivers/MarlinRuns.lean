import Print3D.Drivers.Transmission

/-! All that can happen to a Marlin driver, and what each of its functions does to the state,
the connection and the serial port. -/
namespace Print3D
open GCodeBuffer

namespace MarlinDriver

variable {atof : Text → Int32} {d d' : MarlinDriver}

/-! ### What a function can do to the print -/

structure Silent (d d' : MarlinDriver) : Prop where
  written : d'.written = d.written
  isConnected : d'.isConnected = d.isConnected

structure SendsNext (g : GCodeBuffer) (d d' : MarlinDriver) : Prop where
  next : 0 < g.getNextLine.1
  written : d'.written = d.written ++ if d.isConnected then [wire g.getNextLine.2] else []
  isConnected : d'.isConnected = d.isConnected

theorem sendCode_cases {code : Text} (hd : sendCode atof d code = some d') :
    d'.state = d.state ∧ d'.checkConnection = d.checkConnection ∧ d'.isConnected = d.isConnected ∧
      d'.written = d.written ++ if d.isConnected then [wire code] else [] := by
  by_cases hc : d.isConnected = true
  · obtain ⟨t, b, rfl⟩ := sendCode_eq hc hd
    rw [if_pos hc]
    exact ⟨rfl, rfl, rfl, rfl⟩
  · rw [sendCode, if_neg hc] at hd
    cases hd
    rw [if_neg hc, List.append_nil]
    exact ⟨rfl, rfl, rfl, rfl⟩

theorem printNextLine_cases (hd : printNextLine atof d = some d') :
    d'.checkConnection = d.checkConnection ∧
      ((SendsNext d.gcodeBuffer d d' ∧ d'.state = d.state) ∨
        (¬ 0 < d.gcodeBuffer.getNextLine.1 ∧ Silent d d' ∧ d' = d.resetPrint)) := by
  unfold printNextLine at hd
  dsimp only at hd
  split_ifs at hd with hnext
  · obtain ⟨d₁, hsend, hd⟩ := Option.bind_eq_some_iff.mp hd
    obtain ⟨hstate, hcheck, hconnected, hw⟩ := sendCode_cases hsend
    cases hd
    exact ⟨hcheck, .inl ⟨⟨hnext, hw, hconnected⟩, hstate⟩⟩
  · cases hd
    exact ⟨rfl, .inr ⟨hnext, ⟨rfl, (AbstractDriver.resetPrint_cases d.toAbstractDriver).2⟩, rfl⟩⟩

theorem resetPrint_offline (h : d.isPrinterOnline = false) : d.resetPrint = d := by
  rcases (AbstractDriver.resetPrint_cases d.toAbstractDriver).1 with ⟨ho, -⟩ | ⟨-, he⟩
  · rw [h] at ho
    cases ho
  · unfold resetPrint
    rw [he]

theorem resetPrint_online (h : d.isPrinterOnline = true) : d.resetPrint.state = .idle := by
  rcases (AbstractDriver.resetPrint_cases d.toAbstractDriver).1 with ⟨-, he⟩ | ⟨ho, -⟩
  · exact he
  · rw [h] at ho
    cases ho

theorem resetPrint_state (d : MarlinDriver) :
    d.isPrinterOnline = true ∧ d.resetPrint.state = .idle ∨
      d.isPrinterOnline = false ∧ d.resetPrint.state = d.state := by
  cases ho : d.isPrinterOnline with
  | true => exact .inl ⟨rfl, resetPrint_online ho⟩
  | false => exact .inr ⟨rfl, by rw [resetPrint_offline ho]⟩

structure Stores (d d' : MarlinDriver) : Prop extends Silent d d' where
  checkConnection : d'.checkConnection = d.checkConnection
  state : d'.state = d.state ∨ d.state = .idle ∧ d'.state = .buffering

theorem stores_of_gcodeStored {base' : AbstractDriver} {gcode : Text} {r r' : GcodeSetResult} {g : GCodeBuffer}
    (h : AbstractDriver.gcodeStored atof d.toAbstractDriver gcode (r, g) = some (r', base')) :
    Stores d { d with toAbstractDriver := base' } := by
  obtain ⟨-, t, b, state, rfl, hstate⟩ := AbstractDriver.gcodeStored_eq h
  exact ⟨⟨rfl, rfl⟩, rfl, hstate⟩

theorem setGCode_stores {gcode : Text} {totalLines : ℤ} {metaData : Option MetaData} {r : GcodeSetResult}
    (hd : setGCode atof d gcode totalLines metaData = some (r, d')) : Stores d d' := by
  obtain ⟨⟨gsr, base⟩, hbase, hd⟩ := Option.bind_eq_some_iff.mp hd
  obtain ⟨⟨gsr', g⟩, -, hbase⟩ := Option.bind_eq_some_iff.mp hbase
  cases hd
  exact stores_of_gcodeStored hbase

theorem appendGCode_stores {gcode : Text} {totalLines : ℤ} {metaData : Option MetaData} {r : GcodeSetResult}
    (hd : appendGCode atof d gcode totalLines metaData = some (r, d')) : Stores d d' := by
  obtain ⟨⟨gsr, base⟩, hbase, hd⟩ := Option.bind_eq_some_iff.mp hd
  obtain ⟨⟨gsr', g⟩, -, hbase⟩ := Option.bind_eq_some_iff.mp hbase
  cases hd
  exact stores_of_gcodeStored hbase

theorem Stores.isPrinterOnline (h : Stores d d') : d'.isPrinterOnline = d.isPrinterOnline :=
  AbstractDriver.isPrinterOnline_of_stores h.state

theorem Stores.isPrinting (h : Stores d d') : d'.isPrinting = d.isPrinting :=
  AbstractDriver.isPrinting_of_stores h.state

theorem clearGCode_cases (d : MarlinDriver) :
    Silent d d.clearGCode ∧ d.clearGCode.checkConnection = d.checkConnection ∧ d.clearGCode.isPrinting = false ∧
      (d.clearGCode.state = d.state ∨ d.isPrinterOnline = true ∧ d.clearGCode.state = .idle) := by
  obtain ⟨hconnected, -, hp, hs⟩ := AbstractDriver.clearGCode_cases d.toAbstractDriver
  exact ⟨⟨rfl, hconnected⟩, rfl, hp, hs⟩

theorem startPrint_cases {state : DriverState} (hs : state = .printing ∨ state = .stopping) {r : Bool}
    (hd : startPrint atof d state = some (r, d')) :
    (r = false ∧ d.isPrinterOnline = false ∧ d' = d) ∨
      (r = true ∧ d.isPrinterOnline = true ∧ d'.checkConnection = d.checkConnection ∧
        ((∃ g, SendsNext g d d' ∧ d'.state = state) ∨ (Silent d d' ∧ d'.state = .idle))) := by
  cases ho : d.isPrinterOnline with
  | false =>
    rw [startPrint, AbstractDriver.startPrint_offline ho] at hd
    cases hd
    exact .inl ⟨rfl, rfl, rfl⟩
  | true =>
    obtain ⟨g, -, hg⟩ := AbstractDriver.startPrint_online ho state
    rw [startPrint, hg] at hd
    obtain ⟨d₁, hd₁, he⟩ := Option.map_eq_some_iff.mp hd
    cases he
    obtain ⟨hcheck, ⟨hsends, hstate⟩ | ⟨-, hsilent, he⟩⟩ := printNextLine_cases hd₁
    · exact .inr ⟨rfl, rfl, hcheck, .inl ⟨g, ⟨hsends.next, hsends.written, hsends.isConnected⟩, hstate⟩⟩
    · refine .inr ⟨rfl, rfl, hcheck, .inr ⟨⟨hsilent.written, hsilent.isConnected⟩, ?_⟩⟩
      rw [he]
      exact resetPrint_online (AbstractDriver.isPrinterOnline_of_isPrinting
        (AbstractDriver.isPrinting_of_state hs))

theorem stopPrint_cases {endcode : Text} {r : Bool} (hd : stopPrint atof d endcode = some (r, d')) :
    (r = false ∧ d.isPrinterOnline = false ∧ Silent d d' ∧ d'.checkConnection = d.checkConnection ∧
        d'.state = d.state) ∨
      (r = true ∧ d.isPrinterOnline = true ∧ d'.checkConnection = d.checkConnection ∧
        ((∃ g, SendsNext g d d' ∧ d'.state = .stopping) ∨ (Silent d d' ∧ d'.state = .idle))) := by
  obtain ⟨⟨gsr, d₁⟩, hset, hd⟩ := Option.bind_eq_some_iff.mp hd
  have hstores := setGCode_stores hset
  have hreset : d.resetPrint.isConnected = d.isConnected := (AbstractDriver.resetPrint_cases _).2
  have honline : d.resetPrint.isPrinterOnline = d.isPrinterOnline := by
    cases ho : d.isPrinterOnline with
    | false => rw [resetPrint_offline ho, ho]
    | true => exact AbstractDriver.isPrinterOnline_iff.mpr (.inl (resetPrint_online ho))
  rcases startPrint_cases (.inr rfl) hd with ⟨hr, ho, rfl⟩ | ⟨hr, ho, hcheck, hcase⟩
  · have ho' : d.isPrinterOnline = false := by rw [← honline, ← hstores.isPrinterOnline, ho]
    rw [resetPrint_offline ho'] at hstores
    refine .inl ⟨hr, ho', hstores.toSilent, hstores.checkConnection, ?_⟩
    rcases hstores.state with hs | ⟨hs, -⟩
    · exact hs
    · have hidle := AbstractDriver.isPrinterOnline_iff.mpr (.inl hs)
      rw [ho'] at hidle
      cases hidle
  · refine .inr ⟨hr, by rw [← honline, ← hstores.isPrinterOnline, ho], hcheck.trans hstores.checkConnection, ?_⟩
    have hconnected : d₁.isConnected = d.isConnected := hstores.isConnected.trans hreset
    have hwritten : d₁.written = d.written := hstores.written
    rcases hcase with ⟨g, hsends, hstate⟩ | ⟨hsilent, hstate⟩
    · refine .inl ⟨g, ⟨hsends.next, ?_, hsends.isConnected.trans hconnected⟩, hstate⟩
      rw [hsends.written, hwritten, hconnected]
    · exact .inr ⟨⟨hsilent.written.trans hwritten, hsilent.isConnected.trans hconnected⟩, hstate⟩

def ReportsTemperature (code : Text) : Prop := ascii "ok T:" <+: code ∨ ascii "T:" <+: code

def Acknowledges (code : Text) : Prop := ascii "ok" <+: code ∧ ¬ ReportsTemperature code

/-- What a line of the printer does to the driver. -/
inductive Hears (d : MarlinDriver) (code : Text) (d' : MarlinDriver) : Prop
  | connects : ReportsTemperature code → d.checkConnection = true → Silent d d' → d'.checkConnection = false →
      d'.state = .idle → Hears d code d'
  | temperature : ReportsTemperature code → d.checkConnection = false → Silent d d' →
      d'.checkConnection = false → d'.state = d.state → Hears d code d'
  | next {n : ℤ} {g : GCodeBuffer} : Acknowledges code → d.isPrinting = true →
      d.gcodeBuffer.eraseLine = some (n, g) → SendsNext g d d' → d'.checkConnection = d.checkConnection →
      d'.state = d.state → Hears d code d'
  | finished {n : ℤ} {g : GCodeBuffer} : Acknowledges code → d.isPrinting = true →
      d.gcodeBuffer.eraseLine = some (n, g) → ¬ 0 < g.getNextLine.1 → Silent d d' →
      d'.checkConnection = d.checkConnection → d'.state = .idle → Hears d code d'
  | again : AsksResend code → SendsNext d.gcodeBuffer d d' → d'.checkConnection = d.checkConnection →
      d'.state = d.state → Hears d code d'
  | nothingAgain : AsksResend code → ¬ 0 < d.gcodeBuffer.getNextLine.1 → Silent d d' →
      d'.checkConnection = d.checkConnection →
      (d.isPrinterOnline = true ∧ d'.state = .idle ∨ d.isPrinterOnline = false ∧ d'.state = d.state) →
      Hears d code d'
  | ignored : ¬ ReportsTemperature code → ¬ AsksResend code → (Acknowledges code → d.isPrinting = false) →
      d' = d → Hears d code d'

theorem not_asksResend_of_reportsTemperature {code : Text} (h : ReportsTemperature code) :
    ¬ AsksResend code := by
  intro hr
  rcases h with h | h
  · exact hr.1 (List.IsPrefix.trans (by decide) h)
  · exact hr.2.1 h

theorem readResponseCode_hears {code : Text} (hd : readResponseCode atof d code = some d') :
    Hears d code d' := by
  unfold readResponseCode at hd
  split_ifs at hd with htemp hok hp hstart hresend
  · obtain ⟨d₁, hd₁, hd⟩ := Option.bind_eq_some_iff.mp hd
    obtain ⟨heating, t, tt, b, bt, rfl⟩ := parseTemperatures_eq hd₁
    cases hd
    cases hc : d.checkConnection with
    | true => exact .connects htemp hc ⟨rfl, rfl⟩ rfl rfl
    | false => exact .temperature htemp hc ⟨rfl, rfl⟩ rfl rfl
  · obtain ⟨⟨n, g⟩, he, hd⟩ := Option.bind_eq_some_iff.mp hd
    obtain ⟨hcheck, ⟨hsends, hstate⟩ | ⟨hnext, hsilent, hreset⟩⟩ := printNextLine_cases hd
    · exact .next ⟨hok, htemp⟩ hp he ⟨hsends.next, hsends.written, hsends.isConnected⟩ hcheck hstate
    · refine .finished ⟨hok, htemp⟩ hp he hnext ⟨hsilent.written, hsilent.isConnected⟩ hcheck ?_
      rw [hreset]
      exact resetPrint_online (AbstractDriver.isPrinterOnline_of_isPrinting hp)
  · cases hd
    exact .ignored htemp (fun hr => hr.1 hok) (fun _ => by simpa using hp) rfl
  · cases hd
    exact .ignored htemp (fun hr => hr.2.2.1 hstart) (fun hk => absurd hk.1 hok) rfl
  · have hr : AsksResend code := ⟨hok, fun ht => htemp (.inr ht), hstart, hresend⟩
    obtain ⟨hcheck, ⟨hsends, hstate⟩ | ⟨hnext, hsilent, hreset⟩⟩ := printNextLine_cases hd
    · exact .again hr ⟨hsends.next, hsends.written, hsends.isConnected⟩ hcheck hstate
    · refine .nothingAgain hr hnext ⟨hsilent.written, hsilent.isConnected⟩ hcheck ?_
      have hstate := resetPrint_state
        { d with gcodeBuffer := d.gcodeBuffer.setCurrentLine (i32 (d.gcodeBuffer.getCurrentLine - 1)) }
      rw [← hreset] at hstate
      exact hstate
  · cases hd
    exact .ignored htemp (fun hr => hresend hr.2.2.2) (fun hk => absurd hk.1 hok) rfl

end MarlinDriver

/-! ### Events -/

/-- What happens to a driver: the calls of its server, its own queries, and what the printer sends. -/
inductive MarlinEvent
  | openConnection (rv : ℤ) (ssrOk : Bool)
  | setGCode (gcode : Text) (totalLines : ℤ) (metaData : Option MetaData)
  | heatup (temperature : ℤ)
  | checkTemperature
  | other (e : DriverEvent)
  deriving DecidableEq

namespace MarlinEvent
open MarlinDriver

variable {atof : Text → Int32} {d d' : MarlinDriver} {e : MarlinEvent}

def exec (atof : Text → Int32) (d : MarlinDriver) : MarlinEvent → Option MarlinDriver
  | openConnection rv ssrOk => some { d with toAbstractDriver :=
      (d.toAbstractDriver.openConnection rv ssrOk).2 }
  | setGCode gcode totalLines metaData => (d.setGCode atof gcode totalLines metaData).map (·.2)
  | heatup temperature => d.heatup atof temperature
  | checkTemperature => d.checkTemperature atof
  | other e => e.exec atof d

def Step (atof : Text → Int32) (d : MarlinDriver) (e : MarlinEvent) (d' : MarlinDriver) : Prop :=
  e.exec atof d = some d'

/-- The events in which the driver writes a command of its own. -/
def isOwnCommand : MarlinEvent → Bool
  | heatup _ | checkTemperature => true
  | _ => false

def Starts : MarlinEvent → Prop
  | other .startPrint | other (.stopPrint _) => True
  | _ => False

def IsResponse : MarlinEvent → Prop
  | other (.response _) => True
  | _ => False

def IsOpening : MarlinEvent → Prop
  | openConnection .. => True
  | _ => False

/-- What an event other than a response does to the print: it leaves it alone, ends it, or starts
it with a line of the buffer. -/
inductive Affects (d : MarlinDriver) (e : MarlinEvent) (d' : MarlinDriver) : Prop
  | command : e.isOwnCommand = true → d'.isPrinting = d.isPrinting → Affects d e d'
  | quiet : e.isOwnCommand = false → d'.written = d.written →
      (d'.isPrinting = true → d.isPrinting = true) → Affects d e d'
  | sends {g : GCodeBuffer} : e.Starts → SendsNext g d d' → d'.isPrinting = true → Affects d e d'

theorem affects_of_starts {state : DriverState} (he : e.Starts) (hown : e.isOwnCommand = false)
    (hs : state = .printing ∨ state = .stopping)
    (h : (∃ g, SendsNext g d d' ∧ d'.state = state) ∨ (Silent d d' ∧ d'.state = .idle)) : Affects d e d' := by
  rcases h with ⟨g, hsends, hstate⟩ | ⟨hsilent, hstate⟩
  · exact .sends he hsends (AbstractDriver.isPrinting_of_state (hstate ▸ hs))
  · refine .quiet hown hsilent.written fun hp => ?_
    rw [AbstractDriver.isPrinting_of_idle hstate] at hp
    cases hp

theorem isConnected_of_starts {state : DriverState}
    (h : (∃ g, SendsNext g d d' ∧ d'.state = state) ∨ (Silent d d' ∧ d'.state = .idle)) :
    d'.isConnected = d.isConnected := by
  rcases h with ⟨g, hsends, -⟩ | ⟨hsilent, -⟩
  · exact hsends.isConnected
  · exact hsilent.isConnected

theorem affects (he : ¬ e.IsResponse) (h : Step atof d e d') : Affects d e d' := by
  cases e with
  | openConnection rv ssrOk =>
    cases h
    refine .quiet rfl rfl fun hp => ?_
    unfold AbstractDriver.openConnection AbstractDriver.setBaudrate at hp
    split_ifs at hp
    · exact hp
    · cases hp
    · exact hp
  | setGCode gcode totalLines metaData =>
    obtain ⟨⟨r, d₁⟩, hd, rfl⟩ := Option.map_eq_some_iff.mp h
    have hstores := setGCode_stores hd
    exact .quiet rfl hstores.written fun hp => hstores.isPrinting ▸ hp
  | heatup temperature => exact .command rfl (AbstractDriver.isPrinting_congr (sendCode_cases h).1)
  | checkTemperature => exact .command rfl (AbstractDriver.isPrinting_congr (sendCode_cases h).1)
  | other e =>
    cases e with
    | appendGCode gcode totalLines metaData =>
      obtain ⟨⟨r, d₁⟩, hd, rfl⟩ := Option.map_eq_some_iff.mp h
      have hstores := appendGCode_stores hd
      exact .quiet rfl hstores.written fun hp => hstores.isPrinting ▸ hp
    | clearGCode =>
      cases h
      obtain ⟨hsilent, -, hnot, -⟩ := clearGCode_cases d
      refine .quiet rfl hsilent.written fun hp => ?_
      rw [hnot] at hp
      cases hp
    | startPrint =>
      obtain ⟨⟨r, d₁⟩, hd, rfl⟩ := Option.map_eq_some_iff.mp h
      rcases startPrint_cases (.inl rfl) hd with ⟨-, -, rfl⟩ | ⟨-, -, -, hcase⟩
      · exact .quiet rfl rfl id
      · exact affects_of_starts trivial rfl (.inl rfl) hcase
    | stopPrint endcode =>
      obtain ⟨⟨r, d₁⟩, hd, rfl⟩ := Option.map_eq_some_iff.mp h
      rcases stopPrint_cases hd with ⟨-, -, hsilent, -, hs⟩ | ⟨-, -, -, hcase⟩
      · exact .quiet rfl hsilent.written fun hp => AbstractDriver.isPrinting_congr hs ▸ hp
      · exact affects_of_starts trivial rfl (.inr rfl) hcase
    | response code => exact absurd trivial he

/-! ### The connection -/

/-- What an event does to the connection: a temperature report establishes it, and nothing else
changes it. -/
inductive Connects (d : MarlinDriver) (e : MarlinEvent) (d' : MarlinDriver) : Prop
  | keeps : d'.checkConnection = d.checkConnection → d'.isPrinterOnline = d.isPrinterOnline → Connects d e d'
  | establishes {code : Text} : e = other (.response code) → ReportsTemperature code →
      d.checkConnection = true → d'.checkConnection = false → d'.state = .idle → Connects d e d'

theorem connects_of_starts {state : DriverState} (hs : state = .printing ∨ state = .stopping)
    (honline : d.isPrinterOnline = true) (hcheck : d'.checkConnection = d.checkConnection)
    (h : (∃ g, SendsNext g d d' ∧ d'.state = state) ∨ (Silent d d' ∧ d'.state = .idle)) : Connects d e d' := by
  refine .keeps hcheck (.trans (AbstractDriver.isPrinterOnline_iff.mpr ?_) honline.symm)
  rcases h with ⟨g, -, hstate⟩ | ⟨-, hstate⟩
  · rw [hstate]
    exact .inr (.inr hs)
  · exact .inl hstate

theorem connects_of_hears {code : Text} (h : Hears d code d') :
    d'.isConnected = d.isConnected ∧ Connects d (other (.response code)) d' := by
  cases h with
  | connects ht hc hsilent hc' hs => exact ⟨hsilent.isConnected, .establishes rfl ht hc hc' hs⟩
  | temperature _ hc hsilent hc' hs =>
    exact ⟨hsilent.isConnected, .keeps (hc'.trans hc.symm) (AbstractDriver.isPrinterOnline_congr hs)⟩
  | next _ _ _ hsends hcheck hs =>
    exact ⟨hsends.isConnected, .keeps hcheck (AbstractDriver.isPrinterOnline_congr hs)⟩
  | finished _ hp _ _ hsilent hcheck hs =>
    have honline := AbstractDriver.isPrinterOnline_of_isPrinting hp
    exact ⟨hsilent.isConnected, .keeps hcheck ((AbstractDriver.isPrinterOnline_of_idle hs).trans honline.symm)⟩
  | again _ hsends hcheck hs =>
    exact ⟨hsends.isConnected, .keeps hcheck (AbstractDriver.isPrinterOnline_congr hs)⟩
  | nothingAgain _ _ hsilent hcheck hcase =>
    rcases hcase with ⟨ho, hs⟩ | ⟨-, hs⟩
    · exact ⟨hsilent.isConnected, .keeps hcheck ((AbstractDriver.isPrinterOnline_of_idle hs).trans ho.symm)⟩
    · exact ⟨hsilent.isConnected, .keeps hcheck (AbstractDriver.isPrinterOnline_congr hs)⟩
  | ignored _ _ _ he =>
    subst he
    exact ⟨rfl, .keeps rfl rfl⟩

theorem connects (he : ¬ e.IsOpening) (h : Step atof d e d') :
    d'.isConnected = d.isConnected ∧ Connects d e d' := by
  cases e with
  | openConnection rv ssrOk => exact absurd trivial he
  | setGCode gcode totalLines metaData =>
    obtain ⟨⟨r, d₁⟩, hd, rfl⟩ := Option.map_eq_some_iff.mp h
    have hstores := setGCode_stores hd
    exact ⟨hstores.isConnected, .keeps hstores.checkConnection hstores.isPrinterOnline⟩
  | heatup temperature =>
    obtain ⟨hs, hcheck, hconnected, -⟩ := sendCode_cases h
    exact ⟨hconnected, .keeps hcheck (AbstractDriver.isPrinterOnline_congr hs)⟩
  | checkTemperature =>
    obtain ⟨hs, hcheck, hconnected, -⟩ := sendCode_cases h
    exact ⟨hconnected, .keeps hcheck (AbstractDriver.isPrinterOnline_congr hs)⟩
  | other e =>
    cases e with
    | appendGCode gcode totalLines metaData =>
      obtain ⟨⟨r, d₁⟩, hd, rfl⟩ := Option.map_eq_some_iff.mp h
      have hstores := appendGCode_stores hd
      exact ⟨hstores.isConnected, .keeps hstores.checkConnection hstores.isPrinterOnline⟩
    | clearGCode =>
      cases h
      obtain ⟨hsilent, hcheck, -, hs | ⟨ho, hs⟩⟩ := clearGCode_cases d
      · exact ⟨hsilent.isConnected, .keeps hcheck (AbstractDriver.isPrinterOnline_congr hs)⟩
      · exact ⟨hsilent.isConnected, .keeps hcheck ((AbstractDriver.isPrinterOnline_of_idle hs).trans ho.symm)⟩
    | startPrint =>
      obtain ⟨⟨r, d₁⟩, hd, rfl⟩ := Option.map_eq_some_iff.mp h
      rcases startPrint_cases (.inl rfl) hd with ⟨-, -, rfl⟩ | ⟨-, ho, hcheck, hcase⟩
      · exact ⟨rfl, .keeps rfl rfl⟩
      · exact ⟨isConnected_of_starts hcase, connects_of_starts (.inl rfl) ho hcheck hcase⟩
    | stopPrint endcode =>
      obtain ⟨⟨r, d₁⟩, hd, rfl⟩ := Option.map_eq_some_iff.mp h
      rcases stopPrint_cases hd with ⟨-, -, hsilent, hcheck, hs⟩ | ⟨-, ho, hcheck, hcase⟩
      · exact ⟨hsilent.isConnected, .keeps hcheck (AbstractDriver.isPrinterOnline_congr hs)⟩
      · exact ⟨isConnected_of_starts hcase, connects_of_starts (.inr rfl) ho hcheck hcase⟩
    | response code => exact connects_of_hears (readResponseCode_hears h)

/-- The driver is online exactly if it has stopped checking the connection. -/
def Checked (d : MarlinDriver) : Prop := d.isPrinterOnline = true ↔ d.checkConnection = false

theorem Connects.checked (h : Connects d e d') (hd : Checked d) : Checked d' := by
  cases h with
  | keeps hcheck honline =>
    unfold Checked
    rw [hcheck, honline]
    exact hd
  | establishes _ _ _ hc hs => exact iff_of_true (AbstractDriver.isPrinterOnline_iff.mpr (.inl hs)) hc

end MarlinEvent
end Print3D
