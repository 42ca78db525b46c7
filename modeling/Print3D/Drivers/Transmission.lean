import Print3D.Drivers.MarlinDriver
import Print3D.Drivers.AbstractRuns
import Print3D.Library.StopAndWait

/-! The Marlin driver sends the lines of its buffer one at a time, each as often as it is
asked to and none before the one in front of it is acknowledged. -/
namespace Print3D
open Lines GCodeBuffer StopAndWait

namespace MarlinDriver

variable {atof : Text → Int32} {d d' : MarlinDriver}

theorem sendCode_eq {code : Text} (hc : d.isConnected = true) (h : sendCode atof d code = some d') :
    ∃ t b, d' = { d with
      targetTemperature := t
      targetBedTemperature := b
      written := d.written ++ [wire code] } := by
  rw [sendCode, if_pos hc] at h
  obtain ⟨base, hb, h⟩ := Option.bind_eq_some_iff.mp h
  obtain ⟨t, b, rfl⟩ := AbstractDriver.extractGCodeInfo_eq hb
  exact ⟨t, b, (Option.some.inj h).symm⟩

theorem parseTemperatures_eq {code : Text} (h : parseTemperatures atof d code = some d') :
    ∃ heating t tt b bt, d' = { d with
      heating := heating
      temperature := t
      targetTemperature := tt
      bedTemperature := b
      targetBedTemperature := bt } := by
  obtain ⟨temperature, -, h⟩ := Option.bind_eq_some_iff.mp h
  obtain ⟨target, -, h⟩ := Option.bind_eq_some_iff.mp h
  obtain ⟨bed, -, h⟩ := Option.bind_eq_some_iff.mp h
  obtain ⟨bedTarget, -, h⟩ := Option.bind_eq_some_iff.mp h
  exact ⟨_, _, _, _, _, (Option.some.inj h).symm⟩

/-! ### The driver as a sender -/

variable {s : Sender Text}

/-- The buffer stores what the sender stores. -/
structure Holds (d : MarlinDriver) (s : Sender Text) : Prop where
  buffer : ∃ store, d.gcodeBuffer.Tracks store s.submitted ∧ store.lines = s.stored
  connected : d.isConnected = true
  checking : d.checkConnection = true → d.state = .connecting

/-- In the states in which it prints, the driver has the first stored line in flight. -/
structure Sends (d : MarlinDriver) (s : Sender Text) : Prop extends Holds d s where
  inFlight : s.inFlight.isSome = d.isPrinting

theorem Holds.checkConnection_of_isPrinting (h : Holds d s) (hp : d.isPrinting = true) :
    d.checkConnection = false := by
  by_contra hc
  have hs := h.checking (by simpa using hc)
  rcases of_decide_eq_true hp with hp | hp <;> rw [hp] at hs <;> cases hs

theorem Holds.printNextLine (h : Holds d s) (hp : d.isPrinting = true)
    (hd : printNextLine atof d = some d') :
    Sends d' s.send ∧ d'.written = d.written ++ s.stored.head?.toList.map wire := by
  obtain ⟨store, htracks, hlines⟩ := h.buffer
  have hbuffer : ∀ line, ∃ store', (d.gcodeBuffer.setCurrentLine line).Tracks store' s.send.submitted ∧
      store'.lines = s.send.stored := fun line => by
    rw [Sender.submitted_send, Sender.stored_send]
    exact ⟨store, htracks.setCurrentLine line, hlines⟩
  have hcheck := h.checkConnection_of_isPrinting hp
  cases hs : s.stored with
  | nil =>
    have hnext : d.gcodeBuffer.getNextLine = (0, []) := by
      apply getNextLine_of_nil htracks.stores
      have hpre := store.front_prefix
      rw [hlines, hs] at hpre
      exact List.prefix_nil.mp hpre
    rw [MarlinDriver.printNextLine, hnext] at hd
    have hreset : d' = { d with
        state := .idle
        gcodeBuffer := d.gcodeBuffer.setCurrentLine 0 } := by
      have hd' : d.resetPrint = d' := Option.some.inj hd
      rw [← hd', resetPrint, AbstractDriver.resetPrint,
      if_pos (AbstractDriver.isPrinterOnline_of_isPrinting hp)]
      rfl
    subst hreset
    refine ⟨⟨⟨hbuffer 0, h.connected, fun hc => ?_⟩, ?_⟩, by simp⟩
    · rw [hcheck] at hc
      cases hc
    · rw [Sender.inFlight_send, hs]
      rfl
  | cons l ls =>
    have hnext := getNextLine_one htracks.stores (hlines.trans hs)
    rw [MarlinDriver.printNextLine, hnext] at hd
    obtain ⟨d₁, hsend, hd⟩ := Option.bind_eq_some_iff.mp hd
    obtain ⟨t, b, rfl⟩ := sendCode_eq h.connected hsend
    cases hd
    refine ⟨⟨⟨hbuffer _, h.connected, fun hc => ?_⟩, ?_⟩, rfl⟩
    · rw [hcheck] at hc
      cases hc
    · rw [Sender.inFlight_send, hs]
      exact hp.symm

/-- The driver has become `d'` with the same lines submitted, and has written what was sent. -/
def Advances (d : MarlinDriver) (s : Sender Text) (d' : MarlinDriver) : Prop :=
  ∃ s', Sends d' s' ∧ s'.submitted = s.submitted ∧
    ∃ ws, d'.written = d.written ++ ws ∧ s'.sent.map wire = s.sent.map wire ++ ws

theorem Sends.advances_of_written_eq (h : Sends d' s) (hw : d'.written = d.written) : Advances d s d' :=
  ⟨s, h, rfl, [], by simp [hw], by simp⟩

theorem Holds.printNextLine_advances (h : Holds d s) (hp : d.isPrinting = true) (hs : s.inFlight = none)
    (hd : MarlinDriver.printNextLine atof d = some d') : Advances d s d' := by
  obtain ⟨hsends, hw⟩ := h.printNextLine hp hd
  exact ⟨_, hsends, Sender.submitted_send s, _, hw, by rw [Sender.sent_send s hs, List.map_append]⟩

theorem Sends.startPrint (h : Sends d s) (hp : d.isPrinting = false) {state : DriverState}
    (hstate : state = .printing ∨ state = .stopping) {r : Bool}
    (hd : startPrint atof d state = some (r, d')) : Advances d s d' := by
  have hs : s.inFlight = none := by
    have hf := h.inFlight
    rw [hp] at hf
    simpa using hf
  by_cases honline : d.isPrinterOnline = true
  · have hnot : d.state ≠ .printing ∧ d.state ≠ .stopping := by
      have := of_decide_eq_false hp
      tauto
    have hcheck : d.checkConnection = false := by
      by_contra hc
      have hconnecting := h.checking (by simpa using hc)
      simp [AbstractDriver.isPrinterOnline, hconnecting] at honline
    obtain ⟨store, htracks, hlines⟩ := h.buffer
    set d₁ : MarlinDriver := { d with
      state := state
      gcodeBuffer := d.gcodeBuffer.setCurrentLine 0 } with hd₁
    have hstart : d.toAbstractDriver.startPrint state = (true, d₁.toAbstractDriver) := by
      rw [AbstractDriver.startPrint, if_neg (not_not.mpr honline)]
      simp only [hnot.1, hnot.2, ne_eq, not_false_eq_true, and_self, if_true, AbstractDriver.resetPrint,
        honline, AbstractDriver.setState, hd₁]
    have hholds : Holds d₁ s :=
      ⟨⟨store, htracks.setCurrentLine 0, hlines⟩, h.connected, fun hc => by
        rw [hcheck] at hc
        cases hc⟩
    rw [MarlinDriver.startPrint, hstart] at hd
    obtain ⟨d₂, hd₂, he⟩ := Option.map_eq_some_iff.mp hd
    cases he
    exact hholds.printNextLine_advances (AbstractDriver.isPrinting_of_state hstate) hs hd₂
  · have hstart : d.toAbstractDriver.startPrint state = (false, d.toAbstractDriver) := by
      rw [AbstractDriver.startPrint, if_pos (by simpa using honline)]
    rw [MarlinDriver.startPrint, hstart] at hd
    cases hd
    exact h.advances_of_written_eq rfl

/-- The lines an answer of the buffer adds. -/
def accepted (g : GCodeBuffer) (gcode : Text) (metaData : Option MetaData) : List Text :=
  if g.Accepts gcode metaData then normLines g.keepGpxMacroComments gcode else []

theorem gcodeStored_setBuffer {base : AbstractDriver} (g₀ : GCodeBuffer) {gcode : Text}
    {a : GcodeSetResult × GCodeBuffer} :
    AbstractDriver.gcodeStored atof { base with gcodeBuffer := g₀ } gcode a =
      AbstractDriver.gcodeStored atof base gcode a := by
  obtain ⟨r, g⟩ := a
  cases r <;> rfl

theorem Holds.stored {base base' : AbstractDriver} (h : Holds d s) (hd : d.toAbstractDriver = base)
    {gcode : Text} {metaData : Option MetaData} {r r' : GcodeSetResult} {g : GCodeBuffer}
    {totalLines : ℤ} (ha : d.gcodeBuffer.append gcode totalLines metaData = some (r, g))
    (hstored : AbstractDriver.gcodeStored atof base gcode (r, g) = some (r', base')) :
    Holds { d with toAbstractDriver := base' } (s.submit (accepted d.gcodeBuffer gcode metaData)) ∧
      base'.isPrinting = base.isPrinting := by
  subst hd
  obtain ⟨-, t, b, state, rfl, hstate⟩ := AbstractDriver.gcodeStored_eq hstored
  obtain ⟨store, htracks, hlines⟩ := h.buffer
  refine ⟨⟨?_, h.connected, fun hc => ?_⟩, ?_⟩
  · rw [Sender.submitted_submit, Sender.stored_submit]
    rcases append_cases ha with ⟨rfl, hacc, -⟩ | ⟨-, hacc, rfl⟩
    · obtain ⟨store', h', hl⟩ := htracks.append ha
      rw [accepted, if_pos hacc]
      exact ⟨store', h', by rw [hl, hlines]⟩
    · rw [accepted, if_neg hacc, List.append_nil, List.append_nil]
      exact ⟨store, htracks, hlines⟩
  · have hconnecting := h.checking hc
    rcases hstate with hstate | ⟨hidle, -⟩
    · exact hstate.trans hconnecting
    · rw [hconnecting] at hidle
      cases hidle
  · rcases hstate with rfl | ⟨hidle, rfl⟩
    · rfl
    · simp [AbstractDriver.isPrinting, hidle]

theorem Sends.appendGCode (h : Sends d s) {gcode : Text} {totalLines : ℤ} {metaData : Option MetaData}
    {r : GcodeSetResult} (hd : appendGCode atof d gcode totalLines metaData = some (r, d')) :
    Sends d' (s.submit (accepted d.gcodeBuffer gcode metaData)) ∧ d'.written = d.written := by
  obtain ⟨⟨gsr, base⟩, hbase, hd⟩ := Option.bind_eq_some_iff.mp hd
  obtain ⟨⟨gsr', g⟩, ha, hbase⟩ := Option.bind_eq_some_iff.mp hbase
  cases hd
  obtain ⟨hholds, hprinting⟩ := h.toHolds.stored rfl ha hbase
  exact ⟨⟨hholds, h.inFlight.trans hprinting.symm⟩, rfl⟩

theorem Sends.clearGCode (h : Sends d s) :
    Sends d.clearGCode (.start []) ∧ d.clearGCode.written = d.written := by
  have hstate : d.clearGCode.state = (if d.state = .buffering ∨ d.state = .printing ∨ d.state = .stopping
      then .idle else d.state) ∧ d.clearGCode.gcodeBuffer = d.gcodeBuffer.clear ∧
      d.clearGCode.isConnected = d.isConnected := by
    unfold MarlinDriver.clearGCode AbstractDriver.clearGCode
    dsimp only
    split_ifs <;> exact ⟨rfl, rfl, rfl⟩
  obtain ⟨hstate, hbuffer, hconnected⟩ := hstate
  refine ⟨⟨⟨?_, hconnected.trans h.connected, fun hc => ?_⟩, ?_⟩, rfl⟩
  · rw [hbuffer]
    exact ⟨.empty, tracks_clear _, rfl⟩
  · have hconnecting := h.checking hc
    rw [hstate, if_neg (by simp [hconnecting])]
    exact hconnecting
  · unfold AbstractDriver.isPrinting
    rw [hstate]
    split_ifs with hs
    · rfl
    · have hnot : ¬ (d.state = .printing ∨ d.state = .stopping) := fun hp => hs (.inr hp)
      simp [hnot]

theorem resetPrint_eq (d : MarlinDriver) : d.resetPrint.isPrinting = false ∧
    (d.resetPrint.state = d.state ∨ d.state ≠ .connecting ∧ d.resetPrint.state = .idle) ∧
      d.resetPrint.isConnected = d.isConnected ∧ d.resetPrint.gcodeBuffer.clear = d.gcodeBuffer.clear := by
  unfold resetPrint AbstractDriver.resetPrint
  by_cases ho : d.isPrinterOnline = true
  · rw [if_pos ho]
    have hne : d.state ≠ .connecting := fun hc => by simp [AbstractDriver.isPrinterOnline, hc] at ho
    exact ⟨rfl, .inr ⟨hne, rfl⟩, rfl, rfl⟩
  · rw [if_neg ho]
    refine ⟨?_, .inl rfl, rfl, rfl⟩
    by_contra hp
    exact ho (AbstractDriver.isPrinterOnline_of_isPrinting (by simpa using hp))

theorem Sends.stopPrint (h : Sends d s) {endcode : Text} {r : Bool}
    (hd : stopPrint atof d endcode = some (r, d')) :
    Advances d (.start (accepted d.gcodeBuffer.clear endcode none)) d' := by
  obtain ⟨⟨gsr, d₁⟩, hset, hd⟩ := Option.bind_eq_some_iff.mp hd
  obtain ⟨⟨gsr', base⟩, hbase, hset⟩ := Option.bind_eq_some_iff.mp hset
  obtain ⟨⟨gsr'', g⟩, ha, hbase⟩ := Option.bind_eq_some_iff.mp hbase
  cases hset
  obtain ⟨hprinting, hstate, hconnected, hclear⟩ := resetPrint_eq d
  have hcleared : Holds { d.resetPrint with gcodeBuffer := d.resetPrint.gcodeBuffer.clear } (.start []) := by
    refine ⟨⟨.empty, tracks_clear _, rfl⟩, hconnected.trans h.connected, fun hc => ?_⟩
    have hconnecting := h.checking hc
    rcases hstate with hstate | ⟨hne, -⟩
    · exact hstate.trans hconnecting
    · exact absurd hconnecting hne
  rw [← gcodeStored_setBuffer d.resetPrint.gcodeBuffer.clear] at hbase
  obtain ⟨hholds, hnot⟩ := hcleared.stored rfl ha hbase
  rw [hclear] at hholds
  have hsends : Sends { d.resetPrint with toAbstractDriver := base }
      (.start (accepted d.gcodeBuffer.clear endcode none)) :=
    ⟨hholds, by rw [Sender.inFlight_start]; exact (hnot.trans hprinting).symm⟩
  exact hsends.startPrint (hnot.trans hprinting) (.inr rfl) hd

def AsksResend (code : Text) : Prop :=
  ¬ ascii "ok" <+: code ∧ ¬ ascii "T:" <+: code ∧ ¬ ascii "start" <:+: code ∧ ascii "Resend:" <:+: code

instance (code : Text) : Decidable (AsksResend code) := by
  unfold AsksResend
  infer_instance

theorem exists_inFlight (h : Sends d s) (hp : d.isPrinting = true) : ∃ l, s.inFlight = some l :=
  Option.isSome_iff_exists.mp (h.inFlight.trans hp)

theorem Sends.temperatures (h : Sends d s) {code : Text} {d₁ : MarlinDriver}
    (hd : parseTemperatures atof d code = some d₁)
    (he : d' = if d₁.checkConnection then { d₁ with checkConnection := false, state := .idle } else d₁) :
    Sends d' s ∧ d'.written = d.written := by
  obtain ⟨heating, t, tt, b, bt, rfl⟩ := parseTemperatures_eq hd
  dsimp only at he
  split_ifs at he with hc
  · subst he
    have hconnecting := h.checking hc
    refine ⟨⟨⟨h.buffer, h.connected, fun hc => ?_⟩, ?_⟩, rfl⟩
    · cases hc
    · rw [h.inFlight]
      simp [AbstractDriver.isPrinting, hconnecting]
  · subst he
    exact ⟨⟨⟨h.buffer, h.connected, h.checking⟩, h.inFlight⟩, rfl⟩

theorem Sends.ok (h : Sends d s) (hp : d.isPrinting = true) {n : ℤ} {g : GCodeBuffer}
    (he : d.gcodeBuffer.eraseLine = some (n, g))
    (hd : MarlinDriver.printNextLine atof { d with gcodeBuffer := g } = some d') : Advances d s d' := by
  obtain ⟨l, hl⟩ := exists_inFlight h hp
  obtain ⟨store, htracks, hlines⟩ := h.buffer
  rw [Sender.stored_of_inFlight s hl] at hlines
  obtain ⟨n', g', store', he', htracks', hlines'⟩ := htracks.eraseLine_one hlines
  rw [he'] at he
  cases he
  have hholds : Holds { d with gcodeBuffer := g } s.ack :=
    ⟨⟨store', by rwa [Sender.submitted_ack], by rw [hlines', Sender.stored_ack]⟩, h.connected, h.checking⟩
  obtain ⟨s', hs', hsub, ws, hw, hsent⟩ := hholds.printNextLine_advances hp (Sender.inFlight_ack s) hd
  rw [Sender.submitted_ack] at hsub
  rw [Sender.sent_ack] at hsent
  exact ⟨s', hs', hsub, ws, hw, hsent⟩

theorem Sends.resend (h : Sends d s) (hp : d.isPrinting = true) (line : ℤ)
    (hd : MarlinDriver.printNextLine atof { d with gcodeBuffer := d.gcodeBuffer.setCurrentLine line } =
      some d') :
    Sends d' s ∧ ∃ l, s.sent.getLast? = some l ∧ d'.written = d.written ++ [wire l] := by
  obtain ⟨l, hl⟩ := exists_inFlight h hp
  obtain ⟨store, htracks, hlines⟩ := h.buffer
  have hholds : Holds { d with gcodeBuffer := d.gcodeBuffer.setCurrentLine line } s :=
    ⟨⟨store, htracks.setCurrentLine line, hlines⟩, h.connected, h.checking⟩
  obtain ⟨hsends, hw⟩ := hholds.printNextLine hp hd
  rw [Sender.send_of_inFlight s hl] at hsends
  rw [Sender.stored_of_inFlight s hl] at hw
  exact ⟨hsends, l, Sender.getLast?_sent s hl, hw⟩

theorem Sends.readResponseCode (h : Sends d s) {code : Text}
    (hd : readResponseCode atof d code = some d') :
    (¬ AsksResend code → Advances d s d') ∧ (AsksResend code → d.isPrinting = true →
      Sends d' s ∧ ∃ l, s.sent.getLast? = some l ∧ d'.written = d.written ++ [wire l]) := by
  unfold MarlinDriver.readResponseCode at hd
  split_ifs at hd with htemp hok hp hstart hresend
  · obtain ⟨d₁, hd₁, hd⟩ := Option.bind_eq_some_iff.mp hd
    obtain ⟨hsends, hw⟩ := h.temperatures hd₁ rfl
    cases hd
    refine ⟨fun _ => Sends.advances_of_written_eq ?_ hw, fun hr => ?_⟩
    · exact ⟨⟨hsends.buffer, hsends.connected, hsends.checking⟩, hsends.inFlight⟩
    · rcases htemp with htemp | htemp
      · exact absurd (List.IsPrefix.trans (by decide) htemp) hr.1
      · exact absurd htemp hr.2.1
  · obtain ⟨⟨n, g⟩, he, hd⟩ := Option.bind_eq_some_iff.mp hd
    exact ⟨fun _ => h.ok hp he hd, fun hr => absurd hok hr.1⟩
  · cases hd
    exact ⟨fun _ => h.advances_of_written_eq rfl, fun hr => absurd hok hr.1⟩
  · cases hd
    exact ⟨fun _ => h.advances_of_written_eq rfl, fun hr => absurd hstart hr.2.2.1⟩
  · refine ⟨fun hr => absurd ⟨hok, fun ht => htemp (.inr ht), hstart, hresend⟩ hr, fun _ hp => ?_⟩
    exact h.resend hp _ hd
  · cases hd
    exact ⟨fun _ => h.advances_of_written_eq rfl, fun hr => absurd hr.2.2.2 hresend⟩

end MarlinDriver

/-! ### Runs -/

inductive DriverEvent
  | appendGCode (gcode : Text) (totalLines : ℤ) (metaData : Option MetaData)
  | clearGCode
  | startPrint
  | stopPrint (endcode : Text)
  | response (code : Text)
  deriving DecidableEq

namespace DriverEvent

def exec (atof : Text → Int32) (d : MarlinDriver) : DriverEvent → Option MarlinDriver
  | appendGCode gcode totalLines metaData => (d.appendGCode atof gcode totalLines metaData).map (·.2)
  | clearGCode => some d.clearGCode
  | startPrint => (d.startPrint atof).map (·.2)
  | stopPrint endcode => (d.stopPrint atof endcode).map (·.2)
  | response code => d.readResponseCode atof code

/-- A print is not started while one is running, and the printer asks for a line again only
during a print. -/
def Allowed (d : MarlinDriver) : DriverEvent → Prop
  | startPrint => d.isPrinting = false
  | response code => ascii "Resend:" <:+: code → d.isPrinting = true
  | _ => True

def NulFree : DriverEvent → Prop
  | appendGCode gcode _ _ => 0 ∉ gcode
  | stopPrint endcode => 0 ∉ endcode
  | _ => True

end DriverEvent

/-- A driver with the cleaned lines appended, and the writes except for repetitions, since
the last clear or stop. -/
structure Transmission where
  driver : MarlinDriver
  appended : List Text := []
  sent : List Text := []
  deriving DecidableEq

namespace Transmission
open MarlinDriver

variable {atof : Text → Int32} {t t' : Transmission} {e : DriverEvent} {ws : List Text}

def init : Transmission := { driver := { toAbstractDriver := (AbstractDriver.openConnection {} 0 true).2 } }

def appendedAfter (t : Transmission) : DriverEvent → List Text
  | .appendGCode gcode _ metaData => t.appended ++ accepted t.driver.gcodeBuffer gcode metaData
  | .clearGCode => []
  | .stopPrint endcode => accepted t.driver.gcodeBuffer.clear endcode none
  | _ => t.appended

def sentAfter (t : Transmission) (ws : List Text) : DriverEvent → List Text
  | .clearGCode => ws
  | .stopPrint _ => ws
  | .response code => if AsksResend code then t.sent else t.sent ++ ws
  | _ => t.sent ++ ws

/-- An event that makes the driver write `ws`. -/
structure Step (atof : Text → Int32) (t : Transmission) (l : DriverEvent × List Text) (t' : Transmission) :
    Prop where
  allowed : l.1.Allowed t.driver
  exec : l.1.exec atof t.driver = some t'.driver
  written : t'.driver.written = t.driver.written ++ l.2
  appended : t'.appended = t.appendedAfter l.1
  sent : t'.sent = t.sentAfter l.2 l.1

/-- The driver sends as `s` does. -/
structure Refines (t : Transmission) (s : Sender Text) : Prop where
  sends : t.driver.Sends s
  appended : t.appended = s.submitted
  sent : t.sent = s.sent.map wire

theorem refines_init : init.Refines {} :=
  ⟨⟨⟨⟨.empty, tracks_clear {}, rfl⟩, rfl, fun _ => rfl⟩, rfl⟩, rfl, rfl⟩

theorem refines_of_advances {s : Sender Text} (ha : t.driver.Advances s t'.driver)
    (hw : t'.driver.written = t.driver.written ++ ws) (happ : t'.appended = s.submitted)
    (hsent : t'.sent = s.sent.map wire ++ ws) : ∃ s', t'.Refines s' := by
  obtain ⟨s', hs', hsub, ws', hw', hsent'⟩ := ha
  rw [hw, List.append_cancel_left_eq] at hw'
  subst hw'
  exact ⟨s', hs', happ.trans hsub.symm, hsent.trans hsent'.symm⟩

theorem Step.resend {s : Sender Text} (h : t.Refines s) {code : Text}
    (hstep : t.Step atof (.response code, ws) t') (hr : AsksResend code) :
    t'.Refines s ∧ ∃ l, t.sent.getLast? = some l ∧ ws = [l] := by
  obtain ⟨hsends, l, hl, hw⟩ :=
    (h.sends.readResponseCode hstep.exec).2 hr (hstep.allowed hr.2.2.2)
  have hws : ws = [wire l] := by
    have hwritten := hstep.written
    rw [hw, List.append_cancel_left_eq] at hwritten
    exact hwritten.symm
  refine ⟨⟨hsends, hstep.appended.trans h.appended, ?_⟩, wire l, ?_, hws⟩
  · have hsent : t'.sent = t.sentAfter ws (.response code) := hstep.sent
    rw [hsent, sentAfter, if_pos hr, h.sent]
  · rw [h.sent, List.getLast?_map, hl]
    rfl

theorem refines_step (t : Transmission) (l : DriverEvent × List Text) (t' : Transmission)
    (h : ∃ s, t.Refines s) (hstep : t.Step atof l t') : ∃ s, t'.Refines s := by
  obtain ⟨s, h⟩ := h
  obtain ⟨e, ws⟩ := l
  have happ := hstep.appended
  have hsent := hstep.sent
  have hexec := hstep.exec
  cases e with
  | appendGCode gcode totalLines metaData =>
    obtain ⟨⟨r, d'⟩, hd, rfl⟩ := Option.map_eq_some_iff.mp hexec
    obtain ⟨hsends, hw⟩ := h.sends.appendGCode hd
    refine refines_of_advances ⟨_, hsends, rfl, [], by simp [hw], by simp⟩ hstep.written ?_ ?_
    · rw [happ, Sender.submitted_submit, ← h.appended]
      rfl
    · rw [hsent, Sender.sent_submit, ← h.sent]
      rfl
  | clearGCode =>
    obtain ⟨hsends, hw⟩ := h.sends.clearGCode
    have hd := Option.some.inj hexec
    rw [hd] at hsends hw
    exact refines_of_advances (hsends.advances_of_written_eq hw) hstep.written happ hsent
  | startPrint =>
    obtain ⟨⟨r, d'⟩, hd, rfl⟩ := Option.map_eq_some_iff.mp hexec
    refine refines_of_advances (h.sends.startPrint hstep.allowed (.inl rfl) hd) hstep.written ?_ ?_
    · exact happ.trans h.appended
    · rw [hsent, ← h.sent]
      rfl
  | stopPrint endcode =>
    obtain ⟨⟨r, d'⟩, hd, rfl⟩ := Option.map_eq_some_iff.mp hexec
    exact refines_of_advances (h.sends.stopPrint hd) hstep.written happ hsent
  | response code =>
    by_cases hr : AsksResend code
    · exact ⟨s, (hstep.resend h hr).1⟩
    · refine refines_of_advances ((h.sends.readResponseCode hexec).1 hr) hstep.written ?_ ?_
      · exact happ.trans h.appended
      · rw [hsent, sentAfter, if_neg hr, h.sent]

/-! ### The bytes of the lines -/

theorem nulFree_run {ls : List (DriverEvent × List Text)} (hrun : Transition.Run (Step atof) t ls t')
    (hls : ∀ l ∈ ls, l.1.NulFree) (ht : ∀ l ∈ t.appended, 0 ∉ l) : ∀ l ∈ t'.appended, 0 ∉ l := by
  induction hrun with
  | nil => exact ht
  | @cons t u _ e _ hstep _ ih =>
    refine ih (fun l hl => hls l (List.mem_cons_of_mem _ hl)) ?_
    have he := hls e (List.mem_cons_self ..)
    have haccepted : ∀ (g : GCodeBuffer) (gcode : Text) (metaData : Option MetaData), 0 ∉ gcode →
        ∀ l ∈ accepted g gcode metaData, 0 ∉ l := fun g gcode metaData hg l hl => by
      unfold accepted at hl
      split_ifs at hl
      · exact zero_notMem_of_mem_normLines hg hl
      · cases hl
    rw [hstep.appended]
    obtain ⟨e, ws⟩ := e
    cases e with
    | appendGCode gcode totalLines metaData =>
      intro l hl
      rcases List.mem_append.mp hl with hl | hl
      · exact ht l hl
      · exact haccepted _ _ _ he l hl
    | clearGCode => intro l hl; cases hl
    | stopPrint endcode => exact haccepted _ _ _ he
    | startPrint => exact ht
    | response code => exact ht

theorem wire_of_notMem {l : Text} (h : 0 ∉ l) : wire l = l ++ [newline] := by
  apply cString_of_notMem
  simp [h, newline]

/-- In every run, what is written since the last clear or stop is, without the repetitions,
an initial part of the cleaned lines appended since then; and a repetition is of the line
written last. -/
theorem transmitted_in_order {ls : List (DriverEvent × List Text)}
    (hrun : Transition.Run (Step atof) init ls t) :
    t.sent <+: t.appended.map wire ∧
      ((∀ l ∈ ls, l.1.NulFree) → t.sent <+: t.appended.map (· ++ [newline])) ∧
      ∀ code ws t', AsksResend code → t.Step atof (.response code, ws) t' →
        ∃ l, t.sent.getLast? = some l ∧ ws = [l] := by
  obtain ⟨s, h⟩ := hrun.invariant (fun t => ∃ s, t.Refines s) refines_step ⟨_, refines_init⟩
  have hsent : t.sent <+: t.appended.map wire := by
    rw [h.sent, h.appended]
    exact s.sent_prefix.map wire
  refine ⟨hsent, fun hls => ?_, fun code ws t' hr hstep => (hstep.resend h hr).2⟩
  have hnul := nulFree_run hrun hls (by simp [init])
  rwa [List.map_congr_left fun l hl => wire_of_notMem (hnul l hl)] at hsent

theorem transmitted_in_order_resend :
    [ascii "G1\n"] <+: [ascii "G1", ascii "G2"].map wire ∧
      ((∀ l ∈ [(DriverEvent.response (ascii "T:0"), []),
            (.appendGCode (ascii "G1\nG2;a") (-1) none, []), (.startPrint, [ascii "G1\n"]),
            (.response (ascii "Resend:1"), [ascii "G1\n"])], l.1.NulFree) →
        [ascii "G1\n"] <+: [ascii "G1", ascii "G2"].map (· ++ [newline])) ∧
      ∀ code ws t', AsksResend code →
        (⟨{ init.driver with
            heating := true
            state := .printing
            checkConnection := false
            checkTemperatureInterval := 1500
            gcodeBuffer :=
              { buckets := [ascii "G1\nG2\n"], currentLine := 1, bufferedLines := 2,
                totalLinesSent := 2, bufferSize := 6 }
            written := [ascii "G1\n", ascii "G1\n"] },
          [ascii "G1", ascii "G2"], [ascii "G1\n"]⟩ : Transmission).Step (fun _ => 0) (.response code, ws) t' →
        ∃ l, [ascii "G1\n"].getLast? = some l ∧ ws = [l] := by
  let t₁ : Transmission := { driver := { init.driver with
    heating := true
    state := .idle
    checkConnection := false
    checkTemperatureInterval := 1500 } }
  let g : GCodeBuffer :=
    { buckets := [ascii "G1\nG2\n"], bufferedLines := 2, totalLinesSent := 2, bufferSize := 6 }
  let t₂ : Transmission :=
    { driver := { t₁.driver with gcodeBuffer := g, state := .buffering }
      appended := [ascii "G1", ascii "G2"] }
  let t₃ : Transmission :=
    { driver := { t₂.driver with
        gcodeBuffer := { g with currentLine := 1 }
        state := .printing
        written := [ascii "G1\n"] }
      appended := [ascii "G1", ascii "G2"]
      sent := [ascii "G1\n"] }
  let t₄ : Transmission := { t₃ with driver := { t₃.driver with written := [ascii "G1\n", ascii "G1\n"] } }
  have h₁ : init.Step (fun _ => 0) (.response (ascii "T:0"), []) t₁ :=
    ⟨fun h => absurd h (by decide), by decide, by decide, by decide, by decide⟩
  have h₂ : t₁.Step (fun _ => 0) (.appendGCode (ascii "G1\nG2;a") (-1) none, []) t₂ :=
    ⟨trivial, by decide, by decide, by decide, by decide⟩
  have h₃ : t₂.Step (fun _ => 0) (.startPrint, [ascii "G1\n"]) t₃ :=
    ⟨rfl, by decide, by decide, by decide, by decide⟩
  have h₄ : t₃.Step (fun _ => 0) (.response (ascii "Resend:1"), [ascii "G1\n"]) t₄ :=
    ⟨fun _ => rfl, by decide, by decide, by decide, by decide⟩
  exact transmitted_in_order (.cons h₁ (.cons h₂ (.cons h₃ (.cons h₄ (.nil t₄)))))

end Transmission
end Print3D
