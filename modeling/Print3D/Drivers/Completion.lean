import Print3D.Drivers.Origins

/-! A print from its start to its end: how far it has come is the number of acknowledgements alone. -/
namespace Print3D
open Lines Transition

namespace MarlinEvent
open MarlinDriver GCodeBuffer

variable {atof : Text → Int32} {d d' d₀ d₁ : MarlinDriver} {e : MarlinEvent} {ws : List Text}
  {before : List MarlinEvent} {es : List (MarlinEvent × List Text)} {lines : List Text} {k : ℕ}
  {state : DriverState}

def Writes (atof : Text → Int32) (d : MarlinDriver) (l : MarlinEvent × List Text) (d' : MarlinDriver) : Prop :=
  l.1.Step atof d d' ∧ d'.written = d.written ++ l.2

/-- The events that are no request of a client: what the printer sends, and the driver's own commands. -/
def LeavesJob : MarlinEvent → Prop
  | heatup _ | checkTemperature | other (.response _) => True
  | _ => False

def isAck : MarlinEvent → Bool
  | other (.response code) => ascii "ok" <+: code ∧ ¬ (ascii "ok T:" <+: code ∨ ascii "T:" <+: code)
  | _ => false

def isRepeat : MarlinEvent → Bool
  | other (.response code) => AsksResend code
  | _ => false

def acks (es : List (MarlinEvent × List Text)) : ℕ := es.countP fun l => l.1.isAck

/-- What is written for the job itself, repetitions aside. -/
def jobWrites (es : List (MarlinEvent × List Text)) : List Text :=
  es.flatMap fun l => if l.1.isOwnCommand || l.1.isRepeat then [] else l.2

/-- What a start prints: the stored lines, or for a stop the end code that replaces them. -/
def job (d : MarlinDriver) : MarlinEvent → List Text
  | other (.stopPrint endcode) => accepted d.gcodeBuffer.clear endcode none
  | _ => complete newline d.gcodeBuffer.buckets.flatten

def jobState : MarlinEvent → DriverState
  | other (.stopPrint _) => .stopping
  | _ => .printing

/-! ### The job that is done -/

/-- All but the first `k` of the lines are left, and the first of these is being printed. -/
structure Progressed (state : DriverState) (lines : List Text) (k : ℕ) (d : MarlinDriver) : Prop where
  isConnected : d.isConnected = true
  checkConnection : d.checkConnection = false
  stores : ∃ s, d.gcodeBuffer.Stores s ∧ s.lines = lines.drop k
  state : d.state = if k < lines.length then state else .idle

theorem getNextLine_nil {g : GCodeBuffer} {s : LineStore} (hs : g.Stores s) (hl : s.lines = []) :
    g.getNextLine = (0, []) := by
  apply getNextLine_of_nil hs
  have hprefix := s.front_prefix
  rw [hl] at hprefix
  exact List.prefix_nil.mp hprefix

/-- The first of the lines that are left is written; without one the printer is idle. -/
theorem progressed_printNextLine {s : LineStore} (hc : d.isConnected = true)
    (hcheck : d.checkConnection = false)
    (hs : d.gcodeBuffer.Stores s) (hl : s.lines = lines.drop k) (hstate : k < lines.length → d.state = state)
    (honline : d.isPrinterOnline = true) (hd : printNextLine atof d = some d') :
    Progressed state lines k d' ∧ d'.written = d.written ++ lines[k]?.toList.map wire := by
  rw [← List.head?_drop, ← hl]
  rw [printNextLine] at hd
  cases hlines : s.lines with
  | nil =>
    have hend : ¬ k < lines.length := by
      rw [hl, List.drop_eq_nil_iff] at hlines
      omega
    rw [getNextLine_nil hs hlines] at hd
    have hreset : d.resetPrint = d' := Option.some.inj hd
    subst hreset
    refine ⟨⟨(AbstractDriver.resetPrint_cases d.toAbstractDriver).2.trans hc, hcheck, ⟨s, ?_, hl⟩, ?_⟩, ?_⟩
    · unfold resetPrint AbstractDriver.resetPrint
      split_ifs
      all_goals exact hs
    · rw [if_neg hend]
      exact resetPrint_online honline
    · exact (List.append_nil _).symm
  | cons l ls =>
    have hmore : k < lines.length := by
      by_contra hend
      rw [hl, List.drop_eq_nil_of_le (by omega)] at hlines
      cases hlines
    rw [getNextLine_one hs hlines] at hd
    obtain ⟨d₁, hsend, hd⟩ := Option.bind_eq_some_iff.mp hd
    obtain ⟨t, b, rfl⟩ := sendCode_eq hc hsend
    cases hd
    refine ⟨⟨hc, hcheck, ⟨s, hs, hl⟩, ?_⟩, rfl⟩
    rw [if_pos hmore]
    exact hstate hmore

theorem Progressed.eraseLine {g : GCodeBuffer} {n : ℤ} (h : Progressed state lines k d) (hk : k < lines.length)
    (he : d.gcodeBuffer.eraseLine = some (n, g)) : ∃ s, g.Stores s ∧ s.lines = lines.drop (k + 1) := by
  obtain ⟨s, hs, hl⟩ := h.stores
  have hf : s.front ≠ [] := by
    intro hf
    have hnil := s.lines_eq_nil_of_front hf
    rw [hl, List.drop_eq_nil_iff] at hnil
    omega
  rw [eraseLine_eq hs hf] at he
  cases he
  have htaken : taken 1 s.front.length = 1 := by
    have hpos := List.length_pos_iff.mpr hf
    unfold taken
    omega
  have hle : taken 1 s.front.length ≤ s.front.length := min_le_right ..
  refine ⟨s.erase (taken 1 s.front.length), rfl, ?_⟩
  rw [s.lines_erase hle, htaken, hl, List.drop_drop]

theorem Progressed.isPrinting (h : Progressed state lines k d)
    (hstate : state = .printing ∨ state = .stopping) :
    d.isPrinting = true ↔ k < lines.length := by
  have hs := h.state
  split_ifs at hs with hk
  · simp [AbstractDriver.isPrinting_of_state (hs ▸ hstate), hk]
  · simp [AbstractDriver.isPrinting_of_idle hs, hk]

theorem Progressed.isPrinterOnline (h : Progressed state lines k d)
    (hstate : state = .printing ∨ state = .stopping) : d.isPrinterOnline = true := by
  have hs := h.state
  split_ifs at hs
  · exact AbstractDriver.isPrinterOnline_of_isPrinting (AbstractDriver.isPrinting_of_state (hs ▸ hstate))
  · exact AbstractDriver.isPrinterOnline_of_idle hs

theorem Progressed.resend (h : Progressed state lines k d) (hstate : state = .printing ∨ state = .stopping)
    (line : ℤ) (hd : printNextLine atof { d with gcodeBuffer := d.gcodeBuffer.setCurrentLine line } = some d') :
    Progressed state lines k d' := by
  obtain ⟨s, hs, hl⟩ := h.stores
  have hs' : (d.gcodeBuffer.setCurrentLine line).Stores s := hs
  have hback : Progressed state lines k d' ∧ _ := progressed_printNextLine
    (d := { d with gcodeBuffer := d.gcodeBuffer.setCurrentLine line }) h.isConnected h.checkConnection hs' hl
    (fun hk => by rw [h.state, if_pos hk]) (h.isPrinterOnline hstate) hd
  exact hback.1

theorem Progressed.sendCode {code : Text} (h : Progressed state lines k d)
    (hd : sendCode atof d code = some d') :
    Progressed state lines k d' := by
  obtain ⟨t, b, rfl⟩ := sendCode_eq h.isConnected hd
  exact ⟨h.isConnected, h.checkConnection, h.stores, h.state⟩

theorem Progressed.ack {g : GCodeBuffer} {n : ℤ} (h : Progressed state lines k d)
    (hstate : state = .printing ∨ state = .stopping) (hp : d.isPrinting = true)
    (he : d.gcodeBuffer.eraseLine = some (n, g))
    (hd : printNextLine atof { d with gcodeBuffer := g } = some d') :
    Progressed state lines (k + 1) d' ∧ d'.written = d.written ++ lines[k + 1]?.toList.map wire := by
  have hk := (h.isPrinting hstate).mp hp
  obtain ⟨s, hs, hl⟩ := h.eraseLine hk he
  exact progressed_printNextLine (d := { d with gcodeBuffer := g }) h.isConnected h.checkConnection hs hl
    (fun _ => by rw [h.state, if_pos hk]) (h.isPrinterOnline hstate) hd

/-- The lines of the printer that are no acknowledgement and ask for nothing have nothing written. -/
theorem Progressed.readResponseCode {code : Text} (h : Progressed state lines k d)
    (hstate : state = .printing ∨ state = .stopping) (hd : readResponseCode atof d code = some d') :
    Progressed state lines (k + if isAck (other (.response code)) then 1 else 0) d' ∧
      (¬ AsksResend code → d'.written = d.written ++
        if isAck (other (.response code)) then lines[k + 1]?.toList.map wire else []) := by
  unfold MarlinDriver.readResponseCode at hd
  split_ifs at hd with htemp hok hp hstart hresend
  · have hack : isAck (other (.response code)) = false := by simp [isAck, htemp]
    obtain ⟨d₁, hd₁, hd⟩ := Option.bind_eq_some_iff.mp hd
    obtain ⟨heating, t, tt, b, bt, rfl⟩ := parseTemperatures_eq hd₁
    cases hd
    dsimp only
    rw [hack, h.checkConnection]
    exact ⟨⟨h.isConnected, rfl, h.stores, h.state⟩, fun _ => (List.append_nil _).symm⟩
  · have hack : isAck (other (.response code)) = true := by simp [isAck, hok, not_or.mp htemp]
    obtain ⟨⟨n, g⟩, he, hd⟩ := Option.bind_eq_some_iff.mp hd
    obtain ⟨hprogressed, hwritten⟩ := h.ack hstate hp he hd
    rw [hack]
    exact ⟨hprogressed, fun _ => hwritten⟩
  · -- nothing is being printed any more, so that no line is left
    have hack : isAck (other (.response code)) = true := by simp [isAck, hok, not_or.mp htemp]
    cases hd
    have hk : ¬ k < lines.length := fun hk => hp ((h.isPrinting hstate).mpr hk)
    obtain ⟨s, hs, hl⟩ := h.stores
    rw [hack, List.getElem?_eq_none (by omega)]
    refine ⟨⟨h.isConnected, h.checkConnection, ⟨s, hs, ?_⟩, ?_⟩, fun _ => (List.append_nil _).symm⟩
    · rw [hl, List.drop_eq_nil_of_le (by omega), List.drop_eq_nil_of_le]
      simp only [if_true]
      omega
    · rw [h.state, if_neg hk, if_neg]
      simp only [if_true]
      omega
  · have hack : isAck (other (.response code)) = false := by simp [isAck, hok]
    cases hd
    rw [hack]
    exact ⟨h, fun _ => (List.append_nil _).symm⟩
  · have hack : isAck (other (.response code)) = false := by simp [isAck, hok]
    have hr : AsksResend code := ⟨hok, fun ht => htemp (.inr ht), hstart, hresend⟩
    rw [hack]
    exact ⟨h.resend hstate _ hd, fun hn => absurd hr hn⟩
  · have hack : isAck (other (.response code)) = false := by simp [isAck, hok]
    cases hd
    rw [hack]
    exact ⟨h, fun _ => (List.append_nil _).symm⟩

/-- What an event does to the progress, and what it writes for the job. -/
theorem Progressed.step (h : Progressed state lines k d) (hstate : state = .printing ∨ state = .stopping)
    (he : e.LeavesJob) (hd : Writes atof d (e, ws) d') :
    Progressed state lines (k + if e.isAck then 1 else 0) d' ∧
      (if e.isOwnCommand || e.isRepeat then [] else ws) =
        if e.isAck then lines[k + 1]?.toList.map wire else [] := by
  obtain ⟨hd, hw⟩ := hd
  cases e with
  | heatup temperature => exact ⟨h.sendCode hd, rfl⟩
  | checkTemperature => exact ⟨h.sendCode hd, rfl⟩
  | other e =>
    cases e with
    | response code =>
      obtain ⟨hprogressed, hwritten⟩ := h.readResponseCode hstate hd
      refine ⟨hprogressed, ?_⟩
      by_cases hr : AsksResend code
      · have hack : isAck (other (.response code)) = false := by simp [isAck, hr.1]
        simp [isRepeat, hr, hack]
      · rw [hwritten hr, List.append_cancel_left_eq] at hw
        simp [isRepeat, isOwnCommand, hr, hw]
    | _ => exact he.elim
  | _ => exact he.elim

theorem acks_concat (es : List (MarlinEvent × List Text)) (e : MarlinEvent) (ws : List Text) :
    acks (es ++ [(e, ws)]) = acks es + if e.isAck then 1 else 0 := by
  simp [acks, List.countP_append, List.countP_cons]

theorem jobWrites_concat (es : List (MarlinEvent × List Text)) (e : MarlinEvent) (ws : List Text) :
    jobWrites (es ++ [(e, ws)]) = jobWrites es ++ if e.isOwnCommand || e.isRepeat then [] else ws := by
  simp [jobWrites]

theorem Progressed.run (h : Progressed state lines 0 d₁) (hstate : state = .printing ∨ state = .stopping)
    (hes : ∀ l ∈ es, l.1.LeavesJob) (hrun : Run (Writes atof) d₁ es d) :
    Progressed state lines (acks es) d ∧ jobWrites es = (lines.tail.take (acks es)).map wire := by
  refine (hrun.with_labels hes).invariant_history (fun es d => Progressed state lines (acks es) d ∧
    jobWrites es = (lines.tail.take (acks es)).map wire) (fun es d l d' hd hl => ?_) ⟨h, rfl⟩
  obtain ⟨hprogressed, hwrites⟩ := hd
  obtain ⟨hstep, hleaves⟩ := hl
  obtain ⟨e, ws⟩ := l
  obtain ⟨hd', hw'⟩ := hprogressed.step hstate hleaves hstep
  rw [acks_concat, jobWrites_concat, hw', hwrites]
  refine ⟨hd', ?_⟩
  cases e.isAck with
  | true =>
    rw [if_pos rfl, if_pos rfl, List.take_add_one, List.map_append, List.getElem?_tail]
  | false => exact List.append_nil _

/-! ### The start of the job -/

theorem setGCode_stores_accepted {g' : GCodeBuffer} {gcode : Text} {totalLines : ℤ} {metaData : Option MetaData}
    {r : GcodeSetResult} {g : GCodeBuffer} (h : g.set gcode totalLines metaData = some (r, g')) :
    ∃ s, g'.Stores s ∧ s.lines = accepted g.clear gcode metaData := by
  unfold accepted
  rcases append_cases h with ⟨rfl, hacc, -⟩ | ⟨-, hacc, rfl⟩
  · obtain ⟨s', htracks, hl⟩ := (tracks_clear g).append h
    rw [if_pos hacc]
    exact ⟨s', htracks.stores, hl⟩
  · rw [if_neg hacc]
    exact ⟨.empty, stores_clear g, rfl⟩

/-- A print that starts with the stored lines writes the first of them. -/
theorem progressed_startPrint {s : LineStore} {r : Bool} (hc : d.isConnected = true)
    (hcheck : d.checkConnection = false) (hs : d.gcodeBuffer.Stores s) (honline : d.isPrinterOnline = true)
    (hstate : state = .printing ∨ state = .stopping) (hd : startPrint atof d state = some (r, d')) :
    Progressed state s.lines 0 d' ∧ d'.written = d.written ++ s.lines.head?.toList.map wire := by
  obtain ⟨g, hg, he⟩ := AbstractDriver.startPrint_online honline state
  rw [MarlinDriver.startPrint, he] at hd
  obtain ⟨d₁, hd₁, he⟩ := Option.map_eq_some_iff.mp hd
  cases he
  have hstored : g.Stores s := by
    rcases hg with rfl | rfl
    · exact hs
    · exact hs
  rw [List.head?_eq_getElem?]
  exact progressed_printNextLine (d := { d with
      state := state
      gcodeBuffer := g }) hc hcheck hstored rfl (fun _ => rfl)
    (AbstractDriver.isPrinterOnline_of_isPrinting (AbstractDriver.isPrinting_of_state hstate)) hd₁

theorem complete_of_stores {g : GCodeBuffer} {s : LineStore} (h : g.Stores s) :
    complete newline g.buckets.flatten = s.lines := by
  have hlines : ∀ l ∈ s.lines, newline ∉ l := fun l hl => (s.isLine_of_mem_lines hl).2
  have hcomplete := complete_unlines_append hlines []
  rw [List.append_nil, ← h.flatten_buckets] at hcomplete
  rw [hcomplete]
  exact List.append_nil _

theorem jobState_cases (e : MarlinEvent) : e.jobState = .printing ∨ e.jobState = .stopping := by
  unfold jobState
  split
  · exact .inr rfl
  · exact .inl rfl

theorem progressed_start {s : LineStore} (hc : d.isConnected = true) (hcheck : d.checkConnection = false)
    (hs : d.gcodeBuffer.Stores s) (honline : d.isPrinterOnline = true) (he : e.Starts)
    (hd : Writes atof d (e, ws) d') :
    Progressed e.jobState (job d e) 0 d' ∧ ws = (job d e).head?.toList.map wire := by
  obtain ⟨hstep, hw⟩ := hd
  cases e with
  | other e =>
    cases e with
    | startPrint =>
      obtain ⟨⟨r, d₁⟩, hd, rfl⟩ := Option.map_eq_some_iff.mp hstep
      obtain ⟨hprogressed, hwritten⟩ := progressed_startPrint hc hcheck hs honline (.inl rfl) hd
      rw [hwritten, List.append_cancel_left_eq] at hw
      have hjob : job d (other .startPrint) = s.lines := complete_of_stores hs
      rw [hjob]
      exact ⟨hprogressed, hw.symm⟩
    | stopPrint endcode =>
      obtain ⟨⟨r, d₁⟩, hd, rfl⟩ := Option.map_eq_some_iff.mp hstep
      obtain ⟨⟨gsr, d₂⟩, hset, hd⟩ := Option.bind_eq_some_iff.mp hd
      have hstored := setGCode_stores hset
      obtain ⟨⟨gsr', base⟩, hbase, hset⟩ := Option.bind_eq_some_iff.mp hset
      cases hset
      obtain ⟨g, hg, hbase⟩ := AbstractDriver.setGCode_stored hbase
      obtain ⟨s', hs', hl⟩ := setGCode_stores_accepted hg
      have hreset := resetPrint_online honline
      have honline' := hstored.isPrinterOnline.trans (AbstractDriver.isPrinterOnline_of_idle hreset)
      have hconnected : d.resetPrint.isConnected = true :=
        (AbstractDriver.resetPrint_cases d.toAbstractDriver).2.trans hc
      obtain ⟨hprogressed, hwritten⟩ := progressed_startPrint (hstored.isConnected.trans hconnected)
        (hstored.checkConnection.trans hcheck) (hbase.gcodeBuffer ▸ hs') honline' (.inr rfl) hd
      have hsilent : { d.resetPrint with toAbstractDriver := base }.written = d.written := hstored.written
      rw [hwritten, hsilent, List.append_cancel_left_eq] at hw
      have hjob : job d (other (.stopPrint endcode)) = s'.lines := by
        have hclear := (resetPrint_eq d).2.2.2
        rw [hl, hclear]
        rfl
      rw [hjob]
      exact ⟨hprogressed, hw.symm⟩
    | _ => exact he.elim
  | _ => exact he.elim

/-! ### Gcode that is appended before -/

theorem sendCode_keeps {code : Text} (hd : sendCode atof d code = some d') :
    d'.gcodeBuffer = d.gcodeBuffer ∧ d'.state = d.state := by
  by_cases hc : d.isConnected = true
  · obtain ⟨t, b, rfl⟩ := sendCode_eq hc hd
    exact ⟨rfl, rfl⟩
  · rw [sendCode, if_neg hc] at hd
    cases hd
    exact ⟨rfl, rfl⟩

/-- Nothing but the number of the line changes in the buffer. -/
def KeepsStored (d d' : MarlinDriver) : Prop :=
  ∃ line, d'.gcodeBuffer = { d.gcodeBuffer with currentLine := line }

theorem KeepsStored.of_eq (h : d'.gcodeBuffer = d.gcodeBuffer) : KeepsStored d d' :=
  ⟨d.gcodeBuffer.currentLine, h⟩

theorem KeepsStored.trans {d'' : MarlinDriver} (h : KeepsStored d d') (h' : KeepsStored d' d'') :
    KeepsStored d d'' := by
  obtain ⟨line, hline⟩ := h
  obtain ⟨line', hline'⟩ := h'
  exact ⟨line', by rw [hline', hline]⟩

theorem keepsStored_printNextLine (hd : printNextLine atof d = some d') : KeepsStored d d' := by
  unfold printNextLine at hd
  dsimp only at hd
  split_ifs at hd
  · obtain ⟨d₁, hsend, hd⟩ := Option.bind_eq_some_iff.mp hd
    cases hd
    exact (KeepsStored.of_eq (sendCode_keeps hsend).1).trans ⟨_, rfl⟩
  · cases hd
    unfold MarlinDriver.resetPrint AbstractDriver.resetPrint
    split_ifs
    · exact ⟨_, rfl⟩
    · exact .of_eq rfl

/-- Without a print no line goes, also where the printer asks for one again. -/
theorem keepsStored_step (he : e.LeavesJob) (hp : d.isPrinting = false) (hd : Step atof d e d') :
    d'.isPrinting = false ∧ KeepsStored d d' := by
  cases e with
  | heatup temperature =>
    obtain ⟨hbuffer, hstate⟩ := sendCode_keeps hd
    exact ⟨(AbstractDriver.isPrinting_congr hstate).trans hp, .of_eq hbuffer⟩
  | checkTemperature =>
    obtain ⟨hbuffer, hstate⟩ := sendCode_keeps hd
    exact ⟨(AbstractDriver.isPrinting_congr hstate).trans hp, .of_eq hbuffer⟩
  | other e =>
    cases e with
    | response code =>
      refine ⟨?_, ?_⟩
      · cases readResponseCode_hears hd with
        | connects _ _ _ _ hs => exact AbstractDriver.isPrinting_of_idle hs
        | temperature _ _ _ _ hs => exact (AbstractDriver.isPrinting_congr hs).trans hp
        | next _ hprinting => rw [hp] at hprinting; cases hprinting
        | finished _ hprinting => rw [hp] at hprinting; cases hprinting
        | again _ _ _ hs => exact (AbstractDriver.isPrinting_congr hs).trans hp
        | nothingAgain _ _ _ _ hcase =>
          rcases hcase with ⟨-, hs⟩ | ⟨-, hs⟩
          · exact AbstractDriver.isPrinting_of_idle hs
          · exact (AbstractDriver.isPrinting_congr hs).trans hp
        | ignored _ _ _ he =>
          rw [he]
          exact hp
      · replace hd : d.readResponseCode atof code = some d' := hd
        unfold MarlinDriver.readResponseCode at hd
        split_ifs at hd with htemp hok hprinting
        · obtain ⟨d₁, hd₁, hd⟩ := Option.bind_eq_some_iff.mp hd
          obtain ⟨heating, t, tt, b, bt, rfl⟩ := parseTemperatures_eq hd₁
          cases hd
          dsimp only
          split_ifs <;> exact .of_eq rfl
        · rw [hp] at hprinting
          cases hprinting
        · cases hd
          exact .of_eq rfl
        · cases hd
          exact .of_eq rfl
        · have hback : KeepsStored d { d with
              gcodeBuffer := d.gcodeBuffer.setCurrentLine (i32 (d.gcodeBuffer.getCurrentLine - 1)) } := ⟨_, rfl⟩
          exact hback.trans (keepsStored_printNextLine hd)
        · cases hd
          exact .of_eq rfl
    | _ => exact he.elim
  | _ => exact he.elim

theorem keepsStored_run {es : List MarlinEvent} (hes : ∀ e ∈ es, e.LeavesJob) (hp : d.isPrinting = false)
    (hrun : Run (Step atof) d es d') : d'.isPrinting = false ∧ KeepsStored d d' :=
  (hrun.with_labels hes).invariant (fun d' => d'.isPrinting = false ∧ KeepsStored d d')
    (fun _ _ _ hd hl => by
      obtain ⟨hp', hkeeps⟩ := keepsStored_step hl.2 hd.1 hl.1
      exact ⟨hp', hd.2.trans hkeeps⟩) ⟨hp, .of_eq rfl⟩

theorem KeepsStored.stores {s : LineStore} (h : KeepsStored d d') (hs : d.gcodeBuffer.Stores s) :
    d'.gcodeBuffer.Stores s := by
  obtain ⟨line, hline⟩ := h
  rw [hline]
  exact hs

theorem sanity_of_keepsStored (h : KeepsStored d.clearGCode d') (metaData : Option MetaData) :
    d'.gcodeBuffer.sanity metaData = d.gcodeBuffer.clear.sanity metaData := by
  obtain ⟨-, hbuffer, -⟩ := AbstractDriver.clearGCode_cases d.toAbstractDriver
  obtain ⟨line, hline⟩ := h
  have hclear : d.clearGCode.gcodeBuffer = d.gcodeBuffer.clear := hbuffer
  rw [hline, hclear]
  rfl

/-- Where the checks of the metadata pass, room is all that can be missing. -/
theorem append_full {g g' : GCodeBuffer} {gcode : Text} {totalLines : ℤ} {metaData : Option MetaData}
    {r : GcodeSetResult} (hsanity : g.sanity metaData = .ok)
    (h : g.append gcode totalLines metaData = some (r, g')) (hr : r ≠ .ok) : r = .bufferFull := by
  unfold GCodeBuffer.append at h
  dsimp only at h
  rw [if_neg (not_not.mpr hsanity)] at h
  split_ifs at h
  · cases h
    rfl
  · cases h
    exact absurd rfl hr

/-- Gcode that is appended after a clear is what is stored, with whatever the printer sends and the driver's own
commands in between. -/
theorem stored_after_append {d₂ : MarlinDriver} {es : List MarlinEvent} {gcode : Text} {totalLines : ℤ}
    {metaData : Option MetaData} {r : GcodeSetResult} (hes : ∀ e ∈ es, e.LeavesJob)
    (hclear : Run (Step atof) d.clearGCode es d₁)
    (happend : d₁.appendGCode atof gcode totalLines metaData = some (r, d₂)) :
    d₂.isPrinting = false ∧
      (∃ s, d₂.gcodeBuffer.Stores s ∧ s.lines = accepted d.gcodeBuffer.clear gcode metaData) ∧
      (r = .ok ↔ d.gcodeBuffer.clear.Accepts gcode metaData) ∧
      (d.gcodeBuffer.clear.sanity metaData = .ok → r = .ok ∨ r = .bufferFull) := by
  obtain ⟨-, -, hnot, -⟩ := clearGCode_cases d
  obtain ⟨-, hbuffer, -⟩ := AbstractDriver.clearGCode_cases d.toAbstractDriver
  obtain ⟨hnot₁, line, hline⟩ := keepsStored_run hes hnot hclear
  have hbuffer₁ : d₁.gcodeBuffer = { d.gcodeBuffer.clear with currentLine := line } := by
    rw [hline]
    exact congrArg (fun g : GCodeBuffer => { g with currentLine := line }) hbuffer
  have hstores := appendGCode_stores happend
  refine ⟨hstores.isPrinting.trans hnot₁, ?_⟩
  obtain ⟨⟨r', base⟩, hbase, he⟩ := Option.bind_eq_some_iff.mp happend
  cases he
  obtain ⟨g, hg, hstored⟩ := AbstractDriver.appendGCode_stored hbase
  have hbase' : base.gcodeBuffer = g := hstored.gcodeBuffer
  rw [hbase']
  rw [hbuffer₁] at hg
  have hempty := tracks_clear d.gcodeBuffer
  have htracks : ({ d.gcodeBuffer.clear with currentLine := line } : GCodeBuffer).Tracks .empty [] :=
    ⟨hempty.stores, hempty.suffix, hempty.buffered, hempty.total⟩
  unfold accepted
  rcases append_cases hg with ⟨rfl, hacc, -⟩ | ⟨hr, hacc, rfl⟩
  · obtain ⟨s, hs, hl⟩ := htracks.append hg
    have hacc' : d.gcodeBuffer.clear.Accepts gcode metaData := hacc
    rw [if_pos hacc']
    exact ⟨⟨s, hs.stores, hl⟩, iff_of_true rfl hacc', fun _ => .inl rfl⟩
  · have hacc' : ¬ d.gcodeBuffer.clear.Accepts gcode metaData := hacc
    rw [if_neg hacc']
    refine ⟨⟨.empty, htracks.stores, rfl⟩, iff_of_false hr hacc', fun hsanity => .inr ?_⟩
    have hsanity' :
        ({ d.gcodeBuffer.clear with currentLine := line } : GCodeBuffer).sanity metaData = .ok :=
      hsanity
    exact append_full hsanity' hg hr

theorem online_run {es : List MarlinEvent} (hes : ∀ e ∈ es, ¬ e.IsOpening) (hc : d.isConnected = true)
    (ho : d.isPrinterOnline = true) (hrun : Run (Step atof) d es d') :
    d'.isConnected = true ∧ d'.isPrinterOnline = true := by
  refine (hrun.with_labels hes).invariant (fun d => d.isConnected = true ∧ d.isPrinterOnline = true)
    (fun d e d' hd hl => ?_) ⟨hc, ho⟩
  obtain ⟨hconnected, hconnects⟩ := connects hl.2 hl.1
  refine ⟨hconnected.trans hd.1, ?_⟩
  cases hconnects with
  | keeps _ honline => exact honline.trans hd.2
  | establishes _ _ _ _ hidle => exact AbstractDriver.isPrinterOnline_of_idle hidle

theorem not_isOpening_of_leavesJob (he : e.LeavesJob) : ¬ e.IsOpening := by
  cases e <;> simp_all [LeavesJob, IsOpening]

/-- A text in which the temperature of a heat command cannot be read. -/
def Unreadable (atof : Text → Int32) (gcode : Text) : Prop :=
  ∃ base : AbstractDriver, base.extractGCodeInfo atof gcode = none

theorem unreadable_of_sendCode {code : Text} (h : sendCode atof d code = none) : Unreadable atof code := by
  unfold sendCode at h
  split_ifs at h
  refine ⟨d.toAbstractDriver, ?_⟩
  cases hextract : d.toAbstractDriver.extractGCodeInfo atof code with
  | none => rfl
  | some base =>
    rw [hextract] at h
    cases h

theorem unreadable_of_stored {base : AbstractDriver} {g : GCodeBuffer} {gcode : Text} {totalLines : ℤ}
    {metaData : Option MetaData} (hsanity : metaData = none → g.sanity none = .ok)
    (h : (g.append gcode totalLines metaData).bind (base.gcodeStored atof gcode) = none) :
    Unreadable atof gcode := by
  cases ha : g.append gcode totalLines metaData with
  | none =>
    unfold GCodeBuffer.append at ha
    dsimp only at ha
    split_ifs at ha with hfailed hnone
    subst hnone
    exact absurd (hsanity rfl) hfailed
  | some a =>
    obtain ⟨r, g⟩ := a
    rw [ha] at h
    cases r with
    | ok =>
      cases hextract : ({ base with gcodeBuffer := g } : AbstractDriver).extractGCodeInfo atof gcode with
      | none => exact ⟨_, hextract⟩
      | some base => simp [AbstractDriver.gcodeStored, hextract] at h
    | _ => cases h

theorem unreadable_of_appendGCode {gcode : Text} {totalLines : ℤ} {metaData : Option MetaData}
    (hsanity : metaData = none → d.gcodeBuffer.sanity none = .ok)
    (h : d.appendGCode atof gcode totalLines metaData = none) : Unreadable atof gcode :=
  unreadable_of_stored hsanity (Option.map_eq_none_iff.mp (Option.map_eq_bind.trans h))

theorem unreadable_of_printNextLine {s : LineStore} (hs : d.gcodeBuffer.Stores s)
    (h : printNextLine atof d = none) : ∃ l ∈ s.lines, Unreadable atof l := by
  rw [printNextLine] at h
  cases hl : s.lines with
  | nil =>
    rw [getNextLine_nil hs hl] at h
    cases h
  | cons l ls =>
    rw [getNextLine_one hs hl] at h
    have hbind := Option.bind_eq_none_iff.mp h
    have hsend : sendCode atof d l = none := Option.eq_none_iff_forall_ne_some.mpr fun d₁ hd₁ => by
      cases hbind d₁ hd₁
    exact ⟨l, List.mem_cons_self .., unreadable_of_sendCode hsend⟩

/-- A print of the stored lines that does not start has failed at one of them. -/
theorem unreadable_of_startPrint {s : LineStore} (hs : d.gcodeBuffer.Stores s)
    (h : d.startPrint atof state = none) : ∃ l ∈ s.lines, Unreadable atof l := by
  cases ho : d.isPrinterOnline with
  | false =>
    rw [MarlinDriver.startPrint, AbstractDriver.startPrint_offline ho] at h
    cases h
  | true =>
    obtain ⟨g, hg, he⟩ := AbstractDriver.startPrint_online ho state
    have hstored : g.Stores s := by
      rcases hg with rfl | rfl
      · exact hs
      · exact hs
    rw [MarlinDriver.startPrint, he] at h
    exact unreadable_of_printNextLine (d := { d with
        state := state
        gcodeBuffer := g }) hstored (Option.map_eq_none_iff.mp h)

/-- A stop that does not happen has failed at the end code or at one of its lines. -/
theorem unreadable_of_stopPrint {endcode : Text} (h : d.stopPrint atof endcode = none) :
    ∃ l ∈ endcode :: accepted d.gcodeBuffer.clear endcode none, Unreadable atof l := by
  rw [MarlinDriver.stopPrint] at h
  cases hset : d.resetPrint.setGCode atof endcode with
  | none =>
    have hstored := Option.map_eq_none_iff.mp (Option.map_eq_bind.trans hset)
    exact ⟨endcode, List.mem_cons_self .., unreadable_of_stored (fun _ => rfl) hstored⟩
  | some p =>
    obtain ⟨gsr, d₂⟩ := p
    rw [hset] at h
    obtain ⟨⟨gsr', base⟩, hbase, hset⟩ := Option.bind_eq_some_iff.mp hset
    cases hset
    obtain ⟨g, hg, hbase⟩ := AbstractDriver.setGCode_stored hbase
    obtain ⟨s, hs, hl⟩ := setGCode_stores_accepted hg
    obtain ⟨l, hmem, hread⟩ := unreadable_of_startPrint (hbase.gcodeBuffer ▸ hs) h
    have hclear : d.resetPrint.gcodeBuffer.clear = d.gcodeBuffer.clear := (resetPrint_eq d).2.2.2
    rw [hl, hclear] at hmem
    exact ⟨l, List.mem_cons_of_mem _ hmem, hread⟩

/-! ### Runs -/

/-- Where the printer is online, the connection has been checked, whatever has happened. -/
theorem checkConnection_of_run (h : Run (Step atof) {} before d) :
    d.isPrinterOnline = true → d.checkConnection = false := by
  refine h.invariant (fun d => d.isPrinterOnline = true → d.checkConnection = false)
    (fun d e d' ih hstep honline => ?_) (fun honline => by cases honline)
  cases e with
  | openConnection rv ssrOk =>
    cases hstep
    unfold AbstractDriver.openConnection AbstractDriver.setBaudrate at honline
    split_ifs at honline
    · exact ih honline
    · cases honline
    · exact ih honline
  | _ =>
    obtain ⟨-, hconnects⟩ := connects id hstep
    cases hconnects with
    | keeps hcheck hsame => exact hcheck.trans (ih (hsame ▸ honline))
    | establishes _ _ _ hcheck => exact hcheck

theorem progress_of_acks (hbefore : Run (Step atof) {} before d₀) (hc : d₀.isConnected = true)
    (honline : d₀.isPrinterOnline = true) (he : e.Starts) (hstart : Writes atof d₀ (e, ws) d₁)
    (hes : ∀ l ∈ es, l.1.LeavesJob) (hrun : Run (Writes atof) d₁ es d) :
    ws ++ jobWrites es = ((job d₀ e).take (acks es + 1)).map wire ∧
      complete newline d.gcodeBuffer.buckets.flatten = (job d₀ e).drop (acks es) ∧
      d.state = if acks es < (job d₀ e).length then e.jobState else .idle := by
  obtain ⟨⟨s, hs, -⟩, -⟩ := (keeps_of_run hbefore).stored
  obtain ⟨hprogressed, hws⟩ := progressed_start hc (checkConnection_of_run hbefore honline) hs honline he hstart
  obtain ⟨hd, hw⟩ := hprogressed.run (jobState_cases e) hes hrun
  obtain ⟨s, hs, hl⟩ := hd.stores
  refine ⟨?_, by rw [complete_of_stores hs, hl], hd.state⟩
  rw [hws, hw, ← List.map_append]
  cases job d₀ e with
  | nil => simp
  | cons l ls => rfl

/-- A print of these lines that `e` has just started: the printer gets one more of them with each
acknowledgement, and is idle after the last one. -/
def Printing (atof : Text → Int32) (e : MarlinEvent) (lines : List Text) (d₁ : MarlinDriver) : Prop :=
  ∃ d₀ ws, Writes atof d₀ (e, ws) d₁ ∧ ∀ es d, (∀ l ∈ es, l.1.LeavesJob) → Run (Writes atof) d₁ es d →
    ws ++ jobWrites es = (lines.take (acks es + 1)).map wire ∧
      complete newline d.gcodeBuffer.buckets.flatten = lines.drop (acks es) ∧
      d.state = if acks es < lines.length then e.jobState else .idle

theorem written_of_starts (he : e.Starts) (h : Step atof d e d') : ∃ ws, d'.written = d.written ++ ws := by
  have hresponse : ¬ e.IsResponse := by
    cases e with
    | other e => cases e <;> first | exact id | exact fun _ => he
    | _ => exact id
  cases affects hresponse h with
  | command hown =>
    cases e with
    | other e => cases hown
    | _ => exact he.elim
  | quiet _ hwritten => exact ⟨[], by rw [hwritten, List.append_nil]⟩
  | sends _ hsends => exact ⟨_, hsends.written⟩

theorem printing_of_starts (hbefore : Run (Step atof) {} before d) (hc : d.isConnected = true)
    (honline : d.isPrinterOnline = true) (he : e.Starts) (h : Step atof d e d') :
    Printing atof e (job d e) d' := by
  obtain ⟨ws, hws⟩ := written_of_starts he h
  exact ⟨d, ws, ⟨h, hws⟩, fun es d'' hes hrun => progress_of_acks hbefore hc honline he ⟨h, hws⟩ hes hrun⟩

/-- Gcode that has been appended after a clear, and whose print has been started. -/
theorem printing_after_requests {d₂ d₃ d₄ : MarlinDriver} {es₁ es₂ : List MarlinEvent} {gcode : Text}
    {totalLines : ℤ} {metaData : Option MetaData} {r : GcodeSetResult} {r' : Bool}
    (hbefore : Run (Step atof) {} before d) (hc : d.isConnected = true) (honline : d.isPrinterOnline = true)
    (hes₁ : ∀ e ∈ es₁, e.LeavesJob) (hclear : Run (Step atof) d.clearGCode es₁ d₁)
    (happend : d₁.appendGCode atof gcode totalLines metaData = some (r, d₂)) (hes₂ : ∀ e ∈ es₂, e.LeavesJob)
    (hrun : Run (Step atof) d₂ es₂ d₃) (hstart : d₃.startPrint atof = some (r', d₄)) :
    Printing atof (other .startPrint) (accepted d.gcodeBuffer.clear gcode metaData) d₄ := by
  have hrun₃ : Run (Step atof) d (other .clearGCode :: es₁ ++
      other (.appendGCode gcode totalLines metaData) :: es₂)
      d₃ := by
    have hclearing : Step atof d (other .clearGCode) d.clearGCode := rfl
    have happending : Step atof d₁ (other (.appendGCode gcode totalLines metaData)) d₂ :=
      congrArg (Option.map Prod.snd) happend
    exact (Run.cons hclearing hclear).append (.cons happending hrun)
  obtain ⟨hc₃, honline₃⟩ := online_run (fun e he => by
    simp only [List.cons_append, List.mem_cons, List.mem_append] at he
    rcases he with rfl | he | rfl | he
    · exact id
    · exact not_isOpening_of_leavesJob (hes₁ e he)
    · exact id
    · exact not_isOpening_of_leavesJob (hes₂ e he)) hc honline hrun₃
  obtain ⟨hnot, ⟨s, hs, hl⟩, -, -⟩ := stored_after_append hes₁ hclear happend
  obtain ⟨-, hkeeps⟩ := keepsStored_run hes₂ hnot hrun
  have hjob : job d₃ (other .startPrint) = accepted d.gcodeBuffer.clear gcode metaData :=
    (complete_of_stores (hkeeps.stores hs)).trans hl
  have hstarts : (other .startPrint).Starts := trivial
  have hstep : Step atof d₃ (other .startPrint) d₄ := congrArg (Option.map Prod.snd) hstart
  rw [← hjob]
  exact printing_of_starts (hbefore.append hrun₃) hc₃ honline₃ hstarts hstep

/-- A print makes one line of progress with each acknowledgement, and none with anything else: after `k` of
them the first `k + 1` lines have been written, and after as many as there are lines the printer is idle. -/
theorem print_completes (hbefore : Run (Step atof) {} before d₀) (hc : d₀.isConnected = true)
    (honline : d₀.isPrinterOnline = true) (he : e.Starts) (hstart : Writes atof d₀ (e, ws) d₁)
    (hes : ∀ l ∈ es, l.1.LeavesJob) (hrun : Run (Writes atof) d₁ es d) :
    ws ++ jobWrites es = ((job d₀ e).take (acks es + 1)).map wire ∧
      complete newline d.gcodeBuffer.buckets.flatten = (job d₀ e).drop (acks es) ∧
      d.state = if acks es < (job d₀ e).length then e.jobState else .idle :=
  progress_of_acks hbefore hc honline he hstart hes hrun

def twoLines : List MarlinEvent := [.openConnection 0 true, .other (.response (ascii "ok T:0")),
  .other (.appendGCode (ascii "G1 X1\nG1 X2") (-1) none)]

/-- A query of the temperature in between, and a line that is asked for again. -/
def twoAcks : List (MarlinEvent × List Text) := [(.checkTemperature, [wire (ascii "M105")]),
  (.other (.response (ascii "ok")), [wire (ascii "G1 X2")]), (.other (.response (ascii "ok T:20")), []),
  (.other (.response (ascii "Resend:2")), [wire (ascii "G1 X2")]), (.other (.response (ascii "ok")), [])]

def writesOf (d : MarlinDriver) (l : MarlinEvent × List Text) : Option MarlinDriver :=
  (l.1.exec (fun _ => 0) d).bind fun d' => if d'.written = d.written ++ l.2 then some d' else none

theorem writes_of_writesOf {l : MarlinEvent × List Text} (h : writesOf d l = some d') :
    Writes (fun _ => 0) d l d' := by
  obtain ⟨d₁, hd₁, h⟩ := Option.bind_eq_some_iff.mp h
  split_ifs at h with hw
  cases h
  exact ⟨hd₁, hw⟩

theorem run_of_writesOf (h : es.foldlM writesOf d = some d') : Run (Writes fun _ => 0) d es d' :=
  (run_of_foldlM h).mono fun _ _ _ => writes_of_writesOf

theorem print_completes_twoLines : ∃ d : MarlinDriver,
    [wire (ascii "G1 X1")] ++ jobWrites twoAcks =
        ([ascii "G1 X1", ascii "G1 X2"].take (acks twoAcks + 1)).map wire ∧
      complete newline d.gcodeBuffer.buckets.flatten = [ascii "G1 X1", ascii "G1 X2"].drop (acks twoAcks) ∧
      d.state = if acks twoAcks < 2 then .printing else .idle := by
  have hcomputed : ((twoLines.foldlM (exec fun _ => 0) {}).bind fun d₀ =>
      (writesOf d₀ (.other .startPrint, [wire (ascii "G1 X1")])).bind fun d₁ =>
        (twoAcks.foldlM writesOf d₁).map fun _ =>
          (d₀.isConnected, d₀.isPrinterOnline, job d₀ (.other .startPrint))) =
      some (true, true, [ascii "G1 X1", ascii "G1 X2"]) := by
    decide +kernel
  obtain ⟨d₀, hd₀, h⟩ := Option.bind_eq_some_iff.mp hcomputed
  obtain ⟨d₁, hd₁, h⟩ := Option.bind_eq_some_iff.mp h
  obtain ⟨d, hd, h⟩ := Option.map_eq_some_iff.mp h
  obtain ⟨hconnected, h⟩ := Prod.mk.inj h
  obtain ⟨honline, hjob⟩ := Prod.mk.inj h
  have hprint := print_completes (e := .other .startPrint) (run_of_foldlM hd₀) hconnected honline trivial
    (writes_of_writesOf hd₁) (by simp [twoAcks, LeavesJob]) (run_of_writesOf hd)
  rw [hjob] at hprint
  exact ⟨d, hprint⟩

end MarlinEvent
end Print3D
