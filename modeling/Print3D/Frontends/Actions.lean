import Print3D.Drivers.Completion
import Print3D.Frontends.Uploads

/-! The actions of the command line that start a print, and the way of the gcode from there to the printer. -/
namespace Print3D
open CommandHandler Chunks Effects Lines Transition

namespace Communicator

variable {σ : Type} (peer : Peer σ)

def commCloseSocket : Call σ Unit := modify fun c => { c with socketFd := -1 }

/-- What `printError` prints: a message with the text of the last error, which may be NULL. -/
def errorMessage (what : Text) : Call σ Text := do
  let c ← get
  return what ++ ascii " (" ++ c.error.getD (ascii "(null)") ++ ascii ")"

/-- The end of each action that prints. The result is the message of the step that has failed, after
which nothing more is done; the exit status is 1 then, and else 0. -/
def actStart (notStarted : Text) : Call σ (Option Text) := do
  let rv ← commStartPrintGCode peer
  if rv < 0 then some <$> errorMessage notStarted
  else do
    commCloseSocket
    return none

/-- Clears, sends gcode in some way, and starts the print. -/
def actPrint (sendGCode : Call σ ℤ) (notSent notStarted : Text) : Call σ (Option Text) := do
  let rv ← commClearGCode peer
  if rv < 0 then some <$> errorMessage (ascii "could not clear gcode")
  else do
    let rv ← sendGCode
    if rv < 0 then some <$> errorMessage notSent
    else actStart peer notStarted

def actSendGcode (gcode : Text) : Call σ (Option Text) :=
  actPrint peer (commSendGCodeData peer gcode (-1) none) (ascii "could not send gcode")
    (ascii "sent gcode, but could not start print")

/-- Reads the first character. -/
def isAbsolutePath (path : Text) : Bool := (cString path).head? = some 47

def actSendGcodeFile (file : Text) : Call σ (Option Text) :=
  if isAbsolutePath file then
    actPrint peer (commSendGCodeFile peer file) (ascii "could not send gcode file")
      (ascii "sent gcode file, but could not start print")
  else return some (ascii "please supply an absolute path for the file to print")

/-- The connection is closed before the result is looked at. -/
def actStopPrint (endCode : Option Text) : Call σ (Option Text) := do
  let rv ← commStopPrintGCode peer endCode
  commCloseSocket
  if rv > -1 then return none else some <$> errorMessage (ascii "could not request printing stop")

/-! ### With a Marlin driver -/

section Marlin

variable {atof : Text → Int32} {files : Option Text → Except Text Text} {client : ℕ}
  {others : ℕ → Server MarlinDriver → Server MarlinDriver} {c : Communicator (Session MarlinDriver)}

/-- Between the commands of the client, the driver reads from its printer and sends commands of its own. -/
def updates (atof : Text → Int32) (p q : Standing MarlinDriver) : Prop :=
  q.2 = p.2 ∧ ∃ es, (∀ e ∈ es, MarlinEvent.LeavesJob e) ∧ Run (MarlinEvent.Step atof) p.1 es q.1

theorem ongoing_updates (atof : Text → Int32) : Server.Ongoing (updates atof) where
  refl p := ⟨rfl, [], by simp, .nil p.1⟩
  trans p q r h h' := by
    obtain ⟨hflag, es, hes, hrun⟩ := h
    obtain ⟨hflag', es', hes', hrun'⟩ := h'
    refine ⟨hflag'.trans hflag, es ++ es', fun e he => ?_, hrun.append hrun'⟩
    rcases List.mem_append.mp he with he | he
    · exact hes e he
    · exact hes' e he
  cancelled _ _ h := h.1

theorem clearGCode_run (hothers : ∀ n s, Server.Leaves (updates atof) client s (others n s)) (h : Ready c)
    {trx : Transaction} (htrx : c.peer.server.clients client = some trx) : ∃ d c' trx',
      (commClearGCode (serverPeer (MarlinDriver.ops atof) files client others)).run c = some (0, c') ∧
        Ready c' ∧
        updates atof (c.peer.server.driver, trx.cancelled) (d, trx'.cancelled) ∧
        c'.peer.server.driver = d.clearGCode ∧ (c.peer.next others).clients client = some trx' ∧
        c'.peer.server.clients client = some trx' := by
  obtain ⟨trx', htrx', -, hupdates⟩ := hothers c.peer.log.length c.peer.server trx htrx
  have hcalls : Transparent (MarlinDriver.ops atof) files client _ (c.peer.next others) c :=
    transparent_of_ready h
  refine ⟨_, _, trx', hcalls.clearGCode, ⟨h.fd, h.reads⟩, hupdates, rfl, htrx', ?_⟩
  exact (if_pos rfl).trans htrx'

/-- The lines of gcode that an empty buffer takes: of gcode it has no room for, none. -/
def linesOf (gcode : Text) : List Text :=
  if gcode.length ≤ GCodeBuffer.maxBufferSize then normLines false gcode else []

theorem sanity_clear (g : GCodeBuffer) : g.clear.sanity none = .ok ∧ g.clear.sanity (some {}) = .ok :=
  ⟨rfl, rfl⟩

theorem accepts_clear (g : GCodeBuffer) (gcode : Text) {metaData : Option MetaData}
    (h : g.clear.sanity metaData = .ok) :
    g.clear.Accepts gcode metaData ↔ gcode.length ≤ GCodeBuffer.maxBufferSize := by
  have hsize : GCodeBuffer.sizeT g.clear.bufferSize = 0 := rfl
  unfold GCodeBuffer.Accepts
  rw [hsize, Nat.zero_add, and_iff_right h]

theorem accepted_clear {d : MarlinDriver} {before : List MarlinEvent}
    (h : Run (MarlinEvent.Step atof) {} before d)
    (gcode : Text) {metaData : Option MetaData} (hsanity : d.gcodeBuffer.clear.sanity metaData = .ok) :
    MarlinDriver.accepted d.gcodeBuffer.clear gcode metaData = linesOf gcode := by
  have hkeep : d.gcodeBuffer.clear.keepGpxMacroComments = false := (MarlinEvent.keeps_of_run h).stored.keep
  unfold MarlinDriver.accepted linesOf
  rw [hkeep]
  simp only [accepts_clear _ _ hsanity]

theorem refused {gsr : GcodeSetResult} (h : gsr = .ok ∨ gsr = .bufferFull) (hne : gsr ≠ .ok) :
    packetResult false gsr = -2 ∧ packetError false gsr none = some (ascii "buffer_full") := by
  rcases h with rfl | rfl
  · exact absurd rfl hne
  · exact ⟨rfl, rfl⟩

/-- How an action ends that prints these lines: with one that the driver cannot read, or with a print. -/
def Starts (atof : Text → Int32) (lines : List Text) :
    Option (Option Text × Communicator (Session MarlinDriver)) → Prop
  | none => ∃ l ∈ lines, MarlinEvent.Unreadable atof l
  | some (some _, _) => False
  | some (none, c) => MarlinEvent.Printing atof (.other .startPrint) lines c.peer.server.driver

theorem Starts.elim {lines : List Text} {result : Option (Option Text × Communicator (Session MarlinDriver))}
    (h : Starts atof lines result) (P : Option (Option Text × Communicator (Session MarlinDriver)) → Prop)
    (hnone : ∀ l ∈ lines, MarlinEvent.Unreadable atof l → P none)
    (hprinting : ∀ c, MarlinEvent.Printing atof (.other .startPrint) lines c.peer.server.driver →
      P (some (none, c))) : P result := by
  cases result with
  | none =>
    obtain ⟨l, hmem, hread⟩ := h
    exact hnone l hmem hread
  | some r =>
    obtain ⟨message, c⟩ := r
    cases message with
    | none => exact hprinting c h
    | some _ => exact False.elim h

theorem starts_of_requests {d d₁ : MarlinDriver} {trx : Transaction} {before es : List MarlinEvent}
    {gcode : Text}
    {totalLines : ℤ} {metaData : Option MetaData} {r : GcodeSetResult}
    (hothers : ∀ n s, Server.Leaves (updates atof) client s (others n s)) (h : Ready c)
    (htrx : c.peer.server.clients client = some trx) (hbefore : Run (MarlinEvent.Step atof) {} before d)
    (hconnected : d.isConnected = true) (honline : d.isPrinterOnline = true)
    (hes : ∀ e ∈ es, MarlinEvent.LeavesJob e) (hclear : Run (MarlinEvent.Step atof) d.clearGCode es d₁)
    (happend : d₁.appendGCode atof gcode totalLines metaData = some (r, c.peer.server.driver))
    (hsanity : d.gcodeBuffer.clear.sanity metaData = .ok) (notStarted : Text) :
    Starts atof (linesOf gcode)
      ((actStart (serverPeer (MarlinDriver.ops atof) files client others) notStarted).run c) := by
  obtain ⟨_, _, _, _, es₂, hes₂, hrun₂⟩ := hothers c.peer.log.length c.peer.server trx htrx
  have hcalls : Transparent (MarlinDriver.ops atof) files client _ (c.peer.next others) c :=
    transparent_of_ready h
  rw [← accepted_clear hbefore gcode hsanity]
  unfold actStart
  rw [StateT.run_bind, hcalls.startPrint]
  change Starts atof _ ((((c.peer.next others).driver.startPrint atof).map _).bind _)
  cases hstart : (c.peer.next others).driver.startPrint atof with
  | none =>
    obtain ⟨hnot, ⟨s, hs, hl⟩, -, -⟩ := MarlinEvent.stored_after_append hes hclear happend
    obtain ⟨-, hkeeps⟩ := MarlinEvent.keepsStored_run hes₂ hnot hrun₂
    rw [← hl]
    exact MarlinEvent.unreadable_of_startPrint (hkeeps.stores hs) hstart
  | some p =>
    exact MarlinEvent.printing_after_requests hbefore hconnected honline hes hclear happend hes₂ hrun₂ hstart

/-- How the action for gcode ends: with gcode that the driver cannot read, with a buffer that has no room for
it, or with a print that has started. -/
def PrintsGcode (atof : Text → Int32) (gcode : Text) :
    Option (Option Text × Communicator (Session MarlinDriver)) → Prop
  | none => ∃ text ∈ gcode :: normLines false gcode, MarlinEvent.Unreadable atof text
  | some (some message, c) => GCodeBuffer.maxBufferSize < gcode.length ∧
      message = ascii "could not send gcode (buffer_full)" ∧ c.peer.server.driver.isPrinting = false
  | some (none, c) => gcode.length ≤ GCodeBuffer.maxBufferSize ∧
      MarlinEvent.Printing atof (.other .startPrint) (normLines false gcode) c.peer.server.driver

/-- From the gcode on the command line to the printer, with the driver's own updates going on all the time and a
transaction that nobody cancels. -/
theorem actSendGcode_prints {gcode : Text} {trx : Transaction} {before : List MarlinEvent}
    (hothers : ∀ n s, Server.Leaves (updates atof) client s (others n s)) (h : Ready c)
    (htrx : c.peer.server.clients client = some trx) (hnew : trx.cancelled = false)
    (hbefore : Run (MarlinEvent.Step atof) {} before c.peer.server.driver)
    (hconnected : c.peer.server.driver.isConnected = true)
    (honline : c.peer.server.driver.isPrinterOnline = true)
    (hne : gcode ≠ []) (hzero : 0 ∉ gcode) (hfits : Chunks.Fits maxPacketSize newline gcode) :
    PrintsGcode atof gcode
      ((actSendGcode (serverPeer (MarlinDriver.ops atof) files client others) gcode).run c) := by
  obtain ⟨d, c₁, trx₁, hclear, hready₁, ⟨hflag, es₀, hes₀, hrun₀⟩, hd, -, htrx₁⟩ :=
    clearGCode_run hothers h htrx
  have hbefore₀ := hbefore.append hrun₀
  obtain ⟨hconnected₀, honline₀⟩ := MarlinEvent.online_run
    (fun e he => MarlinEvent.not_isOpening_of_leavesJob (hes₀ e he)) hconnected honline hrun₀
  have hargs : Sendable (-1) (-1) (-1) none :=
    ⟨by unfold IsInt32; decide, by unfold IsInt32; decide, by unfold IsInt32; decide, fun _ h => by cases h⟩
  have hupload : Uploaded (MarlinDriver.ops atof) (updates atof) client _ gcode (-1) {} ((commSendGCodeData
      (serverPeer (MarlinDriver.ops atof) files client others) gcode (-1) none).run c₁) :=
    uploaded hothers (ongoing_updates atof) hready₁ htrx₁ hne hzero hfits hargs
  have hsanity := (sanity_clear d.gcodeBuffer).2
  unfold actSendGcode actPrint
  rw [run_bind_of_eq_some hclear, if_neg (by decide), StateT.run_bind]
  cases hsend : (commSendGCodeData (serverPeer (MarlinDriver.ops atof) files client others) gcode
    (-1) none).run c₁ with
  | none =>
    rw [hsend] at hupload
    obtain ⟨p, -, happend⟩ := hupload
    exact ⟨gcode, List.mem_cons_self .., MarlinEvent.unreadable_of_appendGCode (fun h => by cases h) happend⟩
  | some result =>
    obtain ⟨rv, c₂⟩ := result
    rw [hsend] at hupload
    obtain ⟨hready₂, ⟨d₁, flag⟩, gsr, ⟨hflag₁, es₁, hes₁, hrun₁⟩, happend, htrx₂, hrv, herror⟩ := hupload
    have hflag₂ : flag = false := hflag₁.trans (hflag.trans hnew)
    subst hflag₂
    rw [hd] at hrun₁
    obtain ⟨hnot, -, haccepted, hfull⟩ := MarlinEvent.stored_after_append hes₁ hrun₁ happend
    rw [accepts_clear _ _ hsanity] at haccepted
    rw [Option.bind_eq_bind, Option.bind_some]
    dsimp only
    by_cases hok : gsr = .ok
    · subst hok
      have hrv₀ : rv = 0 := hrv
      subst hrv₀
      have hroom := haccepted.mp rfl
      have hstarts : Starts atof (linesOf gcode)
          ((actStart (serverPeer (MarlinDriver.ops atof) files client others)
          (ascii "sent gcode, but could not start print")).run c₂) :=
        starts_of_requests hothers hready₂ htrx₂ hbefore₀ hconnected₀ honline₀ hes₁ hrun₁ happend hsanity _
      rw [linesOf, if_pos hroom] at hstarts
      rw [if_neg (by decide)]
      refine hstarts.elim (PrintsGcode atof gcode) (fun l hmem hread => ?_) (fun c' hprinting => ?_)
      · exact ⟨l, List.mem_cons_of_mem _ hmem, hread⟩
      · exact ⟨hroom, hprinting⟩
    · obtain ⟨hresult, hmessage⟩ := refused (hfull hsanity) hok
      rw [hresult] at hrv
      rw [hmessage] at herror
      subst hrv
      rw [if_pos (by decide)]
      refine ⟨not_le.mp fun hle => hok (haccepted.mpr hle), ?_, hnot⟩
      rw [herror]
      decide

theorem leaves_refl (s : Server MarlinDriver) (client : ℕ) : Server.Leaves (updates atof) client s s :=
  fun trx htrx => ⟨trx, htrx, rfl, (ongoing_updates atof).refl _⟩

def greeted (d : MarlinDriver) : Communicator (Session MarlinDriver) :=
  { socketFd := 3, peer := { server := ({ driver := d } : Server MarlinDriver).connect } }

theorem ready_greeted (d : MarlinDriver) : Ready (greeted d) := by
  have hfd : (0 : ℤ) ≤ 3 := by decide
  exact ⟨hfd, rfl⟩

theorem run_greeting : ∃ d, Run (MarlinEvent.Step fun _ => 0) {} (MarlinEvent.twoLines.take 2) d ∧
    d.isConnected = true ∧ d.isPrinterOnline = true := by
  have hgreeting : ((MarlinEvent.twoLines.take 2).foldlM (MarlinEvent.exec fun _ => 0) {}).map
      (fun d => (d.isConnected, d.isPrinterOnline)) = some (true, true) := by
    decide +kernel
  obtain ⟨d, hd, h⟩ := Option.map_eq_some_iff.mp hgreeting
  obtain ⟨hconnected, honline⟩ := Prod.mk.inj h
  exact ⟨d, run_of_foldlM hd, hconnected, honline⟩

theorem actSendGcode_prints_greeted : ∃ d : MarlinDriver, PrintsGcode (fun _ => 0) (ascii "G1 X1\nG1 X2")
    ((actSendGcode (serverPeer (MarlinDriver.ops fun _ => 0) (fun _ => .error []) 0 fun _ s => s)
      (ascii "G1 X1\nG1 X2")).run (greeted d)) := by
  obtain ⟨d, hd, hconnected, honline⟩ := run_greeting
  have htrx : (greeted d).peer.server.clients 0 = some {} := rfl
  exact ⟨d, actSendGcode_prints (fun _ s => leaves_refl s 0) (ready_greeted d) htrx rfl hd hconnected honline
    (by decide) (by decide) (by decide)⟩

/-- How the action for a file ends: with a file that the server cannot read, with gcode in it that the driver
cannot read, or with a print that has started. There is no failure for a file that the buffer has no room for;
the print that starts then is empty. -/
def PrintsFile (atof : Text → Int32) (contents : Except Text Text) :
    Option (Option Text × Communicator (Session MarlinDriver)) → Prop
  | none => ∃ data, contents = .ok data ∧ ∃ text ∈ cString data :: linesOf (cString data),
      MarlinEvent.Unreadable atof text
  | some (some message, c) => ∃ text, contents = .error text ∧
      message = ascii "could not send gcode file (" ++ serverError text ++ ascii ")" ∧
      c.peer.server.driver.isPrinting = false
  | some (none, c) => ∃ data, contents = .ok data ∧
      MarlinEvent.Printing atof (.other .startPrint) (linesOf (cString data)) c.peer.server.driver

/-- From the name of a file on the command line to the printer. -/
theorem actSendGcodeFile_prints {file : Text} {trx : Transaction} {before : List MarlinEvent}
    (hothers : ∀ n s, Server.Leaves (updates atof) client s (others n s))
    (hactive : ∀ n s trx trx', s.clients client = some trx → (others n s).clients client = some trx' →
      trx'.active = trx.active)
    (h : Ready c) (htrx : c.peer.server.clients client = some trx) (hnew : trx.active = false)
    (hbefore : Run (MarlinEvent.Step atof) {} before c.peer.server.driver)
    (hconnected : c.peer.server.driver.isConnected = true)
    (honline : c.peer.server.driver.isPrinterOnline = true) (habsolute : isAbsolutePath file = true)
    (hfits : Fits (cString file))
    (hshort : ∀ message, files (some (cString file)) = .error message → InOneRead message) :
    PrintsFile atof (files (some (cString file)))
      ((actSendGcodeFile (serverPeer (MarlinDriver.ops atof) files client others) file).run c) := by
  obtain ⟨d, c₁, trx₁, hclear, hready₁, ⟨-, es₀, hes₀, hrun₀⟩, hd, hnext₁, htrx₁⟩ :=
    clearGCode_run hothers h htrx
  have hbefore₀ := hbefore.append hrun₀
  obtain ⟨hconnected₀, honline₀⟩ := MarlinEvent.online_run
    (fun e he => MarlinEvent.not_isOpening_of_leavesJob (hes₀ e he)) hconnected honline hrun₀
  obtain ⟨trx₂, htrx₂, -, -, es₁, hes₁, hrun₁⟩ := hothers c₁.peer.log.length c₁.peer.server trx₁ htrx₁
  have hidle : trx₂.active = false :=
    (hactive _ _ _ _ htrx₁ htrx₂).trans ((hactive _ _ _ _ htrx hnext₁).trans hnew)
  have hcalls : Transparent (MarlinDriver.ops atof) files client _ (c₁.peer.next others) c₁ :=
    transparent_of_ready hready₁
  have hsend := hcalls.sendGCodeFile file trx₂ htrx₂ hfits hshort
  rw [if_neg (by simp [hidle])] at hsend
  dsimp only at hrun₁
  rw [hd] at hrun₁
  have hsanity := (sanity_clear d.gcodeBuffer).1
  unfold actSendGcodeFile actPrint
  rw [if_pos habsolute, run_bind_of_eq_some hclear, if_neg (by decide), StateT.run_bind, hsend]
  cases files (some (cString file)) with
  | error text =>
    obtain ⟨hnot, -⟩ := MarlinEvent.keepsStored_run hes₁ (MarlinDriver.clearGCode_cases d).2.2.1 hrun₁
    have hmessage : ascii "could not send gcode file" ++ ascii " (" =
        ascii "could not send gcode file (" := by decide
    refine ⟨text, rfl, ?_, hnot⟩
    rw [← hmessage]
    rfl
  | ok data =>
    rw [Option.bind_eq_bind]
    dsimp only
    have happends : (MarlinDriver.ops atof).appendGCode (c₁.peer.next others).driver (cString data) (-1) none =
      (c₁.peer.next others).driver.appendGCode atof (cString data) (-1) none := rfl
    rw [happends]
    cases happend : (c₁.peer.next others).driver.appendGCode atof (cString data) (-1) none with
    | none =>
      obtain ⟨-, hkeeps⟩ := MarlinEvent.keepsStored_run hes₁ (MarlinDriver.clearGCode_cases d).2.2.1 hrun₁
      exact ⟨data, rfl, cString data, List.mem_cons_self .., MarlinEvent.unreadable_of_appendGCode
        (fun _ => (MarlinEvent.sanity_of_keepsStored hkeeps none).trans hsanity) happend⟩
    | some p =>
      obtain ⟨r, d₂⟩ := p
      rw [Option.map_some, Option.bind_some]
      dsimp only
      rw [if_neg (by decide)]
      set c₂ := c₁.after ipcCmdqGcodeAppendFile [.x (some (cString file))]
        ({ c₁.peer.next others with driver := d₂ },
          { sent := [okReply], calls := [.appendGCode (cString data) (-1) none] }) with hc₂
      have hready₂ : Ready c₂ := ⟨hready₁.fd, hready₁.reads⟩
      have hstarts : Starts atof (linesOf (cString data))
          ((actStart (serverPeer (MarlinDriver.ops atof) files client
          others) (ascii "sent gcode file, but could not start print")).run c₂) :=
        starts_of_requests hothers hready₂ htrx₂ hbefore₀ hconnected₀ honline₀ hes₁ hrun₁ happend hsanity _
      refine hstarts.elim (PrintsFile atof (.ok data)) (fun l hmem hread => ?_) (fun c' hprinting => ?_)
      · exact ⟨data, rfl, l, List.mem_cons_of_mem _ hmem, hread⟩
      · exact ⟨data, rfl, hprinting⟩

theorem actSendGcodeFile_prints_greeted : ∃ d : MarlinDriver,
    PrintsFile (fun _ => 0) (.ok (ascii "G1 X1\nG1 X2"))
      ((actSendGcodeFile (serverPeer (MarlinDriver.ops fun _ => 0) (fun _ => .ok (ascii "G1 X1\nG1 X2")) 0
        fun _ s => s) (ascii "/tmp/part.gcode")).run (greeted d)) := by
  obtain ⟨d, hd, hconnected, honline⟩ := run_greeting
  have htrx : (greeted d).peer.server.clients 0 = some {} := rfl
  exact ⟨d, actSendGcodeFile_prints (fun _ s => leaves_refl s 0)
    (fun _ _ _ _ h h' => by cases h.symm.trans h'; rfl)
    (ready_greeted d) htrx rfl hd hconnected honline (by decide) (by decide) (fun _ h => by cases h)⟩

/-- How the action for a stop ends: with end code that the driver cannot read, or with a print of
the end code in place of whatever has been printed before, and all transfers of the other clients
cancelled. -/
def Stops (atof : Text → Int32) (client : ℕ) (endCode : Text) :
    Option (Option Text × Communicator (Session MarlinDriver)) → Prop
  | none => ∃ text ∈ endCode :: linesOf endCode, MarlinEvent.Unreadable atof text
  | some (some _, _) => False
  | some (none, c) =>
    MarlinEvent.Printing atof (.other (.stopPrint endCode)) (linesOf endCode) c.peer.server.driver ∧
      ∀ i trx, c.peer.server.clients i = some trx → i ≠ client → trx.cancelled = true

/-- A stop ends what is printed, whatever the client does after it, and has the end code printed. -/
theorem actStopPrint_stops {endCode : Option Text} {trx : Transaction} {before : List MarlinEvent}
    (hothers : ∀ n s, Server.Leaves (updates atof) client s (others n s)) (h : Ready c)
    (htrx : c.peer.server.clients client = some trx)
    (hbefore : Run (MarlinEvent.Step atof) {} before c.peer.server.driver)
    (hconnected : c.peer.server.driver.isConnected = true)
    (honline : c.peer.server.driver.isPrinterOnline = true) (hfits : Fits (endCode.elim [] cString)) :
    Stops atof client (endCode.elim [] cString)
      ((actStopPrint (serverPeer (MarlinDriver.ops atof) files client others) endCode).run c) := by
  obtain ⟨trx', htrx', -, -, es, hes, hrun⟩ := hothers c.peer.log.length c.peer.server trx htrx
  change Run (MarlinEvent.Step atof) c.peer.server.driver es (c.peer.next others).driver at hrun
  have hbefore₀ := hbefore.append hrun
  obtain ⟨hconnected₀, honline₀⟩ := MarlinEvent.online_run
    (fun e he => MarlinEvent.not_isOpening_of_leavesJob (hes e he)) hconnected honline hrun
  have hcalls : Transparent (MarlinDriver.ops atof) files client _ (c.peer.next others) c :=
    transparent_of_ready h
  unfold actStopPrint
  rw [StateT.run_bind, hcalls.stopPrint endCode hfits]
  generalize endCode.elim [] cString = code
  have hstops : (MarlinDriver.ops atof).stopPrint (c.peer.next others).driver code =
    (c.peer.next others).driver.stopPrint atof code := rfl
  rw [hstops]
  cases hstop : (c.peer.next others).driver.stopPrint atof code with
  | none =>
    obtain ⟨text, hmem, hread⟩ := MarlinEvent.unreadable_of_stopPrint hstop
    rw [accepted_clear hbefore₀ code (sanity_clear _).1] at hmem
    exact ⟨text, hmem, hread⟩
  | some p =>
    obtain ⟨r, d⟩ := p
    have hstarts : (MarlinEvent.other (.stopPrint code)).Starts := trivial
    have hstep : MarlinEvent.Step atof (c.peer.next others).driver (.other (.stopPrint code)) d :=
      congrArg (Option.map Prod.snd) hstop
    have hprinting := MarlinEvent.printing_of_starts hbefore₀ hconnected₀ honline₀ hstarts hstep
    have hjob : MarlinEvent.job (c.peer.next others).driver (.other (.stopPrint code)) = linesOf code :=
      accepted_clear hbefore₀ code (sanity_clear _).1
    rw [hjob] at hprinting
    refine ⟨hprinting, fun i trx hi hne => ?_⟩
    change (if some client = some i then _ else _) = some trx at hi
    rw [if_neg (by simpa using Ne.symm hne)] at hi
    obtain ⟨trx', -, rfl⟩ := Option.map_eq_some_iff.mp hi
    rfl

theorem actStopPrint_stops_greeted : ∃ d : MarlinDriver, Stops (fun _ => 0) 0 (ascii "M104 S0")
    ((actStopPrint (serverPeer (MarlinDriver.ops fun _ => 0) (fun _ => .error []) 0 fun _ s => s)
      (some (ascii "M104 S0"))).run (greeted d)) := by
  obtain ⟨d, hd, hconnected, honline⟩ := run_greeting
  have htrx : (greeted d).peer.server.clients 0 = some {} := rfl
  have hfits : Fits ((some (ascii "M104 S0")).elim [] cString) := by decide
  exact ⟨d, actStopPrint_stops (fun _ s => leaves_refl s 0) (ready_greeted d) htrx hd hconnected honline hfits⟩

end Marlin

end Communicator
end Print3D
