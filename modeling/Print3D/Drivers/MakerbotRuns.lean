import Print3D.Drivers.AbstractRuns
import Print3D.Drivers.MakerbotDriver
import Print3D.Library.Effects

/-! All that can happen to a Makerbot driver, and what each of its functions does to the state,
the gcode buffer and the queue. -/
namespace Print3D
open GCodeBuffer Effects

namespace MakerbotDriver

variable {σ : Type} {gpx : Gpx σ} {atof : Text → Int32} {d d' d'' : MakerbotDriver σ}

/-! ### Talking to the printer -/

def HeardTemperature (d : MakerbotDriver σ) : Prop := ∃ buf, (10, buf) ∈ d.received

/-- What packets and their responses can do to the driver. -/
structure Talks (d d' : MakerbotDriver σ) : Prop where
  gcodeBuffer : d'.gcodeBuffer = d.gcodeBuffer
  isConnected : d'.isConnected = d.isConnected
  queue : d'.queue = d.queue
  conversions : d'.conversions = d.conversions
  handed : d'.handed = d.handed
  received : d.received <+: d'.received
  state : d'.state = d.state ∨ d.state = .connecting ∧ d'.state = .idle ∧ HeardTemperature d'

theorem HeardTemperature.mono (h : HeardTemperature d) (hr : d.received <+: d'.received) :
    HeardTemperature d' := by
  obtain ⟨buf, hbuf⟩ := h
  exact ⟨buf, hr.subset hbuf⟩

theorem Talks.refl (d : MakerbotDriver σ) : Talks d d :=
  ⟨rfl, rfl, rfl, rfl, rfl, List.prefix_refl _, .inl rfl⟩

theorem Talks.trans (h : Talks d d') (h' : Talks d' d'') : Talks d d'' := by
  refine ⟨h'.gcodeBuffer.trans h.gcodeBuffer, h'.isConnected.trans h.isConnected, h'.queue.trans h.queue,
    h'.conversions.trans h.conversions, h'.handed.trans h.handed, h.received.trans h'.received, ?_⟩
  rcases h'.state with hs' | ⟨hs', hidle, hheard⟩
  · rcases h.state with hs | ⟨hs, hidle, hheard⟩
    · exact .inl (hs'.trans hs)
    · exact .inr ⟨hs, hs'.trans hidle, hheard.mono h'.received⟩
  · rcases h.state with hs | ⟨-, hidle', -⟩
    · exact .inr ⟨hs ▸ hs', hidle, hheard⟩
    · rw [hidle'] at hs'
      cases hs'

/-- Responses do not change the state of a driver that is online. -/
theorem Talks.state_online (h : Talks d d') (ho : d.isPrinterOnline = true) : d'.state = d.state := by
  rcases h.state with hs | ⟨hs, -⟩
  · exact hs
  · rw [AbstractDriver.isPrinterOnline, hs] at ho
    cases ho

theorem Talks.isPrinting (h : Talks d d') : d'.isPrinting = d.isPrinting := by
  unfold AbstractDriver.isPrinting
  rcases h.state with hs | ⟨hs, hidle, -⟩
  · rw [hs]
  · rw [hs, hidle]
    rfl

theorem storeTemperature_talks (toolcmd : ℤ) (t : ℕ) : Talks d (d.storeTemperature toolcmd t) := by
  unfold storeTemperature
  split_ifs <;> exact ⟨rfl, rfl, rfl, rfl, rfl, List.prefix_refl _, .inl rfl⟩

theorem interpret_talks {cmd : UInt8} {toolcmd : ℤ} {buf : Text} (hr : (cmd, buf) ∈ d.received)
    (h : d.interpret cmd toolcmd buf = .ok d') : Talks d d' := by
  unfold interpret at h
  split_ifs at h with h0 h2 h10
  · obtain ⟨version, -, h⟩ := bind_eq_ok.mp h
    cases h
    exact ⟨rfl, rfl, rfl, rfl, rfl, List.prefix_refl _, .inl rfl⟩
  · obtain ⟨space, -, h⟩ := bind_eq_ok.mp h
    cases h
    exact ⟨rfl, rfl, rfl, rfl, rfl, List.prefix_refl _, .inl rfl⟩
  · obtain ⟨t, -, h⟩ := bind_eq_ok.mp h
    have hstored := storeTemperature_talks (d := d) toolcmd t
    rw [h10] at hr
    cases h
    split_ifs with hs
    · refine hstored.trans ⟨rfl, rfl, rfl, rfl, rfl, List.prefix_refl _, .inr ⟨hs, rfl, buf, ?_⟩⟩
      exact hstored.received.subset hr
    · exact hstored
  · cases h
    exact .refl d

theorem parseResponse_talks {cmd : UInt8} {toolcmd rv : ℤ} (h : d.parseResponse cmd toolcmd = .ok (rv, d')) :
    Talks d d' := by
  obtain ⟨⟨frame, serial⟩, -, h⟩ := bind_eq_ok.mp h
  cases frame with
  | error rv =>
    cases h
    exact ⟨rfl, rfl, rfl, rfl, rfl, List.prefix_refl _, .inl rfl⟩
  | ok buf =>
    obtain ⟨d₁, hd₁, h⟩ := bind_eq_ok.mp h
    cases h
    refine Talks.trans ?_ (interpret_talks (List.mem_append_right _ (List.mem_singleton.mpr rfl)) hd₁)
    exact ⟨rfl, rfl, rfl, rfl, rfl, List.prefix_append _ _, .inl rfl⟩

theorem noteResponse_talks (rv : ℤ) : Talks d (d.noteResponse rv) := by
  unfold noteResponse
  split_ifs
  · exact ⟨rfl, rfl, rfl, rfl, rfl, List.prefix_refl _, .inl rfl⟩
  · exact .refl d

theorem tryPacket_talks {pktBuf : Text} {cmd : UInt8} {toolcmd rv : ℤ} {n : ℕ}
    (h : tryPacket pktBuf cmd toolcmd n d = .ok (rv, d')) : Talks d d' := by
  induction n generalizing d with
  | zero => cases h
  | succ n ih =>
    obtain ⟨⟨rv₁, d₁⟩, hd₁, h⟩ := bind_eq_ok.mp h
    have hwrite : Talks d { d with serial := d.serial.write pktBuf } :=
      ⟨rfl, rfl, rfl, rfl, rfl, List.prefix_refl _, .inl rfl⟩
    have htalks := (hwrite.trans (parseResponse_talks hd₁)).trans (noteResponse_talks rv₁)
    dsimp only at h
    split_ifs at h
    · cases h
      exact htalks
    · exact htalks.trans (ih h)

theorem reserve_talks (len : ℕ) (updateBufferSpace : Bool) : Talks d (d.reserve len updateBufferSpace) := by
  unfold reserve
  split_ifs
  · exact ⟨rfl, rfl, rfl, rfl, rfl, List.prefix_refl _, .inl rfl⟩
  · exact .refl d

theorem sendPacket_talks {payload : Text} {updateBufferSpace : Bool} {r : Bool}
    (h : d.sendPacket payload updateBufferSpace = .ok (r, d')) : Talks d d' := by
  obtain ⟨⟨⟨rv, stray⟩, serial⟩, -, h⟩ := bind_eq_ok.mp h
  dsimp only at h
  split_ifs at h
  obtain ⟨toolcmd, -, h⟩ := bind_eq_ok.mp h
  obtain ⟨⟨rv', d₁⟩, hd₁, h⟩ := bind_eq_ok.mp h
  cases h
  have hserial : Talks d { d with serial := serial } := ⟨rfl, rfl, rfl, rfl, rfl, List.prefix_refl _, .inl rfl⟩
  exact (hserial.trans (reserve_talks payload.length updateBufferSpace)).trans (tryPacket_talks hd₁)

theorem requestBufferSpace_eq {space : ℤ} (h : d.requestBufferSpace = .ok (space, d')) :
    (∃ r, d.sendPacket [2] = .ok (r, d')) ∧ space = i32 d'.bufferSpace.toNat := by
  unfold requestBufferSpace at h
  obtain ⟨⟨r, d₁⟩, hd₁, h⟩ := bind_eq_ok.mp h
  obtain ⟨rfl, rfl⟩ := Prod.mk.inj (Except.ok.inj h)
  exact ⟨⟨r, hd₁⟩, rfl⟩

theorem requestBufferSpace_talks {space : ℤ} (h : d.requestBufferSpace = .ok (space, d')) : Talks d d' := by
  obtain ⟨⟨r, hr⟩, -⟩ := requestBufferSpace_eq h
  exact sendPacket_talks hr

theorem updateTemperatures_talks {r : Bool} (h : d.updateTemperatures = .ok (r, d')) : Talks d d' := by
  unfold updateTemperatures at h
  obtain ⟨⟨r₁, d₁⟩, h₁, h⟩ := bind_eq_ok.mp h
  obtain ⟨⟨r₂, d₂⟩, h₂, h⟩ := bind_eq_ok.mp h
  obtain ⟨⟨r₃, d₃⟩, h₃, h⟩ := bind_eq_ok.mp h
  obtain ⟨⟨r₄, d₄⟩, h₄, h⟩ := bind_eq_ok.mp h
  cases h
  exact (((sendPacket_talks h₁).trans (sendPacket_talks h₂)).trans (sendPacket_talks h₃)).trans
    (sendPacket_talks h₄)

theorem greet_talks (h : d.greet = .ok d') : Talks d d' := by
  unfold greet at h
  split_ifs at h
  · cases h
    exact .refl d
  · obtain ⟨⟨version, d₁⟩, hd₁, h⟩ := bind_eq_ok.mp h
    unfold getFirmwareVersion at hd₁
    obtain ⟨⟨r, d₂⟩, hd₂, hd₁⟩ := bind_eq_ok.mp hd₁
    cases hd₁
    cases h
    exact sendPacket_talks hd₂

theorem queryPrinter_talks (h : d.queryPrinter = .ok d') : Talks d d' := by
  unfold queryPrinter at h
  split_ifs at h
  · obtain ⟨d₁, h₁, h⟩ := bind_eq_ok.mp h
    obtain ⟨⟨r, d₂⟩, h₂, h⟩ := bind_eq_ok.mp h
    obtain ⟨⟨space, d₃⟩, h₃, h⟩ := bind_eq_ok.mp h
    cases h
    refine (((greet_talks h₁).trans (updateTemperatures_talks h₂)).trans (requestBufferSpace_talks h₃)).trans ?_
    exact ⟨rfl, rfl, rfl, rfl, rfl, List.prefix_refl _, .inl rfl⟩
  · cases h
    exact .refl d

/-! ### The queue -/

/-- The first `n` commands of the queue have been handed to `sendPacket`. -/
def hand (d : MakerbotDriver σ) (n : ℕ) : MakerbotDriver σ :=
  { d with
    queue := d.queue.drop n
    handed := d.handed ++ d.queue.take n }

theorem hand_zero (d : MakerbotDriver σ) : d.hand 0 = d := by simp [hand]

theorem hand_hand (d : MakerbotDriver σ) (m n : ℕ) : (d.hand m).hand n = d.hand (m + n) := by
  simp [hand, List.take_add]

theorem Talks.hand (h : Talks d d') (n : ℕ) : Talks (d.hand n) (d'.hand n) := by
  refine ⟨h.gcodeBuffer, h.isConnected, ?_, h.conversions, ?_, h.received, h.state⟩
  · simp only [MakerbotDriver.hand, h.queue]
  · simp only [MakerbotDriver.hand, h.queue, h.handed]

theorem Talks.of_hand_zero (h : Talks d d') : Talks (d.hand 0) d' := by rwa [hand_zero]

theorem sendCommands_hand {queue : List Text} (hq : d.queue = queue) (h : sendCommands queue d = .ok d') :
    ∃ n, Talks (d.hand n) d' := by
  induction queue generalizing d with
  | nil =>
    cases h
    exact ⟨0, (Talks.refl _).of_hand_zero⟩
  | cons command queue ih =>
    unfold sendCommands at h
    split_ifs at h
    · cases h
      exact ⟨0, (Talks.refl _).of_hand_zero⟩
    · obtain ⟨⟨r, d₁⟩, hd₁, h⟩ := bind_eq_ok.mp h
      have hone : d.hand 1 = { d with queue := queue, handed := d.handed ++ [command] } := by
        simp [MakerbotDriver.hand, hq]
      rw [← hone] at hd₁
      have htalks := sendPacket_talks hd₁
      have hq₁ : d₁.queue = queue := by rw [htalks.queue, hone]
      obtain ⟨n, hn⟩ := ih hq₁ h
      refine ⟨1 + n, ?_⟩
      rw [← hand_hand]
      exact (htalks.hand n).trans hn

theorem processQueue_cases (h : d.processQueue = .ok d') :
    (d.queue ≠ [] ∧ ∃ n, Talks (d.hand n) d') ∨
      (d.queue = [] ∧ ∃ space d₁, d.requestBufferSpace = .ok (space, d₁) ∧
        (space < printerBufferSize ∧ d' = d₁ ∨ printerBufferSize ≤ space ∧
          d' = { d₁ with state := .idle })) := by
  unfold processQueue at h
  split_ifs at h with hq
  · obtain ⟨⟨space, d₁⟩, hd₁, h⟩ := bind_eq_ok.mp h
    have htalks := requestBufferSpace_talks hd₁
    refine .inl ⟨hq, ?_⟩
    dsimp only at h
    split_ifs at h
    · obtain ⟨n, hn⟩ := sendCommands_hand rfl h
      exact ⟨n, (htalks.hand n).trans hn⟩
    · cases h
      exact ⟨0, htalks.of_hand_zero⟩
  · obtain ⟨⟨space, d₁⟩, hd₁, h⟩ := bind_eq_ok.mp h
    refine .inr ⟨not_not.mp hq, space, d₁, hd₁, ?_⟩
    dsimp only at h
    split_ifs at h with hspace
    · cases h
      exact .inl ⟨hspace, rfl⟩
    · cases h
      exact .inr ⟨not_lt.mp hspace, rfl⟩

def commandsOf (cvtBuf : Text) : List Text :=
  match (S3GParser.setBuffer {} cvtBuf).parseAll (cvtBuf.length + 1) with
  | .ok parser => parser.commands
  | .error _ => []

theorem convertGCode_cases {gcode : Text} (h : d.convertGCode gpx gcode = .ok d') :
    (gcode = [] ∧ d' = d) ∨ (gcode ≠ [] ∧ ∃ state cvtBuf, d' = { d with
      gpx := state
      conversions := d.conversions ++ [(gcode, cvtBuf)]
      queue := d.queue ++ commandsOf cvtBuf }) := by
  unfold convertGCode at h
  split_ifs at h with hg
  · cases h
    exact .inl ⟨hg, rfl⟩
  · obtain ⟨parser, hparser, h⟩ := bind_eq_ok.mp h
    cases h
    refine .inr ⟨hg, (gpx.convert d.gpx gcode).2, (gpx.convert d.gpx gcode).1, ?_⟩
    rw [commandsOf, hparser]

theorem eraseConverted_eq {amt : ℤ} (h : d.eraseConverted amt = .ok d') :
    ∃ n g line, d.gcodeBuffer.eraseLine amt.toNat = some (n, g) ∧
      d' = { d with gcodeBuffer := g.setCurrentLine line } := by
  obtain ⟨⟨n, g⟩, hg, h⟩ := bind_eq_ok.mp h
  cases h
  exact ⟨n, g, _, defined_eq_ok.mp hg, rfl⟩

/-- What the loop of `update` does. -/
inductive Refills (gpx : Gpx σ) : MakerbotDriver σ → MakerbotDriver σ → Prop
  | full {d : MakerbotDriver σ} : queueFillSize ≤ d.queue.length → Refills gpx d d
  | last {d d' : MakerbotDriver σ} : ¬ 0 < (d.gcodeBuffer.getNextLine gcodeCvtLines).1 →
      d.convertGCode gpx (d.gcodeBuffer.getNextLine gcodeCvtLines).2 = .ok d' → Refills gpx d d'
  | next {d d₁ d₂ d' : MakerbotDriver σ} : 0 < (d.gcodeBuffer.getNextLine gcodeCvtLines).1 →
      d.convertGCode gpx (d.gcodeBuffer.getNextLine gcodeCvtLines).2 = .ok d₁ →
      d₁.eraseConverted (d.gcodeBuffer.getNextLine gcodeCvtLines).1 = .ok d₂ → Refills gpx d₂ d' →
      Refills gpx d d'

theorem refill_refills {fuel : ℕ} (h : refill gpx fuel d = .ok d') : Refills gpx d d' := by
  induction fuel generalizing d with
  | zero => cases h
  | succ fuel ih =>
    unfold refill at h
    split_ifs at h with hlen
    · obtain ⟨d₁, hd₁, h⟩ := bind_eq_ok.mp h
      dsimp only at h
      split_ifs at h with hnext
      · obtain ⟨d₂, hd₂, h⟩ := bind_eq_ok.mp h
        exact .next hnext hd₁ hd₂ (ih h)
      · cases h
        exact .last hnext hd₁
    · cases h
      exact .full (not_lt.mp hlen)

/-- Erasing where there is a next line makes the buffer shorter, also in a state that no run reaches. -/
theorem eraseLine_lt {g g' : GCodeBuffer} {amount n : ℕ} {m : ℤ} (hnext : 0 < (g.getNextLine amount).1)
    (h : g.eraseLine n = some (m, g')) : g'.buckets.flatten.length < g.buckets.flatten.length := by
  unfold getNextLine at hnext
  unfold eraseLine at h
  cases hb : g.buckets with
  | nil =>
    rw [hb] at hnext
    cases hnext
  | cons b rest =>
    have hne : b ≠ [] := by
      rintro rfl
      rw [hb] at hnext
      simp [Lines.find] at hnext
    rw [hb] at h
    obtain ⟨⟨pos, counter⟩, -, h⟩ := Option.map_eq_some_iff.mp h
    cases h
    have hlen := List.length_pos_iff.mpr hne
    have hlt : (eraseThrough b pos).length < b.length := by
      unfold eraseThrough
      cases pos with
      | none => exact hlen
      | some i =>
        simp only [Lines.erase, List.take_zero, List.nil_append, List.length_drop]
        omega
    dsimp only
    split_ifs
    · simp only [List.flatten_cons, List.length_append]
      omega
    · simp only [List.flatten_cons, List.length_append]
      omega

theorem finishes_convertGCode (gcode : Text) : Finishes (d.convertGCode gpx gcode) := by
  unfold convertGCode
  split_ifs
  · exact finishes_ok _
  · refine Finishes.bind ?_ fun _ _ => finishes_ok _
    exact S3GParser.finishes_parseAll (Nat.lt_succ_of_le (Nat.sub_le ..))

theorem convertGCode_gcodeBuffer {gcode : Text} (h : d.convertGCode gpx gcode = .ok d') :
    d'.gcodeBuffer = d.gcodeBuffer := by
  rcases convertGCode_cases h with ⟨-, rfl⟩ | ⟨-, state, cvtBuf, rfl⟩ <;> rfl

theorem finishes_refill {fuel : ℕ} (hfuel : d.pending < fuel) : Finishes (refill gpx fuel d) := by
  induction fuel generalizing d with
  | zero => omega
  | succ fuel ih =>
    unfold refill
    split_ifs
    · refine (finishes_convertGCode _).bind fun d₁ hd₁ => ?_
      dsimp only
      split_ifs with hnext
      · refine Finishes.bind ?_ fun d₂ hd₂ => ih ?_
        · exact (finishes_defined _).bind fun _ _ => finishes_ok _
        · obtain ⟨n, g, line, hg, rfl⟩ := eraseConverted_eq hd₂
          rw [convertGCode_gcodeBuffer hd₁] at hg
          have hlt : g.buckets.flatten.length < d.pending := eraseLine_lt hnext hg
          exact lt_of_lt_of_le hlt (Nat.lt_succ_iff.mp hfuel)
      · exact finishes_ok _
    · exact finishes_ok _

theorem finishes_refillQueue (d : MakerbotDriver σ) : Finishes (d.refillQueue gpx) := by
  unfold refillQueue
  split_ifs
  · exact finishes_refill (Nat.lt_succ_self _)
  · exact finishes_ok _

theorem refillQueue_cases (h : d.refillQueue gpx = .ok d') :
    Refills gpx d d' ∨ ((d.isPrinting = true → queueMinSize ≤ d.queue.length) ∧ d' = d) := by
  unfold refillQueue at h
  split_ifs at h with hc
  · exact .inl (refill_refills h)
  · cases h
    exact .inr ⟨fun hp => not_lt.mp fun hlt => hc ⟨hp, hlt⟩, rfl⟩

theorem update_cases {rv : ℤ} (h : d.update gpx = .ok (rv, d')) :
    (d.isConnected = false ∧ d' = d) ∨ (d.isConnected = true ∧ ∃ d₁ d₂ d₃, d.refillQueue gpx = .ok d₁ ∧
      d₁.sendQueue = .ok d₂ ∧ d₂.queryPrinter = .ok d₃ ∧ d' = { d₃ with counter := d₃.counter + 1 }) := by
  unfold update at h
  split_ifs at h with hc
  · obtain ⟨d₁, h₁, h⟩ := bind_eq_ok.mp h
    obtain ⟨d₂, h₂, h⟩ := bind_eq_ok.mp h
    obtain ⟨d₃, h₃, h⟩ := bind_eq_ok.mp h
    cases h
    exact .inr ⟨hc, d₁, d₂, d₃, h₁, h₂, h₃, rfl⟩
  · cases h
    exact .inl ⟨by simpa using hc, rfl⟩

/-- Between two rounds of queries, the driver that does not print only counts. -/
theorem update_counts (hc : d.isConnected = true) (hp : d.isPrinting = false) (hcounter : d.counter ≠ 30) :
    d.update gpx = .ok (33, { d with counter := d.counter + 1 }) := by
  have hrefill : d.refillQueue gpx = .ok d := if_neg fun h => by simp [hp] at h
  have hsend : d.sendQueue = .ok d := if_neg (by simp [hp])
  have hquery : d.queryPrinter = .ok d := if_neg hcounter
  rw [update, if_neg (by simp [hc]), hrefill]
  change (d.sendQueue >>= _) = _
  rw [hsend]
  change (d.queryPrinter >>= _) = _
  rw [hquery]
  rfl

/-! ### Requests -/

theorem setGCode_cases {gcode : Text} {totalLines : ℤ} {metaData : Option MetaData} {r : GcodeSetResult}
    (h : d.setGCode gpx atof gcode totalLines metaData = .ok (r, d')) :
    ∃ g base, d.gcodeBuffer.set gcode totalLines metaData = some (r, g) ∧
      d.toAbstractDriver.Stored g base ∧ d' = { d with toAbstractDriver := base }.fullStop gpx := by
  obtain ⟨⟨gsr, base⟩, hbase, h⟩ := bind_eq_ok.mp h
  obtain ⟨g, hset, hstored⟩ := AbstractDriver.setGCode_stored (defined_eq_ok.mp hbase)
  cases h
  exact ⟨g, base, hset, hstored, rfl⟩

theorem appendGCode_cases {gcode : Text} {totalLines : ℤ} {metaData : Option MetaData} {r : GcodeSetResult}
    (h : d.appendGCode atof gcode totalLines metaData = .ok (r, d')) :
    ∃ g base, d.gcodeBuffer.append gcode totalLines metaData = some (r, g) ∧
      d.toAbstractDriver.Stored g base ∧ d' = { d with toAbstractDriver := base } := by
  obtain ⟨⟨gsr, base⟩, hbase, h⟩ := bind_eq_ok.mp h
  obtain ⟨g, happend, hstored⟩ := AbstractDriver.appendGCode_stored (defined_eq_ok.mp hbase)
  cases h
  exact ⟨g, base, happend, hstored, rfl⟩

theorem startPrint_offline (h : d.isPrinterOnline = false) (state : DriverState) :
    d.startPrint state = (false, d) := by
  rw [startPrint, AbstractDriver.startPrint_offline h]

theorem startPrint_online (h : d.isPrinterOnline = true) (state : DriverState) :
    ∃ g, (g = d.gcodeBuffer ∨ g = d.gcodeBuffer.setCurrentLine 0) ∧ d.startPrint state = (true, { d with
      state := state
      gcodeBuffer := g }) := by
  obtain ⟨g, hg, he⟩ := AbstractDriver.startPrint_online h state
  exact ⟨g, hg, by rw [startPrint, he]⟩

theorem stopPrint_cases {endcode : Text} {r : Bool} (h : d.stopPrint gpx atof endcode = .ok (r, d')) :
    ∃ r₁ r₂ d₁ d₂, (d.clearGCode gpx).setGCode gpx atof endcode = .ok (r₁, d₁) ∧
      d₁.resetPrint.setGCode gpx atof endcode = .ok (r₂, d₂) ∧ d₂.startPrint .stopping = (r, d') := by
  obtain ⟨⟨r₁, d₁⟩, h₁, h⟩ := bind_eq_ok.mp h
  obtain ⟨⟨r₂, d₂⟩, h₂, h⟩ := bind_eq_ok.mp h
  exact ⟨r₁, r₂, d₁, d₂, h₁, h₂, Except.ok.inj h⟩

end MakerbotDriver

/-! ### Events -/

/-- What happens to a driver: the calls of its server, with what arrives at the port before an
update, or while it runs. -/
inductive MakerbotEvent
  | openConnection (rv : ℤ) (ssrOk : Bool)
  | setGCode (gcode : Text) (totalLines : ℤ) (metaData : Option MetaData)
  | appendGCode (gcode : Text) (totalLines : ℤ) (metaData : Option MetaData)
  | clearGCode
  | startPrint
  | stopPrint (endcode : Text)
  | heatup (temperature : ℤ)
  | update (arrivals : List SerialRead)
  deriving DecidableEq

/-- The driver when more has arrived. -/
def MakerbotDriver.hear {σ : Type} (d : MakerbotDriver σ) (arrivals : List SerialRead) : MakerbotDriver σ :=
  { d with serial := { d.serial with reads := d.serial.reads ++ arrivals } }

theorem MakerbotDriver.hear_nil {σ : Type} (d : MakerbotDriver σ) : d.hear [] = d := by
  simp [MakerbotDriver.hear]

namespace MakerbotEvent

variable {σ : Type}

def exec (gpx : Gpx σ) (atof : Text → Int32) (d : MakerbotDriver σ) :
    MakerbotEvent → Except Halt (MakerbotDriver σ)
  | openConnection rv ssrOk => .ok { d with toAbstractDriver := (d.toAbstractDriver.openConnection rv ssrOk).2 }
  | setGCode gcode totalLines metaData => (d.setGCode gpx atof gcode totalLines metaData).map (·.2)
  | appendGCode gcode totalLines metaData => (d.appendGCode atof gcode totalLines metaData).map (·.2)
  | clearGCode => .ok (d.clearGCode gpx)
  | startPrint => .ok d.startPrint.2
  | stopPrint endcode => (d.stopPrint gpx atof endcode).map (·.2)
  | heatup temperature => .ok (d.heatup temperature)
  | update arrivals => ((d.hear arrivals).update gpx).map (·.2)

def Step (gpx : Gpx σ) (atof : Text → Int32) (d : MakerbotDriver σ) (e : MakerbotEvent)
    (d' : MakerbotDriver σ) : Prop :=
  e.exec gpx atof d = .ok d'

theorem Step.unique {gpx : Gpx σ} {atof : Text → Int32} {d d₁ d₂ : MakerbotDriver σ} {e : MakerbotEvent}
    (h₁ : Step gpx atof d e d₁) (h₂ : Step gpx atof d e d₂) : d₁ = d₂ := Except.ok.inj (h₁.symm.trans h₂)

/-- The clears, sets and stops. -/
def Flushes : MakerbotEvent → Prop
  | setGCode .. | clearGCode | stopPrint _ => True
  | _ => False

end MakerbotEvent
end Print3D
