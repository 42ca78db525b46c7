import Print3D.Drivers.Draining
import Print3D.Drivers.MakerbotRuns
import Print3D.Library.Pipeline

/-! The Makerbot driver as a pipeline: the lines of its buffer are converted in batches, and the
commands that come out are sent in order. -/
namespace Print3D
open Lines GCodeBuffer MakerbotDriver Effects Transition

/-! ### The buffer -/

namespace GCodeBuffer

variable {g g' : GCodeBuffer} {s : LineStore} {sent : List Text} {gcode : Text} {totalLines : ℤ}
  {metaData : Option MetaData} {r : GcodeSetResult}

theorem Tracks.keep_append (h : g.Tracks s sent) (ha : g.append gcode totalLines metaData = some (r, g')) :
    g'.keepGpxMacroComments = g.keepGpxMacroComments := by
  have hchunks : ∀ (cs : List Text) {g : GCodeBuffer} {s : LineStore} {sent : List Text}, g.Tracks s sent →
      (cs.foldl GCodeBuffer.appendChunk g).keepGpxMacroComments = g.keepGpxMacroComments := by
    intro cs
    induction cs with
    | nil => exact fun _ => rfl
    | cons c cs ih => exact fun h => (ih (h.appendChunk c)).trans (appendChunk_keepGpxMacroComments h.stores c)
  rcases append_cases ha with ⟨-, -, rfl⟩ | ⟨-, -, rfl⟩
  · rw [hchunks _ (h.housekeeping totalLines metaData), housekeeping_keepGpxMacroComments]
  · rfl

/-- The lines an `append` adds to the history are stored behind the others. -/
theorem Tracks.append_history (h : g.Tracks s sent) (ha : g.append gcode totalLines metaData = some (r, g')) :
    ∃ s' added, (BufferCall.append gcode totalLines metaData).history g sent = sent ++ added ∧
      g'.Tracks s' (sent ++ added) ∧ s'.lines = s.lines ++ added := by
  rcases append_cases ha with ⟨rfl, hacc, -⟩ | ⟨-, hacc, rfl⟩
  · obtain ⟨s', h', hl⟩ := h.append ha
    exact ⟨s', _, if_pos hacc, h', hl⟩
  · refine ⟨s, [], ?_, ?_, (List.append_nil _).symm⟩
    · rw [List.append_nil]
      exact if_neg hacc
    · rwa [List.append_nil]

theorem set_history (sent : List Text) (ha : g.set gcode totalLines metaData = some (r, g')) :
    ∃ s', g'.Tracks s' ((BufferCall.set gcode totalLines metaData).history g sent) ∧
      s'.lines = (BufferCall.set gcode totalLines metaData).history g sent ∧
      g'.keepGpxMacroComments = g.keepGpxMacroComments := by
  obtain ⟨s', added, hhistory, h', hl⟩ := (tracks_clear g).append_history ha
  rw [List.nil_append] at hhistory h'
  have hset : (BufferCall.set gcode totalLines metaData).history g sent = added := by
    rw [← hhistory]
    simp only [BufferCall.history, List.nil_append]
    rfl
  rw [hset]
  exact ⟨s', h', hl, (tracks_clear g).keep_append ha⟩

/-- A `set` depends on the buffer before it only through its treatment of comments. -/
theorem history_set_congr (hk : g'.keepGpxMacroComments = g.keepGpxMacroComments) (sent sent' : List Text) :
    (BufferCall.set gcode totalLines metaData).history g' sent' =
      (BufferCall.set gcode totalLines metaData).history g sent := by
  have hclear : g'.clear = g.clear := by rw [clear, hk, clear]
  unfold BufferCall.history
  rw [hclear, hk]

end GCodeBuffer

/-! ### The driver as a pipeline -/

/-- The text of a batch with the end of its last line. -/
def restoreEnd (gcode : Text) : Text := if gcode.getLast? = some newline then gcode else gcode ++ [newline]

/-- Whether or not a batch ends with a newline, its lines are the same. -/
theorem restoreEnd_eq {ls : List Text} {gcode : Text} (hls : ∀ l ∈ ls, IsLine newline l) (hne : ls ≠ [])
    (h : gcode = unlines newline ls ∨ gcode ++ [newline] = unlines newline ls) :
    restoreEnd gcode = unlines newline ls ∧ gcode ≠ [] := by
  rcases h with rfl | h
  · exact ⟨if_pos (getLast?_unlines hne), fun hnil => hne (unlines_eq_nil.mp hnil)⟩
  · obtain ⟨ms, l, rfl⟩ := (List.eq_nil_or_concat ls).resolve_left hne
    rw [List.concat_eq_append] at hls h ⊢
    obtain ⟨hl, hnot⟩ := hls l (by simp)
    have hg : gcode = unlines newline ms ++ l := by
      rw [unlines_append, unlines_cons, unlines_nil, ← List.append_assoc] at h
      exact List.append_cancel_right h
    have hlast : gcode.getLast? ≠ some newline := by
      rw [hg, List.getLast?_append_of_ne_nil _ hl]
      exact fun hc => hnot (List.mem_of_getLast? hc)
    exact ⟨by rw [restoreEnd, if_neg hlast, h], fun hnil => hl (List.append_eq_nil_iff.mp (hg ▸ hnil)).2⟩

/-- A conversion, as a batch of lines and the commands made of them. -/
structure Converts (conversion : Text × Text) (batch : List Text × List Text) : Prop where
  isLine : ∀ l ∈ batch.1, IsLine newline l
  text : restoreEnd conversion.1 = unlines newline batch.1
  commands : commandsOf conversion.2 = batch.2

/-- A driver and the lines handed to it since the last clear, set or stop. -/
structure Job (σ : Type) where
  driver : MakerbotDriver σ
  lines : List Text := []

namespace Job

variable {σ : Type} {gpx : Gpx σ} {atof : Text → Int32} {t t' : Job σ} {d d' : MakerbotDriver σ}
  {p : Pipeline Text Text} {lines : List Text} {e : MakerbotEvent}

def history (t : Job σ) : MakerbotEvent → List Text
  | .setGCode gcode totalLines metaData =>
      (BufferCall.set gcode totalLines metaData).history t.driver.gcodeBuffer t.lines
  | .appendGCode gcode totalLines metaData =>
    (BufferCall.append gcode totalLines metaData).history t.driver.gcodeBuffer t.lines
  | .clearGCode => []
  | .stopPrint endcode => (BufferCall.set endcode (-1) none).history t.driver.gcodeBuffer t.lines
  | _ => t.lines

def Step (gpx : Gpx σ) (atof : Text → Int32) (t : Job σ) (e : MakerbotEvent) (t' : Job σ) : Prop :=
  e.exec gpx atof t.driver = .ok t'.driver ∧ t'.lines = t.history e

/-- The driver works as the pipeline does. -/
structure Holds (t : Job σ) (p : Pipeline Text Text) : Prop where
  submitted : p.submitted = t.lines
  buffer : ∃ store, t.driver.gcodeBuffer.Tracks store t.lines ∧ store.lines = p.stored
  batches : List.Forall₂ Converts t.driver.conversions p.batches
  queue : p.queue = t.driver.queue
  sent : p.sent = t.driver.handed

theorem Holds.talks (h : Holds ⟨d, lines⟩ p) (ht : Talks d d') : Holds ⟨d', lines⟩ p where
  submitted := h.submitted
  buffer := by
    rw [ht.gcodeBuffer]
    exact h.buffer
  batches := by
    rw [ht.conversions]
    exact h.batches
  queue := h.queue.trans ht.queue.symm
  sent := h.sent.trans ht.handed.symm

theorem Holds.hand (h : Holds ⟨d, lines⟩ p) (n : ℕ) : Holds ⟨d.hand n, lines⟩ (p.send n) where
  submitted := h.submitted
  buffer := h.buffer
  batches := h.batches
  queue := congrArg (List.drop n) h.queue
  sent := congrArg₂ (· ++ ·) h.sent (congrArg (List.take n) h.queue)

theorem Holds.batch {d₁ d₂ : MakerbotDriver σ} (h : Holds ⟨d, lines⟩ p)
    (hnext : 0 < (d.gcodeBuffer.getNextLine gcodeCvtLines).1)
    (hconvert : d.convertGCode gpx (d.gcodeBuffer.getNextLine gcodeCvtLines).2 = .ok d₁)
    (herase : d₁.eraseConverted (d.gcodeBuffer.getNextLine gcodeCvtLines).1 = .ok d₂) :
    ∃ k ys, Holds ⟨d₂, lines⟩ (p.convert k ys) := by
  obtain ⟨store, htracks, hstored⟩ := h.buffer
  have hf := (getNextLine_pos htracks.stores gcodeCvtLines).mp hnext
  obtain ⟨g', hdelivers, h'⟩ := htracks.delivers hf (by decide : 1 ≤ gcodeCvtLines)
  set k := taken gcodeCvtLines store.front.length
  have hk : k ≤ store.front.length := min_le_right ..
  have htake : store.front.take k = p.stored.take k := by
    obtain ⟨r, hr⟩ := store.front_prefix
    rw [← hstored, ← hr, List.take_append_of_le_length hk]
  rw [htake] at hdelivers
  have hpos := hdelivers.pos
  have hlines : ∀ l ∈ p.stored.take k, IsLine newline l := fun l hl =>
    store.isLine_of_mem_lines (hstored ▸ List.mem_of_mem_take hl)
  obtain ⟨line, hline, htext⟩ := hdelivers.reads
  rw [hline] at hconvert herase
  obtain ⟨hrestore, hne⟩ := restoreEnd_eq hlines (List.ne_nil_of_length_pos hpos) htext
  rcases convertGCode_cases hconvert with ⟨hnil, -⟩ | ⟨-, state, cvtBuf, rfl⟩
  · exact absurd hnil hne
  · obtain ⟨n, g, cl, hg, rfl⟩ := eraseConverted_eq herase
    have hg' : g = g' := congrArg Prod.snd (Option.some.inj (hg.symm.trans hdelivers.erases))
    subst hg'
    refine ⟨k, commandsOf cvtBuf, h.submitted, ⟨_, h'.setCurrentLine cl, ?_⟩, ?_, ?_, h.sent⟩
    · rw [store.lines_erase hk, hstored]
      rfl
    · exact List.rel_append h.batches (.cons ⟨hlines, hrestore, rfl⟩ .nil)
    · exact congrArg (· ++ commandsOf cvtBuf) h.queue

theorem Holds.refills {d' : MakerbotDriver σ} (hr : Refills gpx d d') : ∀ {p : Pipeline Text Text},
    Holds ⟨d, lines⟩ p → ∃ p', Holds ⟨d', lines⟩ p' ∧ (queueFillSize ≤ d'.queue.length ∨ p'.stored = []) ∧
      d'.state = d.state ∧ d'.received = d.received ∧ d'.isConnected = d.isConnected := by
  induction hr with
  | full hlen => exact fun h => ⟨_, h, .inl hlen, rfl, rfl, rfl⟩
  | last hnext hconvert =>
    intro p h
    obtain ⟨store, htracks, hstored⟩ := h.buffer
    have hf := not_not.mp fun hf => hnext ((getNextLine_pos htracks.stores gcodeCvtLines).mpr hf)
    rw [getNextLine_of_nil htracks.stores hf] at hconvert
    rcases convertGCode_cases hconvert with ⟨-, rfl⟩ | ⟨hne, -⟩
    · exact ⟨p, h, .inr (hstored ▸ store.lines_eq_nil_of_front hf), rfl, rfl, rfl⟩
    · exact absurd rfl hne
  | next hnext hconvert herase _ ih =>
    intro p h
    obtain ⟨k, ys, h₂⟩ := h.batch hnext hconvert herase
    obtain ⟨p', h', hend, hs, hreceived, hc⟩ := ih h₂
    obtain ⟨n, g, cl, -, rfl⟩ := eraseConverted_eq herase
    rcases convertGCode_cases hconvert with ⟨-, rfl⟩ | ⟨-, state, cvtBuf, rfl⟩
    · exact ⟨p', h', hend, hs, hreceived, hc⟩
    · exact ⟨p', h', hend, hs, hreceived, hc⟩

theorem Holds.refillQueue (h : Holds ⟨d, lines⟩ p) (hr : d.refillQueue gpx = .ok d') :
    ∃ p', Holds ⟨d', lines⟩ p' ∧ d'.state = d.state ∧ d'.received = d.received ∧
      d'.isConnected = d.isConnected ∧ (d.isPrinting = true → d'.queue = [] → p'.stored = []) := by
  rcases refillQueue_cases hr with hr | ⟨hlen, rfl⟩
  · obtain ⟨p', h', hend, hs, hreceived, hc⟩ := Holds.refills hr h
    refine ⟨p', h', hs, hreceived, hc, fun _ hq => hend.resolve_left fun hlen => ?_⟩
    rw [hq] at hlen
    exact absurd hlen (by decide)
  · refine ⟨p, h, rfl, rfl, rfl, fun hp hq => ?_⟩
    have hmin := hlen hp
    rw [hq] at hmin
    exact absurd hmin (by decide)

theorem Holds.sendQueue (h : Holds ⟨d, lines⟩ p) (hs : d.sendQueue = .ok d') : ∃ p', Holds ⟨d', lines⟩ p' := by
  unfold MakerbotDriver.sendQueue at hs
  split_ifs at hs
  · rcases processQueue_cases hs with ⟨-, n, hn⟩ | ⟨-, space, d₁, hd₁, ⟨-, rfl⟩ | ⟨-, rfl⟩⟩
    · exact ⟨p.send n, (h.hand n).talks hn⟩
    · exact ⟨p, h.talks (requestBufferSpace_talks hd₁)⟩
    · have h₁ := h.talks (requestBufferSpace_talks hd₁)
      exact ⟨p, h₁.submitted, h₁.buffer, h₁.batches, h₁.queue, h₁.sent⟩
  · cases hs
    exact ⟨p, h⟩

theorem Holds.update (h : Holds ⟨d, lines⟩ p) {rv : ℤ} (hu : d.update gpx = .ok (rv, d')) :
    ∃ p', Holds ⟨d', lines⟩ p' := by
  rcases update_cases hu with ⟨-, rfl⟩ | ⟨-, d₁, d₂, d₃, h₁, h₂, h₃, rfl⟩
  · exact ⟨p, h⟩
  · obtain ⟨p₁, hp₁, -⟩ := h.refillQueue h₁
    obtain ⟨p₂, hp₂⟩ := hp₁.sendQueue h₂
    have hp₃ := hp₂.talks (queryPrinter_talks h₃)
    exact ⟨p₂, hp₃.submitted, hp₃.buffer, hp₃.batches, hp₃.queue, hp₃.sent⟩

theorem Holds.startPrint (h : Holds ⟨d, lines⟩ p) (state : DriverState) :
    Holds ⟨(d.startPrint state).2, lines⟩ p := by
  cases ho : d.isPrinterOnline with
  | false =>
    rw [startPrint_offline ho]
    exact h
  | true =>
    obtain ⟨g, hg, he⟩ := startPrint_online ho state
    obtain ⟨store, htracks, hstored⟩ := h.buffer
    rw [he]
    refine ⟨h.submitted, ⟨store, ?_, hstored⟩, h.batches, h.queue, h.sent⟩
    rcases hg with rfl | rfl
    · exact htracks
    · exact htracks.setCurrentLine 0

theorem holds_set (lines : List Text) {gcode : Text} {totalLines : ℤ} {metaData : Option MetaData}
    {r : GcodeSetResult} {ls : List Text} (h : d.setGCode gpx atof gcode totalLines metaData = .ok (r, d'))
    (hls : ls = (BufferCall.set gcode totalLines metaData).history d.gcodeBuffer lines) :
    Holds ⟨d', ls⟩ (.start ls) := by
  obtain ⟨g, base, hset, hstored, rfl⟩ := setGCode_cases h
  obtain ⟨s', h', hl, -⟩ := set_history lines hset
  rw [← hls] at h' hl
  refine ⟨rfl, ⟨s', ?_, hl⟩, .nil, rfl, rfl⟩
  have hbase := hstored.gcodeBuffer
  subst hbase
  exact h'

theorem Holds.append (h : Holds ⟨d, lines⟩ p) {gcode : Text} {totalLines : ℤ} {metaData : Option MetaData}
    {r : GcodeSetResult} (hd : d.appendGCode atof gcode totalLines metaData = .ok (r, d')) :
    ∃ p', Holds ⟨d', history ⟨d, lines⟩ (.appendGCode gcode totalLines metaData)⟩ p' := by
  obtain ⟨g, base, happend, hbase, rfl⟩ := appendGCode_cases hd
  obtain ⟨store, htracks, hstored⟩ := h.buffer
  obtain ⟨s', added, hhistory, h', hl⟩ := htracks.append_history happend
  have hbuffer := hbase.gcodeBuffer
  subst hbuffer
  refine ⟨p.submit added, ?_, ⟨s', ?_, ?_⟩, h.batches, h.queue, h.sent⟩
  · exact (congrArg (· ++ added) h.submitted).trans hhistory.symm
  · rw [history, hhistory]
    exact h'
  · rw [hl, hstored]
    rfl

theorem holds_clear (d : MakerbotDriver σ) : Holds ⟨d.clearGCode gpx, []⟩ (.start []) := by
  obtain ⟨-, hbuffer, -⟩ := AbstractDriver.clearGCode_cases d.toAbstractDriver
  refine ⟨rfl, ⟨.empty, ?_, rfl⟩, .nil, rfl, rfl⟩
  have hclear := tracks_clear d.gcodeBuffer
  rw [← hbuffer] at hclear
  exact hclear

theorem holds_stop (lines : List Text) {endcode : Text} {r : Bool}
    (h : d.stopPrint gpx atof endcode = .ok (r, d')) :
    ∃ p', Holds ⟨d', history ⟨d, lines⟩ (.stopPrint endcode)⟩ p' := by
  obtain ⟨r₁, r₂, d₁, d₂, h₁, h₂, h₃⟩ := stopPrint_cases h
  obtain ⟨g₁, base₁, hset₁, hstored₁, rfl⟩ := setGCode_cases h₁
  obtain ⟨-, -, -, hkeep⟩ := set_history lines hset₁
  have hset : history ⟨d, lines⟩ (.stopPrint endcode) =
      (BufferCall.set endcode (-1) none).history base₁.resetPrint.2.gcodeBuffer lines := by
    refine (history_set_congr ?_ lines lines).symm
    obtain ⟨-, hclear, -⟩ := AbstractDriver.clearGCode_cases d.toAbstractDriver
    calc base₁.resetPrint.2.gcodeBuffer.keepGpxMacroComments
      _ = g₁.keepGpxMacroComments := by rw [AbstractDriver.resetPrint_keep, hstored₁.gcodeBuffer]
      _ = d.toAbstractDriver.clearGCode.gcodeBuffer.keepGpxMacroComments := hkeep
      _ = d.gcodeBuffer.keepGpxMacroComments := by rw [hclear, clear]
  have hholds := (holds_set lines h₂ hset).startPrint .stopping
  rw [h₃] at hholds
  exact ⟨_, hholds⟩

theorem Holds.openConnection (h : Holds ⟨d, lines⟩ p) (rv : ℤ) (ssrOk : Bool) :
    Holds ⟨{ d with toAbstractDriver := (d.toAbstractDriver.openConnection rv ssrOk).2 }, lines⟩ p := by
  obtain ⟨store, htracks, hstored⟩ := h.buffer
  refine ⟨h.submitted, ⟨store, ?_, hstored⟩, h.batches, h.queue, h.sent⟩
  have hbuffer := AbstractDriver.openConnection_gcodeBuffer d.toAbstractDriver rv ssrOk
  dsimp only at hbuffer ⊢
  rw [hbuffer]
  exact htracks

theorem holds_step (h : ∃ p, Holds t p) (hstep : Step gpx atof t e t') : ∃ p, Holds t' p := by
  obtain ⟨d, lines⟩ := t
  obtain ⟨d', lines'⟩ := t'
  obtain ⟨p, hp⟩ := h
  obtain ⟨hexec, hlines⟩ := hstep
  have hlines' : lines' = history ⟨d, lines⟩ e := hlines
  subst hlines'
  cases e with
  | openConnection rv ssrOk =>
    cases hexec
    exact ⟨p, hp.openConnection rv ssrOk⟩
  | setGCode gcode totalLines metaData =>
    obtain ⟨⟨r, d₁⟩, hd₁, rfl⟩ := map_eq_ok.mp hexec
    exact ⟨_, holds_set lines hd₁ rfl⟩
  | appendGCode gcode totalLines metaData =>
    obtain ⟨⟨r, d₁⟩, hd₁, rfl⟩ := map_eq_ok.mp hexec
    exact hp.append hd₁
  | clearGCode =>
    cases hexec
    exact ⟨_, holds_clear d⟩
  | startPrint =>
    obtain rfl : d.startPrint.2 = d' := Except.ok.inj hexec
    exact ⟨p, hp.startPrint .printing⟩
  | stopPrint endcode =>
    obtain ⟨⟨r, d₃⟩, hd₃, rfl⟩ := map_eq_ok.mp hexec
    exact holds_stop lines hd₃
  | heatup temperature =>
    cases hexec
    exact ⟨p, hp⟩
  | update arrivals =>
    obtain ⟨⟨rv, d₁⟩, hd₁, rfl⟩ := map_eq_ok.mp hexec
    have hhear : Holds ⟨d.hear arrivals, lines⟩ p := ⟨hp.submitted, hp.buffer, hp.batches, hp.queue, hp.sent⟩
    exact hhear.update hd₁

theorem holds_run {state : σ} {es : List MakerbotEvent} (h : Run (Step gpx atof) ⟨init state, []⟩ es t) :
    ∃ p, Holds t p :=
  h.invariant (fun t => ∃ p, Holds t p) (fun _ _ _ => holds_step)
    ⟨.start [], rfl, ⟨.empty, ⟨rfl, List.suffix_refl _, i32_zero.symm, i32_zero.symm⟩, rfl⟩, .nil, rfl, rfl⟩

theorem converts_flatten {conversions : List (Text × Text)} {batches : List (List Text × List Text)}
    (h : List.Forall₂ Converts conversions batches) :
    (conversions.map fun c => restoreEnd c.1).flatten = unlines newline (batches.map (·.1)).flatten ∧
      (conversions.map fun c => commandsOf c.2).flatten = (batches.map (·.2)).flatten ∧
      ∀ l ∈ (batches.map (·.1)).flatten, IsLine newline l := by
  induction h with
  | nil => exact ⟨rfl, rfl, nofun⟩
  | cons hc _ ih =>
    obtain ⟨htext, hcommands, hline⟩ := ih
    simp only [List.map_cons, List.flatten_cons, unlines_append]
    refine ⟨by rw [hc.text, htext], by rw [hc.commands, hcommands], fun l hl => ?_⟩
    exact (List.mem_append.mp hl).elim (hc.isLine l) (hline l)

/-- The batches that have been converted are the first of the lines, each once and in order, and the
others are in the buffer; the commands handed over are the first of those that came out, and the others
are in the queue. -/
structure InOrder (t : Job σ) : Prop where
  isLine : ∀ l ∈ t.lines, IsLine newline l
  lines : ∃ k, (t.driver.conversions.map fun c => restoreEnd c.1).flatten = unlines newline (t.lines.take k) ∧
    t.driver.gcodeBuffer.buckets.flatten = unlines newline (t.lines.drop k)
  commands : t.driver.handed ++ t.driver.queue = (t.driver.conversions.map fun c => commandsOf c.2).flatten

theorem Holds.inOrder (h : Holds t p) : InOrder t := by
  obtain ⟨store, htracks, hstored⟩ := h.buffer
  obtain ⟨htext, hcommands, hline⟩ := converts_flatten h.batches
  have hlines : (p.batches.map (·.1)).flatten ++ p.stored = t.lines := p.items.trans h.submitted
  refine ⟨?_, ⟨(p.batches.map (·.1)).flatten.length, ?_, ?_⟩, ?_⟩
  · intro l hl
    rcases List.mem_append.mp (hlines ▸ hl) with hl | hl
    · exact hline l hl
    · exact store.isLine_of_mem_lines (hstored ▸ hl)
  · rw [htext, ← hlines, List.take_left]
  · rw [htracks.stores.flatten_buckets, hstored, ← hlines, List.drop_left]
  · rw [hcommands, ← p.products, h.sent, h.queue]

theorem flushed (he : e.Flushes) (hstep : Step gpx atof t e t') :
    t'.driver.queue = [] ∧ t'.driver.handed = [] ∧ t'.driver.conversions = [] := by
  obtain ⟨hexec, -⟩ := hstep
  cases e with
  | setGCode gcode totalLines metaData =>
    obtain ⟨⟨r, d₁⟩, hd₁, he⟩ := map_eq_ok.mp hexec
    obtain ⟨g, base, -, -, rfl⟩ := setGCode_cases hd₁
    rw [← he]
    exact ⟨rfl, rfl, rfl⟩
  | clearGCode =>
    obtain he := Except.ok.inj hexec
    rw [← he]
    exact ⟨rfl, rfl, rfl⟩
  | stopPrint endcode =>
    obtain ⟨⟨r, d₃⟩, hd₃, he⟩ := map_eq_ok.mp hexec
    obtain ⟨r₁, r₂, d₁, d₂, -, h₂, h₃⟩ := stopPrint_cases hd₃
    obtain ⟨g, base, -, -, rfl⟩ := setGCode_cases h₂
    have h₃' := congrArg Prod.snd h₃
    dsimp only at he h₃'
    rw [← he, ← h₃']
    exact ⟨rfl, rfl, rfl⟩
  | _ => cases he

/-- Updates without arrivals, before the next round of queries. -/
theorem run_wait (hc : d.isConnected = true) (hp : d.isPrinting = false) {n : ℕ} (hn : d.counter + n ≤ 30) :
    Run (Step gpx atof) ⟨d, lines⟩ (List.replicate n (.update []))
      ⟨{ d with counter := d.counter + n }, lines⟩ := by
  induction n generalizing d with
  | zero => exact .nil _
  | succ n ih =>
    have hstep : Step gpx atof ⟨d, lines⟩ (.update []) ⟨{ d with counter := d.counter + 1 }, lines⟩ := by
      refine ⟨?_, rfl⟩
      rw [MakerbotEvent.exec, hear_nil, update_counts hc hp (by omega)]
      rfl
    have hrest := @ih { d with counter := d.counter + 1 } hc hp (by dsimp only; omega)
    rw [List.replicate_succ]
    refine .cons hstep ?_
    rw [show d.counter + (n + 1) = d.counter + 1 + n by omega]
    exact hrest

/-- The frame of a response, for a read that comes after the packet has been written. -/
def response (payload : Text) : List SerialRead :=
  [.wouldBlock false, .data 0xD5 (UInt8.ofNat payload.length :: payload ++ [crcOf payload])]

/-- A conversion that makes one command of every text. -/
def stepperGpx : Gpx Unit := ⟨id, fun state _ => ([137, 31], state)⟩

/-- A driver with one line to print, after the queries of the first round. -/
def printing : MakerbotDriver Unit where
  state := .printing
  gcodeBuffer :=
    { buckets := [ascii "G1 X1\n"]
      bufferedLines := 1
      totalLinesSent := 1
      bufferSize := 6
      keepGpxMacroComments := true }
  isConnected := true
  validResponseReceived := true
  firmwareVersion := 7
  counter := 1
  serial := { written := [[0], [10, 0, 2], [10, 0, 30], [10, 0, 32], [10, 0, 33], [2]].map packet }
  gpx := ()
  received := [(0, [129, 7, 0]), (10, [129, 0, 0]), (10, [129, 0, 0]), (10, [129, 0, 0]), (10, [129, 0, 0]),
    (2, [129, 0, 2, 0, 0])]

theorem run_printing : ∃ es, Run (Step stepperGpx fun _ => 0) ⟨init (), []⟩ es ⟨printing, [ascii "G1 X1"]⟩ := by
  let d₁ : MakerbotDriver Unit := { init () with
    isConnected := true
    state := .connecting }
  let d₂ : MakerbotDriver Unit := { printing with
    state := .idle
    gcodeBuffer := { keepGpxMacroComments := true } }
  let arrivals := [[129, 7, 0], [129, 0, 0], [129, 0, 0], [129, 0, 0], [129, 0, 0],
    [129, 0, 2, 0, 0]].flatMap response
  have hopen : Step stepperGpx (fun _ => 0) ⟨init (), []⟩ (.openConnection 0 true) ⟨d₁, []⟩ := ⟨rfl, rfl⟩
  have hwait : Run (Step stepperGpx fun _ => 0) ⟨d₁, []⟩ (List.replicate 30 (.update []))
      ⟨{ d₁ with counter := 30 }, []⟩ := run_wait rfl rfl le_rfl
  have honline : Step stepperGpx (fun _ => 0) ⟨{ d₁ with counter := 30 }, []⟩ (.update arrivals) ⟨d₂, []⟩ :=
    ⟨by decide +kernel, rfl⟩
  have happend : Step stepperGpx (fun _ => 0) ⟨d₂, []⟩ (.appendGCode (ascii "G1 X1") (-1) none)
      ⟨{ printing with state := .buffering }, [ascii "G1 X1"]⟩ := ⟨by decide +kernel, by decide +kernel⟩
  have hstart : Step stepperGpx (fun _ => 0)
      ⟨{ printing with state := .buffering }, [ascii "G1 X1"]⟩ .startPrint ⟨printing, [ascii "G1 X1"]⟩ :=
    ⟨by decide +kernel, rfl⟩
  exact ⟨_, .cons hopen (hwait.append (.cons honline (.cons happend (.cons hstart (.nil _)))))⟩

def printed : MakerbotDriver Unit := { printing with
  gcodeBuffer :=
    { currentLine := 1
      totalLinesSent := 1
      keepGpxMacroComments := true }
  bufferSpace := 510
  counter := 2
  serial := { written := printing.serial.written ++ [packet [2], packet [137, 31]] }
  conversions := [(ascii "G1 X1\n", [137, 31])]
  handed := [[137, 31]]
  received := printing.received ++ [(2, [129, 0, 2, 0, 0]), (137, [129])] }

theorem run_printed : ∃ es, Run (Step stepperGpx fun _ => 0) ⟨init (), []⟩ es ⟨printed, [ascii "G1 X1"]⟩ := by
  obtain ⟨es, hrun⟩ := run_printing
  have hstep : Step stepperGpx (fun _ => 0) ⟨printing, [ascii "G1 X1"]⟩
      (.update (response [129, 0, 2, 0, 0] ++ response [129])) ⟨printed, [ascii "G1 X1"]⟩ :=
    ⟨by decide +kernel, rfl⟩
  exact ⟨_, hrun.append (.cons hstep (.nil _))⟩

/-- In every run the lines and the commands go through the driver in order, nothing made before a
clear, set or stop is left after it, and the loop of `update` ends in every state. -/
theorem pipeline_in_order {state : σ} {es : List MakerbotEvent}
    (h : Run (Step gpx atof) ⟨init state, []⟩ es t) :
    InOrder t ∧ (∀ e t', e.Flushes → Step gpx atof t e t' →
      t'.driver.queue = [] ∧ t'.driver.handed = [] ∧ t'.driver.conversions = []) ∧
      ∀ d : MakerbotDriver σ, Finishes (d.refillQueue gpx) := by
  obtain ⟨p, hp⟩ := holds_run h
  exact ⟨hp.inOrder, fun _ _ => flushed, finishes_refillQueue⟩

theorem pipeline_in_order_printed : InOrder ⟨printed, [ascii "G1 X1"]⟩ ∧
    (∀ e t', e.Flushes → Step stepperGpx (fun _ => 0) ⟨printed, [ascii "G1 X1"]⟩ e t' →
      t'.driver.queue = [] ∧ t'.driver.handed = [] ∧ t'.driver.conversions = []) ∧
      ∀ d : MakerbotDriver Unit, Finishes (d.refillQueue stepperGpx) := by
  obtain ⟨es, hrun⟩ := run_printed
  exact pipeline_in_order hrun

/-! ### The end of a print -/

/-- Everything the job consists of has been printed. -/
structure Done (t : Job σ) (d : MakerbotDriver σ) : Prop where
  queue : d.queue = []
  buffer : d.gcodeBuffer.buckets.flatten = [] ∧ d.gcodeBuffer.getBufferedLines = 0
  converted : (d.conversions.map fun c => restoreEnd c.1).flatten = unlines newline t.lines
  space : ∃ space d', d.requestBufferSpace = .ok (space, d') ∧ printerBufferSize ≤ space

/-- In every run, `processQueue` ends a print only when it is done. Here `d₁` is the driver for which
`update` calls it. -/
theorem idle_when_done {state : σ} {es : List MakerbotEvent} (h : Run (Step gpx atof) ⟨init state, []⟩ es t)
    {arrivals : List SerialRead} {d₁ d₂ : MakerbotDriver σ}
    (hrefill : (t.driver.hear arrivals).refillQueue gpx = .ok d₁)
    (hp : d₁.isPrinting = true) (hqueue : d₁.processQueue = .ok d₂) (hidle : d₂.state = .idle) : Done t d₁ := by
  obtain ⟨p, hp₀⟩ := holds_run h
  have hhear : Holds ⟨t.driver.hear arrivals, t.lines⟩ p :=
    ⟨hp₀.submitted, hp₀.buffer, hp₀.batches, hp₀.queue, hp₀.sent⟩
  obtain ⟨p₁, hp₁, hstate, -, -, hend⟩ := hhear.refillQueue hrefill
  have hprinting : (t.driver.hear arrivals).isPrinting = true :=
    (AbstractDriver.isPrinting_congr hstate).symm.trans hp
  have hkeeps : ∀ {d : MakerbotDriver σ}, d.state = d₁.state → d.state ≠ .idle := fun hs hidle => by
    rw [← AbstractDriver.isPrinting_congr hs, AbstractDriver.isPrinting_of_idle hidle] at hp
    cases hp
  rcases processQueue_cases hqueue with ⟨-, n, hn⟩ | ⟨hq, space, d₃, hd₃, ⟨-, rfl⟩ | ⟨hspace, -⟩⟩
  · exact absurd hidle (hkeeps (hn.state_online (AbstractDriver.isPrinterOnline_of_isPrinting hp)))
  · have htalks := requestBufferSpace_talks hd₃
    exact absurd hidle (hkeeps (htalks.state_online (AbstractDriver.isPrinterOnline_of_isPrinting hp)))
  · have hstored := hend hprinting hq
    obtain ⟨store, htracks, hlines⟩ := hp₁.buffer
    rw [hstored] at hlines
    refine ⟨hq, ⟨?_, ?_⟩, ?_, space, d₃, hd₃, hspace⟩
    · rw [htracks.stores.flatten_buckets, hlines]
      rfl
    · rw [GCodeBuffer.getBufferedLines, htracks.buffered, hlines]
      exact i32_zero
    · rw [(converts_flatten hp₁.batches).1, p₁.converted_eq_submitted hstored, hp₁.submitted]

theorem idle_when_done_printed :
    Done ⟨printed, [ascii "G1 X1"]⟩ (printed.hear (response [129, 0, 2, 0, 0])) := by
  obtain ⟨es, hrun⟩ := run_printed
  let d₂ : MakerbotDriver Unit := { printed with
    state := .idle
    bufferSpace := 512
    serial := { written := printed.serial.written ++ [packet [2]] }
    received := printed.received ++ [(2, [129, 0, 2, 0, 0])] }
  have hrefill : (printed.hear (response [129, 0, 2, 0, 0])).refillQueue stepperGpx =
      .ok (printed.hear (response [129, 0, 2, 0, 0])) := by decide +kernel
  have hqueue : (printed.hear (response [129, 0, 2, 0, 0])).processQueue = .ok d₂ := by decide +kernel
  exact idle_when_done hrun hrefill (by decide) hqueue rfl

end Job
end Print3D
