import Print3D.Drivers.MarlinRuns

/-! Where the bytes that a Marlin driver writes come from. -/
namespace Print3D
open Lines Transition

namespace GCodeBuffer

variable {g g' : GCodeBuffer} {P Q : Text → Prop} {gcode : Text} {totalLines : ℤ} {metaData : Option MetaData}
  {r : GcodeSetResult}

/-- The stored lines all have a property; macro comments are not kept. -/
structure StoresOnly (P : Text → Prop) (g : GCodeBuffer) : Prop where
  stores : ∃ s, g.Stores s ∧ ∀ l ∈ s.lines, P l
  keep : g.keepGpxMacroComments = false

theorem StoresOnly.mono (h : g.StoresOnly P) (hPQ : ∀ l, P l → Q l) : g.StoresOnly Q := by
  obtain ⟨s, hs, hlines⟩ := h.stores
  exact ⟨⟨s, hs, fun l hl => hPQ l (hlines l hl)⟩, h.keep⟩

theorem StoresOnly.clear (h : g.StoresOnly P) : g.clear.StoresOnly P :=
  ⟨⟨.empty, stores_clear g, fun _ hl => by cases hl⟩, h.keep⟩

theorem StoresOnly.appendChunk (h : g.StoresOnly P) {chunk : Text} (hchunk : ∀ l ∈ normLines false chunk, P l) :
    (g.appendChunk chunk).StoresOnly P := by
  obtain ⟨s, hs, hlines⟩ := h.stores
  rw [appendChunk_eq hs]
  refine ⟨⟨_, rfl, fun l hl => ?_⟩, h.keep⟩
  rw [LineStore.lines_put, h.keep] at hl
  rcases List.mem_append.mp hl with hl | hl
  · exact hlines l hl
  · exact hchunk l hl

theorem StoresOnly.foldl_appendChunk (cs : List Text) (h : g.StoresOnly P)
    (hcs : ∀ c ∈ cs, ∀ l ∈ normLines false c, P l) : (cs.foldl GCodeBuffer.appendChunk g).StoresOnly P := by
  induction cs generalizing g with
  | nil => exact h
  | cons c cs ih =>
    exact ih (h.appendChunk (hcs c (List.mem_cons_self ..))) fun c' hc' => hcs c' (List.mem_cons_of_mem _ hc')

theorem StoresOnly.append (h : g.StoresOnly P) (ha : g.append gcode totalLines metaData = some (r, g'))
    (hgcode : ∀ l ∈ normLines false gcode, P l) : g'.StoresOnly P := by
  rcases append_cases ha with ⟨-, -, rfl⟩ | ⟨-, -, rfl⟩
  · refine StoresOnly.foldl_appendChunk _ ⟨?_, ?_⟩ fun c hc l hl => hgcode l ?_
    · obtain ⟨s, hs, hlines⟩ := h.stores
      exact ⟨s, (housekeeping_buckets ..).trans hs, hlines⟩
    · rw [housekeeping_keepGpxMacroComments, h.keep]
    · have hall := normLines_flatten false (chunked_chunks gcode)
      rw [flatten_chunks] at hall
      rw [hall]
      exact List.mem_flatten.mpr ⟨_, List.mem_map_of_mem hc, hl⟩
  · exact h

theorem front_eq_nil_iff {s : LineStore} : s.front = [] ↔ s.buckets = [] ∨ s.buckets = [[]] := by
  obtain ⟨buckets, hline, hne⟩ := s
  cases buckets with
  | nil => simp [LineStore.front]
  | cons ls rest =>
    cases rest with
    | nil => simp [LineStore.front]
    | cons ls' rest =>
      have hls : ls ≠ [] := hne ls (List.mem_cons_self ..)
      simp [LineStore.front, hls]

theorem StoresOnly.eraseLine {n : ℤ} (h : g.StoresOnly P) (he : g.eraseLine = some (n, g')) :
    g'.StoresOnly P := by
  have hframe := eraseLine_frame he
  have hkeep : g'.keepGpxMacroComments = false := by
    rw [hframe]
    exact h.keep
  obtain ⟨s, hs, hlines⟩ := h.stores
  by_cases hf : s.front = []
  · -- there is no line, and at most an empty bucket is taken away
    refine ⟨⟨.empty, ?_, fun _ hl => by cases hl⟩, hkeep⟩
    rcases front_eq_nil_iff.mp hf with hb | hb
    · rw [Stores, hb] at hs
      rw [GCodeBuffer.eraseLine, hs] at he
      cases he
      exact hs
    · rw [Stores, hb] at hs
      rw [GCodeBuffer.eraseLine, hs] at he
      cases he
      rfl
  · rw [eraseLine_eq hs hf] at he
    cases he
    refine ⟨⟨s.erase _, rfl, fun l hl => ?_⟩, hkeep⟩
    have htaken : taken 1 s.front.length ≤ s.front.length := min_le_right ..
    rw [s.lines_erase htaken] at hl
    exact hlines l (List.mem_of_mem_drop hl)

theorem StoresOnly.getNextLine (h : g.StoresOnly P) (hnext : 0 < g.getNextLine.1) : P g.getNextLine.2 := by
  obtain ⟨s, hs, hlines⟩ := h.stores
  have hf := (getNextLine_pos hs 1).mp hnext
  cases hl : s.lines with
  | nil =>
    have hprefix := s.front_prefix
    rw [hl, List.prefix_nil] at hprefix
    exact absurd hprefix hf
  | cons l ls =>
    rw [getNextLine_one hs hl]
    exact hlines l (hl ▸ List.mem_cons_self ..)

theorem StoresOnly.setCurrentLine (h : g.StoresOnly P) (line : ℤ) : (g.setCurrentLine line).StoresOnly P :=
  ⟨h.stores, h.keep⟩

end GCodeBuffer

namespace MarlinDriver
open GCodeBuffer

variable {atof : Text → Int32} {d d' : MarlinDriver} {P Q : Text → Prop} {gcode : Text}

/-- The stored lines have the property `P`, and what is written has the property `Q`. -/
structure Keeps (P Q : Text → Prop) (d : MarlinDriver) : Prop where
  stored : d.gcodeBuffer.StoresOnly P
  written : ∀ w ∈ d.written, Q w

theorem Keeps.sendCode {code : Text} (h : Keeps P Q d) (hcode : Q (wire code))
    (hd : sendCode atof d code = some d') : Keeps P Q d' := by
  by_cases hc : d.isConnected = true
  · obtain ⟨t, b, rfl⟩ := sendCode_eq hc hd
    refine ⟨h.stored, fun w hw => ?_⟩
    rcases List.mem_append.mp hw with hw | hw
    · exact h.written w hw
    · rw [List.mem_singleton.mp hw]
      exact hcode
  · rw [MarlinDriver.sendCode, if_neg hc] at hd
    cases hd
    exact h

theorem Keeps.resetPrint (h : Keeps P Q d) : Keeps P Q d.resetPrint := by
  refine ⟨?_, h.written⟩
  unfold MarlinDriver.resetPrint AbstractDriver.resetPrint
  split_ifs
  · exact h.stored.setCurrentLine 0
  · exact h.stored

theorem Keeps.printNextLine (hPQ : ∀ l, P l → Q (wire l)) (h : Keeps P Q d)
    (hd : printNextLine atof d = some d') : Keeps P Q d' := by
  unfold MarlinDriver.printNextLine at hd
  dsimp only at hd
  split_ifs at hd with hnext
  · obtain ⟨d₁, hsend, hd⟩ := Option.bind_eq_some_iff.mp hd
    have hd₁ := h.sendCode (hPQ _ (h.stored.getNextLine hnext)) hsend
    cases hd
    exact ⟨hd₁.stored.setCurrentLine _, hd₁.written⟩
  · cases hd
    exact h.resetPrint

theorem Keeps.gcodeStored {base : AbstractDriver} {r r' : GcodeSetResult} {g : GCodeBuffer} (h : Keeps P Q d)
    (hg : g.StoresOnly P)
    (hbase : AbstractDriver.gcodeStored atof d.toAbstractDriver gcode (r, g) = some (r', base)) :
    Keeps P Q { d with toAbstractDriver := base } := by
  obtain ⟨-, t, b, state, rfl, -⟩ := AbstractDriver.gcodeStored_eq hbase
  exact ⟨hg, h.written⟩

theorem Keeps.setGCode {totalLines : ℤ} {metaData : Option MetaData} {r : GcodeSetResult} (h : Keeps P Q d)
    (hgcode : ∀ l ∈ normLines false gcode, P l)
    (hd : setGCode atof d gcode totalLines metaData = some (r, d')) :
    Keeps P Q d' := by
  obtain ⟨⟨gsr, base⟩, hbase, hd⟩ := Option.bind_eq_some_iff.mp hd
  obtain ⟨⟨gsr', g⟩, ha, hbase⟩ := Option.bind_eq_some_iff.mp hbase
  cases hd
  exact h.gcodeStored (h.stored.clear.append ha hgcode) hbase

theorem Keeps.appendGCode {totalLines : ℤ} {metaData : Option MetaData} {r : GcodeSetResult} (h : Keeps P Q d)
    (hgcode : ∀ l ∈ normLines false gcode, P l)
    (hd : appendGCode atof d gcode totalLines metaData = some (r, d')) : Keeps P Q d' := by
  obtain ⟨⟨gsr, base⟩, hbase, hd⟩ := Option.bind_eq_some_iff.mp hd
  obtain ⟨⟨gsr', g⟩, ha, hbase⟩ := Option.bind_eq_some_iff.mp hbase
  cases hd
  exact h.gcodeStored (h.stored.append ha hgcode) hbase

theorem Keeps.clearGCode (h : Keeps P Q d) : Keeps P Q d.clearGCode := by
  refine ⟨?_, h.written⟩
  obtain ⟨-, hbuffer, -⟩ := AbstractDriver.clearGCode_cases d.toAbstractDriver
  change d.toAbstractDriver.clearGCode.gcodeBuffer.StoresOnly P
  rw [hbuffer]
  exact h.stored.clear

theorem Keeps.startPrint {state : DriverState} {r : Bool} (hPQ : ∀ l, P l → Q (wire l)) (h : Keeps P Q d)
    (hd : startPrint atof d state = some (r, d')) : Keeps P Q d' := by
  cases ho : d.isPrinterOnline with
  | false =>
    rw [MarlinDriver.startPrint, AbstractDriver.startPrint_offline ho] at hd
    cases hd
    exact h
  | true =>
    obtain ⟨g, hg, he⟩ := AbstractDriver.startPrint_online ho state
    rw [MarlinDriver.startPrint, he] at hd
    obtain ⟨d₁, hd₁, he⟩ := Option.map_eq_some_iff.mp hd
    cases he
    have hstored : g.StoresOnly P := by
      rcases hg with rfl | rfl
      · exact h.stored
      · exact h.stored.setCurrentLine 0
    have hstarted : Keeps P Q { d with
        state := state
        gcodeBuffer := g } := ⟨hstored, h.written⟩
    exact hstarted.printNextLine hPQ hd₁

theorem Keeps.stopPrint {endcode : Text} {r : Bool} (hPQ : ∀ l, P l → Q (wire l)) (h : Keeps P Q d)
    (hendcode : ∀ l ∈ normLines false endcode, P l) (hd : stopPrint atof d endcode = some (r, d')) :
    Keeps P Q d' := by
  obtain ⟨⟨gsr, d₁⟩, hset, hd⟩ := Option.bind_eq_some_iff.mp hd
  exact (h.resetPrint.setGCode hendcode hset).startPrint hPQ hd

theorem Keeps.readResponseCode {code : Text} (hPQ : ∀ l, P l → Q (wire l)) (h : Keeps P Q d)
    (hd : readResponseCode atof d code = some d') : Keeps P Q d' := by
  unfold MarlinDriver.readResponseCode at hd
  split_ifs at hd
  · obtain ⟨d₁, hd₁, hd⟩ := Option.bind_eq_some_iff.mp hd
    obtain ⟨heating, t, tt, b, bt, rfl⟩ := parseTemperatures_eq hd₁
    cases hd
    dsimp only
    split_ifs <;> exact ⟨h.stored, h.written⟩
  · obtain ⟨⟨n, g⟩, he, hd⟩ := Option.bind_eq_some_iff.mp hd
    have herased : Keeps P Q { d with gcodeBuffer := g } := ⟨h.stored.eraseLine he, h.written⟩
    exact herased.printNextLine hPQ hd
  · cases hd
    exact h
  · cases hd
    exact h
  · have hback : Keeps P Q { d with
        gcodeBuffer := d.gcodeBuffer.setCurrentLine (i32 (d.gcodeBuffer.getCurrentLine - 1)) } :=
      ⟨h.stored.setCurrentLine _, h.written⟩
    exact hback.printNextLine hPQ hd
  · cases hd
    exact h

end MarlinDriver

/-! ### Runs -/

namespace MarlinEvent
open MarlinDriver GCodeBuffer

variable {atof : Text → Int32} {d d' : MarlinDriver} {e : MarlinEvent} {es es' : List MarlinEvent} {w : Text}

/-- The text that an event puts into the buffer. -/
def gcode? : MarlinEvent → Option Text
  | setGCode gcode _ _ => some gcode
  | other (.appendGCode gcode _ _) => some gcode
  | other (.stopPrint endcode) => some endcode
  | _ => none

/-- A line of a text that has been put into the buffer, as the cleanup leaves it. -/
def Submitted (es : List MarlinEvent) (l : Text) : Prop :=
  ∃ e ∈ es, ∃ gcode, e.gcode? = some gcode ∧ l ∈ normLines false gcode

/-- What a write can be: a query of the temperature, a temperature that has been asked for, or a line that
has been submitted. -/
inductive Origin (es : List MarlinEvent) : Text → Prop
  | query : .checkTemperature ∈ es → Origin es (wire (ascii "M105"))
  | heatup {temperature : ℤ} : .heatup temperature ∈ es →
      Origin es (wire (ascii ("M104 S" ++ toString temperature)))
  | line {l : Text} : Submitted es l → Origin es (wire l)

theorem Submitted.mono (h : es ⊆ es') {l : Text} (hl : Submitted es l) : Submitted es' l := by
  obtain ⟨e, he, hgcode⟩ := hl
  exact ⟨e, h he, hgcode⟩

theorem Origin.mono (h : es ⊆ es') (hw : Origin es w) : Origin es' w := by
  cases hw with
  | query he => exact .query (h he)
  | heatup he => exact .heatup (h he)
  | line hl => exact .line (hl.mono h)

theorem keeps_step (hstep : Step atof d e d') (he : e ∈ es) (h : Keeps (Submitted es) (Origin es) d) :
    Keeps (Submitted es) (Origin es) d' := by
  have hline : ∀ l, Submitted es l → Origin es (wire l) := fun _ => .line
  have hgcode : ∀ {gcode}, e.gcode? = some gcode → ∀ l ∈ normLines false gcode, Submitted es l :=
    fun hgcode l hl => ⟨e, he, _, hgcode, hl⟩
  cases e with
  | openConnection rv ssrOk =>
    cases hstep
    refine ⟨?_, h.written⟩
    change (d.toAbstractDriver.openConnection rv ssrOk).2.gcodeBuffer.StoresOnly _
    rw [AbstractDriver.openConnection_gcodeBuffer]
    exact h.stored
  | setGCode gcode totalLines metaData =>
    obtain ⟨⟨r, d₁⟩, hset, rfl⟩ := Option.map_eq_some_iff.mp hstep
    exact h.setGCode (hgcode rfl) hset
  | heatup temperature => exact h.sendCode (.heatup he) hstep
  | checkTemperature => exact h.sendCode (.query he) hstep
  | other e =>
    cases e with
    | appendGCode gcode totalLines metaData =>
      obtain ⟨⟨r, d₁⟩, happend, rfl⟩ := Option.map_eq_some_iff.mp hstep
      exact h.appendGCode (hgcode rfl) happend
    | clearGCode =>
      cases hstep
      exact h.clearGCode
    | startPrint =>
      obtain ⟨⟨r, d₁⟩, hstart, rfl⟩ := Option.map_eq_some_iff.mp hstep
      exact h.startPrint hline hstart
    | stopPrint endcode =>
      obtain ⟨⟨r, d₁⟩, hstop, rfl⟩ := Option.map_eq_some_iff.mp hstep
      exact h.stopPrint hline (hgcode rfl) hstop
    | response code => exact h.readResponseCode hline hstep

theorem keeps_of_run (h : Run (Step atof) {} es d) : Keeps (Submitted es) (Origin es) d := by
  refine h.invariant_history (fun es d => Keeps (Submitted es) (Origin es) d)
    (fun es d e d' hd hstep => ?_) ⟨⟨⟨.empty, rfl, fun _ hl => by cases hl⟩, rfl⟩, fun _ hw => by cases hw⟩
  have hsub : es ⊆ es ++ [e] := List.subset_append_left ..
  refine keeps_step hstep (List.mem_append_right _ (List.mem_singleton.mpr rfl)) ?_
  exact ⟨hd.stored.mono fun _ => Submitted.mono hsub, fun w hw => (hd.written w hw).mono hsub⟩

/-- Whatever the order of events, also where the printer asks for lines again without a print or gcode is
replaced in the middle of one: nothing is written that no request has asked for. -/
theorem written_origins (h : Run (Step atof) {} es d) : ∀ w ∈ d.written, Origin es w :=
  (keeps_of_run h).written

def oneLine : List MarlinEvent :=
  [.openConnection 0 true, .checkTemperature, .other (.response (ascii "ok T:0")),
  .other (.appendGCode (ascii "G1 X1 ; move") (-1) none), .other .startPrint]

theorem written_origins_oneLine : ∃ d : MarlinDriver,
    d.written = [wire (ascii "M105"), wire (ascii "G1 X1 ")] ∧ ∀ w ∈ d.written, Origin oneLine w := by
  have hcomputed : (oneLine.foldlM (MarlinEvent.exec fun _ => 0) {}).map (·.written) =
      some [wire (ascii "M105"), wire (ascii "G1 X1 ")] := by
    decide +kernel
  obtain ⟨d, hd, hwritten⟩ := Option.map_eq_some_iff.mp hcomputed
  exact ⟨d, hwritten, written_origins (run_of_foldlM hd)⟩

end MarlinEvent
end Print3D
