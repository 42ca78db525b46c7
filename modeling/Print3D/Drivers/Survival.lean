import Print3D.Drivers.Checks
import Print3D.Drivers.Completion
import Print3D.Drivers.HeatInfo

/-! Where a driver for Marlin can fail: in the gcode that it is given, and nowhere else. -/
namespace Print3D
open Lines Transition

/-- Gcode that can be read as a whole, and line by line when it is sent. -/
structure Printable (gcode : Text) : Prop where
  whole : ParametersFit gcode
  lines : ∀ l ∈ normLines false gcode, ParametersFit l

/-- It is enough to look at the ends of the text that start with a heat command. -/
theorem parametersFit_iff_tails (gcode : Text) : ParametersFit gcode ↔
    ∀ c ∈ heatCommands, ∀ s ∈ gcode.tails, c <+: s → c.length + 2 ≤ s.length := by
  unfold ParametersFit
  refine forall₂_congr fun c _ => ⟨fun h s hs hprefix => ?_, fun h t ht => ?_⟩
  · obtain ⟨t, rfl⟩ := hprefix
    have ht := h t ((List.mem_tails ..).mp hs)
    rw [List.length_append]
    omega
  · have hlen := h (c ++ t) ((List.mem_tails ..).mpr ht) (List.prefix_append c t)
    rw [List.length_append] at hlen
    omega

instance (gcode : Text) : Decidable (ParametersFit gcode) := decidable_of_iff' _ (parametersFit_iff_tails gcode)

namespace MarlinDriver

variable {atof : Text → Int32} {d d' : MarlinDriver} {code : Text} {p : ℕ}

theorem numberAt_heatCommand (atof : Text → Int32) (h : ParametersFit code) {c : Text} (hc : c ∈ heatCommands) :
    ∃ t, AbstractDriver.numberAt atof code ((rfindText c code).map (· + 6)) = some t := by
  by_cases hin : c <:+: code
  · obtain ⟨a, b, hlast⟩ := Occurrences.exists_isLast hin
    have hb : 2 ≤ b.length := h c hc b ⟨a, hlast.1.symm⟩
    exact ⟨_, (numberAt_of_isLast atof (length_of_mem_heatCommands hc) hlast).trans (if_pos hb)⟩
  · exact ⟨none, numberAt_of_not_isInfix atof hin⟩

theorem not_unreadable (h : ParametersFit code) : ¬ MarlinEvent.Unreadable atof code := by
  rintro ⟨base, hnone⟩
  obtain ⟨t, ht⟩ := numberAt_heatCommand atof h (List.mem_cons_self ..)
  obtain ⟨bt, hbt⟩ := numberAt_heatCommand atof h (List.mem_cons_of_mem _ (List.mem_cons_self ..))
  rw [AbstractDriver.extractGCodeInfo, ht, hbt] at hnone
  cases hnone

/-! ### The commands of the driver -/

/-- A command with one letter of which no heat command has more. -/
theorem parametersFit_of_head {c : UInt8} {t : Text} (hc : c ∉ t)
    (hheat : ∀ h ∈ heatCommands, h.head? = some c ∧ ¬ h <+: c :: t) : ParametersFit (c :: t) := by
  intro h hmem r hsuffix
  obtain ⟨hhead, hprefix⟩ := hheat h hmem
  exfalso
  rcases List.suffix_cons_iff.mp hsuffix with heq | htail
  · exact hprefix ⟨r, heq⟩
  · obtain ⟨h', rfl⟩ : ∃ h', h = c :: h' := by
      cases h with
      | nil => cases hhead
      | cons x h' =>
        cases hhead
        exact ⟨h', rfl⟩
    exact hc (htail.subset (List.mem_cons_self ..))

theorem isDigit_or_minus_of_mem (n : ℤ) : ∀ c ∈ (toString n).toList, c.isDigit = true ∨ c = '-' := by
  have hdigits : ∀ (m : ℕ), ∀ c ∈ m.repr.toList, c.isDigit = true := by
    intro m c hc
    rw [Nat.repr_eq_ofList_toDigits, String.toList_ofList] at hc
    exact Nat.isDigit_of_mem_toDigits (by decide) (by decide) hc
  intro c hc
  rw [Int.toString_eq_repr, Int.repr_eq_if] at hc
  split_ifs at hc
  · exact .inl (hdigits _ c hc)
  · rw [String.toList_append, List.mem_append] at hc
    rcases hc with hc | hc
    · exact .inr (List.mem_singleton.mp hc)
    · exact .inl (hdigits _ c hc)

theorem parametersFit_heatup (temperature : ℤ) : ParametersFit (ascii ("M104 S" ++ toString temperature)) := by
  have hcode : ascii ("M104 S" ++ toString temperature) =
      77 :: (ascii "104 S" ++ ascii (toString temperature)) := by
    simp [ascii]
  rw [hcode]
  refine parametersFit_of_head (fun hmem => ?_) ?_
  · rcases List.mem_append.mp hmem with hmem | hmem
    · revert hmem
      decide
    · obtain ⟨c, hc, he⟩ := List.mem_map.mp hmem
      rcases isDigit_or_minus_of_mem temperature c hc with hdigit | rfl
      · obtain ⟨-, hle⟩ := Char.isDigit_iff_toNat.mp hdigit
        have hnine : '9'.toNat = 57 := rfl
        have hbyte := congrArg UInt8.toNat he
        rw [Nat.toUInt8_eq, UInt8.toNat_ofNat', Nat.mod_eq_of_lt (by omega)] at hbyte
        have hletter : UInt8.toNat 77 = 77 := rfl
        omega
      · revert he
        decide
  · simp [heatCommands, ascii]

theorem parametersFit_query : ParametersFit (ascii "M105") := by
  refine parametersFit_of_head (c := 77) ?_ ?_
  · decide
  · decide

/-! ### The reports of the printer -/

theorem le_of_findText {pattern : Text} (h : findText pattern 0 code = some p) :
    p + pattern.length ≤ code.length := by
  have hfound := List.find?_some h
  have hrange := List.mem_of_find?_eq_some h
  simp only [zero_le, true_and, decide_eq_true_eq] at hfound
  rw [List.mem_range] at hrange
  have hle := hfound.length_le
  rw [List.length_drop] at hle
  omega

theorem lt_of_find {c : UInt8} {start : ℕ} (h : find c start code = some p) : p < code.length := by
  obtain ⟨-, r, hr⟩ := drop_find h
  by_contra hge
  rw [List.drop_eq_nil_of_le (not_lt.mp hge)] at hr
  cases hr

theorem findNumber_isSome (h : p ≤ code.length) : (AbstractDriver.findNumber atof code p).isSome := by
  unfold AbstractDriver.findNumber
  rw [if_neg (not_lt.mpr h)]
  rfl

theorem numberAt_isSome {pos : Option ℕ} (h : ∀ p, pos = some p → p ≤ code.length) :
    (AbstractDriver.numberAt atof code pos).isSome := by
  cases pos with
  | none => rfl
  | some p =>
    unfold AbstractDriver.numberAt
    rw [Option.isSome_map]
    exact findNumber_isSome (h p rfl)

theorem bind_isSome {α β : Type} {x : Option α} {f : α → Option β} (hx : x.isSome) (hf : ∀ a, (f a).isSome) :
    (x.bind f).isSome := by
  obtain ⟨a, rfl⟩ := Option.isSome_iff_exists.mp hx
  exact hf a

theorem parseTemperatures_isSome (atof : Text → Int32) (d : MarlinDriver) (hne : code ≠ []) :
    (d.parseTemperatures atof code).isSome := by
  have hlen := List.length_pos_iff.mpr hne
  have hslash : ∀ {pos : Option ℕ} {p : ℕ}, (pos.bind fun p => find 47 p code).map (· + 1) = some p →
      p ≤ code.length := by
    intro pos p hp
    obtain ⟨q, hq, rfl⟩ := Option.map_eq_some_iff.mp hp
    obtain ⟨start, -, hq⟩ := Option.bind_eq_some_iff.mp hq
    exact lt_of_find hq
  unfold parseTemperatures
  refine bind_isSome (findNumber_isSome ?_) fun temperature => bind_isSome (numberAt_isSome fun p => hslash)
    fun target => bind_isSome (numberAt_isSome fun p hp => ?_) fun bed =>
      bind_isSome (numberAt_isSome fun p => hslash) fun bedTarget => rfl
  · cases hT : findText (ascii "T:") 0 code with
    | none => exact hlen
    | some p => exact le_of_findText hT
  · obtain ⟨q, hq, rfl⟩ := Option.map_eq_some_iff.mp hp
    exact le_of_findText hq

/-! ### Responses -/

theorem eraseLine_isSome (g : GCodeBuffer) : g.eraseLine.isSome := by
  unfold GCodeBuffer.eraseLine
  cases g.buckets <;> rfl

/-- A line that is read fails only at a stored line that is sent for it. -/
theorem unreadable_of_readResponseCode {P : Text → Prop} (hs : d.gcodeBuffer.StoresOnly P)
    (h : d.readResponseCode atof code = none) : ∃ l, P l ∧ MarlinEvent.Unreadable atof l := by
  have hnext : ∀ {d : MarlinDriver}, d.gcodeBuffer.StoresOnly P → printNextLine atof d = none →
      ∃ l, P l ∧ MarlinEvent.Unreadable atof l := by
    intro d hd hnone
    obtain ⟨s, hs, hlines⟩ := hd.stores
    obtain ⟨l, hl, hread⟩ := MarlinEvent.unreadable_of_printNextLine hs hnone
    exact ⟨l, hlines l hl, hread⟩
  unfold readResponseCode at h
  split_ifs at h with htemp
  · have hne : code ≠ [] := by
      rintro rfl
      revert htemp
      decide
    obtain ⟨d₁, hd₁⟩ := Option.isSome_iff_exists.mp (parseTemperatures_isSome atof d hne)
    rw [hd₁] at h
    cases h
  · obtain ⟨⟨n, g⟩, hg⟩ := Option.isSome_iff_exists.mp (eraseLine_isSome d.gcodeBuffer)
    rw [hg] at h
    exact hnext (d := { d with gcodeBuffer := g }) (hs.eraseLine hg) h
  · exact hnext (d := { d with
      gcodeBuffer := d.gcodeBuffer.setCurrentLine (i32 (d.gcodeBuffer.getCurrentLine - 1)) })
      (hs.setCurrentLine _) h

end MarlinDriver

/-! ### Metadata -/

namespace MarlinEvent
open MarlinDriver

variable {atof : Text → Int32} {d d' : MarlinDriver} {e : MarlinEvent} {before es : List MarlinEvent}

instance (m : MetaData) : Decidable m.IsBlank := by
  unfold MetaData.IsBlank
  infer_instance

/-- Whether a number, a total or a source can have been recorded since the buffer was cleared. -/
def numbered (b : Bool) : MarlinEvent → Bool
  | setGCode _ _ metaData => metaData.any fun m => ¬ m.IsBlank
  | other (.appendGCode _ _ metaData) => b || metaData.any fun m => ¬ m.IsBlank
  | other .clearGCode | other (.stopPrint _) => false
  | _ => b

theorem isBlank_append {g g' : GCodeBuffer} {gcode : Text} {totalLines : ℤ} {metaData : Option MetaData}
    {r : GcodeSetResult} (h : g.append gcode totalLines metaData = some (r, g')) (hg : g.md.IsBlank)
    (hm : (metaData.any fun m => ¬ m.IsBlank) = false) : g'.md.IsBlank := by
  rw [GCodeBuffer.append_md h]
  split_ifs with hacc
  · cases metaData with
    | none => exact hg
    | some m =>
      have hblank : m.IsBlank := by simpa using hm
      exact (MetaData.isBlank_record (GCodeBuffer.follows_of_sanity hacc.1)).mpr ⟨hg, hblank⟩
  · exact hg

theorem KeepsStored.md (h : KeepsStored d d') : d'.gcodeBuffer.md = d.gcodeBuffer.md := by
  obtain ⟨line, hline⟩ := h
  rw [hline]

theorem keepsStored_startPrint {state : DriverState} {r : Bool} (h : d.startPrint atof state = some (r, d')) :
    KeepsStored d d' := by
  cases ho : d.isPrinterOnline with
  | false =>
    rw [MarlinDriver.startPrint, AbstractDriver.startPrint_offline ho] at h
    cases h
    exact .of_eq rfl
  | true =>
    obtain ⟨g, hg, he⟩ := AbstractDriver.startPrint_online ho state
    rw [MarlinDriver.startPrint, he] at h
    obtain ⟨d₁, hd₁, hd⟩ := Option.map_eq_some_iff.mp h
    cases hd
    refine KeepsStored.trans ?_ (keepsStored_printNextLine hd₁)
    rcases hg with rfl | rfl
    · exact .of_eq rfl
    · exact ⟨_, rfl⟩

theorem md_readResponseCode {code : Text} (h : d.readResponseCode atof code = some d') :
    d'.gcodeBuffer.md = d.gcodeBuffer.md := by
  unfold readResponseCode at h
  split_ifs at h
  · obtain ⟨d₁, hd₁, h⟩ := Option.bind_eq_some_iff.mp h
    obtain ⟨heating, t, tt, b, bt, rfl⟩ := parseTemperatures_eq hd₁
    cases h
    dsimp only
    split_ifs <;> rfl
  · obtain ⟨⟨n, g⟩, hg, h⟩ := Option.bind_eq_some_iff.mp h
    exact (keepsStored_printNextLine h).md.trans (GCodeBuffer.eraseLine_md hg)
  · cases h
    rfl
  · cases h
    rfl
  · exact (keepsStored_printNextLine h).md
  · cases h
    rfl

theorem isBlank_step {b : Bool} (h : Step atof d e d') (hd : b = false → d.gcodeBuffer.md.IsBlank)
    (hb : numbered b e = false) : d'.gcodeBuffer.md.IsBlank := by
  cases e with
  | openConnection rv ssrOk =>
    cases h
    have hkept : (d.toAbstractDriver.openConnection rv ssrOk).2.gcodeBuffer = d.gcodeBuffer :=
      AbstractDriver.openConnection_gcodeBuffer ..
    change (d.toAbstractDriver.openConnection rv ssrOk).2.gcodeBuffer.md.IsBlank
    rw [hkept]
    exact hd hb
  | heatup temperature =>
    rw [(sendCode_keeps h).1]
    exact hd hb
  | checkTemperature =>
    rw [(sendCode_keeps h).1]
    exact hd hb
  | setGCode gcode totalLines metaData =>
    obtain ⟨⟨r, d₁⟩, hset, rfl⟩ := Option.map_eq_some_iff.mp h
    obtain ⟨⟨r', base⟩, hbase, hset⟩ := Option.bind_eq_some_iff.mp hset
    cases hset
    obtain ⟨g, hg, hstored⟩ := AbstractDriver.setGCode_stored hbase
    exact hstored.gcodeBuffer ▸ isBlank_append hg MetaData.isBlank_default hb
  | other e =>
    cases e with
    | appendGCode gcode totalLines metaData =>
      obtain ⟨hold, hnew⟩ := Bool.or_eq_false_iff.mp hb
      obtain ⟨⟨r, d₁⟩, happend, rfl⟩ := Option.map_eq_some_iff.mp h
      obtain ⟨⟨r', base⟩, hbase, happend⟩ := Option.bind_eq_some_iff.mp happend
      cases happend
      obtain ⟨g, hg, hstored⟩ := AbstractDriver.appendGCode_stored hbase
      exact hstored.gcodeBuffer ▸ isBlank_append hg (hd hold) hnew
    | clearGCode =>
      cases h
      have hbuffer : d.clearGCode.gcodeBuffer = d.gcodeBuffer.clear :=
        (AbstractDriver.clearGCode_cases d.toAbstractDriver).2.1
      rw [hbuffer]
      exact MetaData.isBlank_default
    | startPrint =>
      obtain ⟨⟨r, d₁⟩, hstart, rfl⟩ := Option.map_eq_some_iff.mp h
      rw [(keepsStored_startPrint hstart).md]
      exact hd hb
    | stopPrint endcode =>
      obtain ⟨⟨r, d₁⟩, hstop, rfl⟩ := Option.map_eq_some_iff.mp h
      obtain ⟨⟨gsr, d₂⟩, hset, hstart⟩ := Option.bind_eq_some_iff.mp hstop
      obtain ⟨⟨gsr', base⟩, hbase, hset⟩ := Option.bind_eq_some_iff.mp hset
      cases hset
      obtain ⟨g, hg, hstored⟩ := AbstractDriver.setGCode_stored hbase
      have hblank : g.md.IsBlank := isBlank_append hg MetaData.isBlank_default rfl
      rw [(keepsStored_startPrint hstart).md]
      exact hstored.gcodeBuffer ▸ hblank
    | response code =>
      rw [md_readResponseCode h]
      exact hd hb

theorem isBlank_run (h : Run (Step atof) {} before d) (hb : before.foldl numbered false = false) :
    d.gcodeBuffer.md.IsBlank := by
  refine h.invariant_history (fun es d => es.foldl numbered false = false → d.gcodeBuffer.md.IsBlank)
    (fun es d e d' ih hstep hnumbered => ?_) (fun _ => MetaData.isBlank_default) hb
  rw [List.foldl_append] at hnumbered
  exact isBlank_step hstep ih hnumbered

/-! ### Runs -/

/-- An event that a driver with this history survives: its gcode can be printed, and it gives metadata if there
is some already. -/
structure Safe (before : List MarlinEvent) (e : MarlinEvent) : Prop where
  printable : ∀ gcode, e.gcode? = some gcode → Printable gcode
  metaData : ∀ gcode totalLines, e = other (.appendGCode gcode totalLines none) →
    before.foldl numbered false = false

def AllPrintable (es : List MarlinEvent) : Prop := ∀ e ∈ es, ∀ gcode, e.gcode? = some gcode → Printable gcode

theorem exec_isSome (h : Run (Step atof) {} before d) (hbefore : AllPrintable before)
    (he : ∀ gcode, e.gcode? = some gcode → Printable gcode)
    (hmetaData : ∀ gcode totalLines, e = other (.appendGCode gcode totalLines none) →
      d.gcodeBuffer.md.IsBlank) :
    (e.exec atof d).isSome := by
  have hstored : d.gcodeBuffer.StoresOnly ParametersFit := (keeps_of_run h).stored.mono fun l hl => by
    obtain ⟨e, he, gcode, hgcode, hl⟩ := hl
    exact (hbefore e he gcode hgcode).lines l hl
  obtain ⟨⟨s, hs, hlines⟩, hkeep⟩ := hstored
  by_contra hnone
  rw [Bool.not_eq_true, Option.isSome_eq_false_iff, Option.isNone_iff_eq_none] at hnone
  cases e with
  | openConnection rv ssrOk => cases hnone
  | setGCode gcode totalLines metaData =>
    have hset := Option.map_eq_none_iff.mp (Option.map_eq_bind.trans (Option.map_eq_none_iff.mp hnone))
    exact not_unreadable (he gcode rfl).whole (unreadable_of_stored (fun _ => rfl) hset)
  | heatup temperature =>
    exact not_unreadable (parametersFit_heatup temperature) (unreadable_of_sendCode hnone)
  | checkTemperature => exact not_unreadable parametersFit_query (unreadable_of_sendCode hnone)
  | other e =>
    cases e with
    | appendGCode gcode totalLines metaData =>
      have happend := Option.map_eq_none_iff.mp hnone
      refine not_unreadable (he gcode rfl).whole (unreadable_of_appendGCode (fun hm => ?_) happend)
      subst hm
      exact GCodeBuffer.sanity_none_eq_ok.mpr (hmetaData gcode totalLines rfl)
    | clearGCode => cases hnone
    | startPrint =>
      obtain ⟨l, hl, hread⟩ := unreadable_of_startPrint hs (Option.map_eq_none_iff.mp hnone)
      exact not_unreadable (hlines l hl) hread
    | stopPrint endcode =>
      obtain ⟨l, hl, hread⟩ := unreadable_of_stopPrint (Option.map_eq_none_iff.mp hnone)
      have hend := he endcode rfl
      rcases List.mem_cons.mp hl with rfl | hl
      · exact not_unreadable hend.whole hread
      · unfold accepted at hl
        rw [show d.gcodeBuffer.clear.keepGpxMacroComments = false from hkeep] at hl
        split_ifs at hl
        · exact not_unreadable (hend.lines l hl) hread
        · cases hl
    | response code =>
      obtain ⟨l, hl, hread⟩ := unreadable_of_readResponseCode ⟨⟨s, hs, hlines⟩, hkeep⟩ hnone
      exact not_unreadable hl hread

/-- Whatever clients and printer do, in whatever order: a driver gets to the end if the gcode that
it is given can be printed, and if gcode with metadata is followed by such gcode only, up to the
next clear. -/
theorem driver_survives (hes : ∀ pre e post, es = pre ++ e :: post → Safe pre e) :
    ∃ d, Run (Step atof) {} es d := by
  refine exists_run_of_progress (P := Safe) (fun before d e hd hbefore he => ?_) hes
  refine Option.isSome_iff_exists.mp (exec_isSome hd (fun e' he' => ?_) he.printable fun gcode totalLines heq =>
    isBlank_run hd (he.metaData gcode totalLines heq))
  obtain ⟨pre, post, rfl⟩ := List.append_of_mem he'
  exact (hbefore pre e' post rfl).printable

def heated : List MarlinEvent := [.openConnection 0 true, .other (.response (ascii "ok T:0")),
  .other (.appendGCode (ascii "M109 S200\nG1") (-1) (some {})), .other .startPrint,
  .other (.response (ascii "ok"))]

theorem driver_survives_heated : ∃ d, Run (Step fun _ => 0) {} heated d := by
  have hprintable : Printable (ascii "M109 S200\nG1") := ⟨by decide, by decide⟩
  refine driver_survives fun pre e post h => ?_
  have he : e ∈ heated := by
    rw [h]
    exact List.mem_append_right _ (List.mem_cons_self ..)
  simp only [heated, List.mem_cons, List.not_mem_nil, or_false] at he
  rcases he with rfl | rfl | rfl | rfl | rfl
  · exact ⟨fun _ h => (by cases h), fun _ _ h => (by cases h)⟩
  · exact ⟨fun _ h => (by cases h), fun _ _ h => (by cases h)⟩
  · refine ⟨fun gcode h => ?_, fun _ _ h => (by cases h)⟩
    cases h
    exact hprintable
  · exact ⟨fun _ h => (by cases h), fun _ _ h => (by cases h)⟩
  · exact ⟨fun _ h => (by cases h), fun _ _ h => (by cases h)⟩

end MarlinEvent
end Print3D
