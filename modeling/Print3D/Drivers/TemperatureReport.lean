import Print3D.Drivers.MarlinDriver
import Print3D.Drivers.HeatInfo

/-! The answers in which a printer reports its temperatures, and what the driver takes from them. -/
namespace Print3D
open Lines Occurrences

def slash : UInt8 := 47

/-- A report: whether it confirms a line, the temperature and the target of the hotend, those of the
bed, and what else is in the line. -/
structure Report where
  ok : Bool
  hotend : Decimal.Number
  target : Option Decimal.Number
  bed : Option (Decimal.Number × Option Decimal.Number)
  rest : Text
  slash_notMem : slash ∉ rest
  bed_not_isInfix : ¬ ascii "B:" <:+: rest
  endsDigits : Decimal.EndsDigits rest

namespace Report

variable (r : Report)

def targetText (target : Option Decimal.Number) : Text := target.elim [] fun n => ascii " /" ++ n.text

def bedText (bed : Option (Decimal.Number × Option Decimal.Number)) : Text :=
  bed.elim [] fun b => ascii " B:" ++ (b.1.text ++ targetText b.2)

def start : Text := if r.ok then ascii "ok " else []

def line : Text :=
  r.start ++ (ascii "T:" ++ (r.hotend.text ++ (targetText r.target ++ (bedText r.bed ++ r.rest))))

def bedTarget : Option Decimal.Number := r.bed.bind (·.2)

def numbers : List Decimal.Number :=
  r.hotend :: (r.target.toList ++ ((r.bed.map (·.1)).toList ++ r.bedTarget.toList))

/-- The driver with the temperatures of the report; those it does not give stay. -/
def applied (d : MarlinDriver) : MarlinDriver :=
  { d with
    heating := !r.ok
    temperature := u16 r.hotend.trunc
    targetTemperature := (r.target.map (u16 ·.trunc)).getD d.targetTemperature
    bedTemperature := (r.bed.map (u16 ·.1.trunc)).getD d.bedTemperature
    targetBedTemperature := (r.bedTarget.map (u16 ·.trunc)).getD d.targetBedTemperature }

/-- At a place of the line there is the text of a number, or no place for one. -/
def Reads (code : Text) (pos : Option ℕ) (o : Option Decimal.Number) (v : Option Text) : Prop :=
  v.map Decimal.integerPart = o.map (·.trunc) ∧
    ∀ atof, AbstractDriver.numberAt atof code pos = some (v.map fun v => (atof v).toInt)

theorem reads_text (a : Text) (n : Decimal.Number) {t : Text} (ht : Decimal.EndsDigits t) :
    ∃ v, Reads (a ++ (n.text ++ t)) (some a.length) (some n) (some v) := by
  refine ⟨cString (numeral (n.text ++ t)), ?_, fun atof => ?_⟩
  · rw [Option.map_some, integerPart_numeral n ht, Option.map_some]
  · rw [AbstractDriver.numberAt, findNumber_append]
    rfl

theorem reads_none (code : Text) : Reads code none none none := ⟨rfl, fun _ => rfl⟩

theorem endsDigits_targetText {s : Text} (o : Option Decimal.Number) (h : Decimal.EndsDigits s) :
    Decimal.EndsDigits (targetText o ++ s) := by
  cases o with
  | none => exact h
  | some n => exact Decimal.endsDigits_cons.mpr (by decide)

theorem endsDigits_bedText {s : Text} (o : Option (Decimal.Number × Option Decimal.Number))
    (h : Decimal.EndsDigits s) : Decimal.EndsDigits (bedText o ++ s) := by
  cases o with
  | none => exact h
  | some n => exact Decimal.endsDigits_cons.mpr (by decide)

/-- The first slash behind `a` stands in front of the first target there. -/
theorem reads_slash (a : Text) {u s : Text} (o : Option Decimal.Number) (hu : slash ∉ u)
    (ho : o = none → slash ∉ s) (hs : Decimal.EndsDigits s) {code : Text}
    (hcode : code = a ++ (u ++ (targetText o ++ s))) :
    ∃ v, Reads code ((find slash a.length code).map (· + 1)) o v := by
  rw [hcode, find_append]
  cases o with
  | none =>
    have hnone : find slash 0 (u ++ (targetText none ++ s)) = none := by
      rw [find_eq_none]
      simp [targetText, hu, ho rfl]
    rw [hnone]
    exact ⟨none, reads_none _⟩
  | some n =>
    have hsplit : u ++ (targetText (some n) ++ s) = (u ++ [blank]) ++ slash :: (n.text ++ s) := by
      simp [targetText, ascii, blank, slash]
    have hne : slash ≠ blank := by decide
    have hblank : slash ∉ u ++ [blank] := by simp [hu, hne]
    have hcut : a ++ ((u ++ [blank]) ++ slash :: (n.text ++ s)) =
        (a ++ (u ++ [blank] ++ [slash])) ++ (n.text ++ s) := by simp
    have hlen : a.length + (u ++ [blank]).length + 1 = (a ++ (u ++ [blank] ++ [slash])).length := by
      simp only [List.length_append, List.length_singleton]
      omega
    obtain ⟨v, hv⟩ := reads_text (a ++ (u ++ [blank] ++ [slash])) n hs
    rw [hsplit, find_append_cons hblank, hcut]
    dsimp only [Option.map_some]
    rw [hlen]
    exact ⟨some v, hv⟩

private theorem slash_notMem_text (n : Decimal.Number) : slash ∉ n.text :=
  n.notMem_text rfl

/-- The byte 66 is the `B` of the bed. -/
private theorem bed_notMem_text (n : Decimal.Number) : 66 ∉ n.text :=
  n.notMem_text rfl

private theorem bed_notMem_targetText (o : Option Decimal.Number) : 66 ∉ targetText o := by
  cases o with
  | none => exact List.not_mem_nil
  | some n =>
    have hword : (66 : UInt8) ∉ ascii " /" := by decide
    simp [targetText, hword, bed_notMem_text n]

/-- The first target in the line, wherever it stands. -/
private theorem reads_target :
    ∃ v, Reads r.line ((find slash r.start.length r.line).map (· + 1)) (r.target.or r.bedTarget) v := by
  have hhotend : slash ∉ ascii "T:" ++ r.hotend.text := by
    have hword : slash ∉ ascii "T:" := by decide
    simp [hword, slash_notMem_text r.hotend]
  cases ht : r.target with
  | some n =>
    apply reads_slash r.start (some n) hhotend (by simp) (endsDigits_bedText r.bed r.endsDigits)
    rw [line, ht, List.append_assoc]
  | none =>
    cases hb : r.bed with
    | none =>
      rw [bedTarget, hb]
      apply reads_slash r.start none hhotend (fun _ => r.slash_notMem) r.endsDigits
      rw [line, ht, hb]
      simp [targetText, bedText]
    | some b =>
      rw [bedTarget, hb]
      have hword : slash ∉ ascii " B:" := by decide
      have hbed : slash ∉ ascii "T:" ++ r.hotend.text ++ (ascii " B:" ++ b.1.text) := by
        simp [hhotend, hword, slash_notMem_text b.1, -List.append_assoc]
      apply reads_slash r.start b.2 hbed (fun _ => r.slash_notMem) r.endsDigits
      rw [line, ht, hb]
      simp [targetText, bedText]

private theorem reads_hotend : findText (ascii "T:") 0 r.line = some r.start.length ∧
    ∃ v, Reads r.line (some (r.start.length + 2)) (some r.hotend) (some v) := by
  constructor
  · have hT : (84 : UInt8) ∉ r.start := by
      unfold start
      split_ifs <;> decide
    exact firstFrom_append_cons hT
  · have hends := endsDigits_targetText r.target (endsDigits_bedText r.bed r.endsDigits)
    have hlen : r.start.length + 2 = (r.start ++ ascii "T:").length := by
      simp [ascii]
    rw [hlen, line, ← List.append_assoc]
    exact reads_text _ _ hends

/-- What the line says in front of the bed. -/
def front : Text := r.start ++ (ascii "T:" ++ (r.hotend.text ++ targetText r.target))

private theorem bed_notMem_front : 66 ∉ r.front := by
  have hstart : (66 : UInt8) ∉ r.start := by
    unfold start
    split_ifs <;> decide
  have hword : (66 : UInt8) ∉ ascii "T:" := by decide
  simp [front, hstart, hword, bed_notMem_text, bed_notMem_targetText]

private theorem findText_bed_none (hb : r.bed = none) : findText (ascii "B:") 0 r.line = none := by
  have hline : r.line = r.front ++ r.rest := by
    rw [line, hb, front]
    simp [bedText]
  apply firstFrom_eq_none.mpr
  intro hin
  rw [hline] at hin
  exact r.bed_not_isInfix ((isInfix_append_of_notMem r.bed_notMem_front).mp hin)

private theorem reads_bed {b : Decimal.Number × Option Decimal.Number} (hb : r.bed = some b) :
    ∃ p v vt, findText (ascii "B:") 0 r.line = some p ∧
      Reads r.line (some (p + 2)) (some b.1) (some v) ∧
      Reads r.line ((find slash p r.line).map (· + 1)) b.2 vt := by
  have hline : r.line = (r.front ++ [blank]) ++ (ascii "B:" ++ (b.1.text ++ (targetText b.2 ++ r.rest))) := by
    rw [line, hb, front]
    simp [bedText, ascii, blank]
  have hblank : (66 : UInt8) ≠ blank := by decide
  have hfound : findText (ascii "B:") 0 r.line = some (r.front ++ [blank]).length := by
    rw [hline]
    have hnot : (66 : UInt8) ∉ r.front ++ [blank] := by simp [r.bed_notMem_front, hblank]
    exact firstFrom_append_cons hnot
  obtain ⟨v, hv⟩ := reads_text (r.front ++ [blank] ++ ascii "B:") b.1 (endsDigits_targetText b.2 r.endsDigits)
  have hword : slash ∉ ascii "B:" := by decide
  have hbed : slash ∉ ascii "B:" ++ b.1.text := by simp [hword, slash_notMem_text]
  obtain ⟨vt, hvt⟩ := reads_slash (r.front ++ [blank]) b.2 hbed (fun _ => r.slash_notMem) r.endsDigits
    (hline.trans (by rw [List.append_assoc (ascii "B:")]))
  refine ⟨_, v, vt, hfound, ?_, hvt⟩
  have hlen : (r.front ++ [blank]).length + 2 = (r.front ++ [blank] ++ ascii "B:").length := by
    simp [ascii]
  rw [hlen, hline, ← List.append_assoc _ (ascii "B:")]
  exact hv

/-- The driver with what is read at the places of the four numbers. -/
private def readFrom (atof : Text → Int32) (a : Text) (t b bt : Option Text) (d : MarlinDriver) :
    MarlinDriver :=
  { d with
    heating := !r.ok
    temperature := u16 (atof a).toInt
    targetTemperature := (t.map fun v => u16 (atof v).toInt).getD d.targetTemperature
    bedTemperature := (b.map fun v => u16 (atof v).toInt).getD d.bedTemperature
    targetBedTemperature := (bt.map fun v => u16 (atof v).toInt).getD d.targetBedTemperature }

/-- The texts at the places of the numbers: for the target of the hotend, the first of the two. -/
private structure Places (a : Text) (t b bt : Option Text) : Prop where
  hotend : Decimal.integerPart a = r.hotend.trunc
  target : t.map Decimal.integerPart = (r.target.or r.bedTarget).map (·.trunc)
  bed : b.map Decimal.integerPart = r.bed.map (·.1.trunc)
  bedTarget : bt.map Decimal.integerPart = r.bedTarget.map (·.trunc)
  parse : ∀ atof d, MarlinDriver.parseTemperatures atof d r.line = some (r.readFrom atof a t b bt d)

/-- The searches of the driver and the numbers at their results. -/
private theorem parseTemperatures_eq {p : ℕ} {pb : Option ℕ} {a : Text} {t b bt : Option Text}
    {atof : Text → Int32} (d : MarlinDriver) (hT : findText (ascii "T:") 0 r.line = some p)
    (hheating : decide (some p = some 0) = !r.ok)
    (ha : AbstractDriver.findNumber atof r.line (p + 2) = some (atof a).toInt)
    (ht : AbstractDriver.numberAt atof r.line ((find slash p r.line).map (· + 1)) =
      some (t.map fun v => (atof v).toInt))
    (hB : findText (ascii "B:") 0 r.line = pb)
    (hb : AbstractDriver.numberAt atof r.line (pb.map (· + 2)) = some (b.map fun v => (atof v).toInt))
    (hbt : AbstractDriver.numberAt atof r.line ((pb.bind fun p => find slash p r.line).map (· + 1)) =
      some (bt.map fun v => (atof v).toInt)) :
    d.parseTemperatures atof r.line = some (r.readFrom atof a t b bt d) := by
  unfold slash at ht hbt
  unfold MarlinDriver.parseTemperatures
  rw [hT, hB]
  simp only [Option.bind_some, ha, ht, hb, hbt, Option.bind_eq_bind, hheating, Option.map_map]
  rfl

private theorem findNumber_of_reads {code v : Text} {p : ℕ} {n : Decimal.Number}
    (h : Reads code (some p) (some n) (some v)) (atof : Text → Int32) :
    AbstractDriver.findNumber atof code p = some (atof v).toInt := by
  obtain ⟨x, hx, he⟩ := Option.map_eq_some_iff.mp (h.2 atof)
  cases he
  exact hx

private theorem exists_places : ∃ a t b bt, r.Places a t b bt := by
  obtain ⟨hT, a, ha⟩ := r.reads_hotend
  obtain ⟨t, ht⟩ := r.reads_target
  have hheating : decide (some r.start.length = some 0) = !r.ok := by
    unfold start
    cases r.ok <;> rfl
  have hhotend : Decimal.integerPart a = r.hotend.trunc := Option.some.inj ha.1
  cases hb : r.bed with
  | none =>
    refine ⟨a, t, none, none, hhotend, ht.1, by rw [hb]; rfl, by rw [bedTarget, hb]; rfl, fun atof d => ?_⟩
    exact r.parseTemperatures_eq d hT hheating (findNumber_of_reads ha atof) (ht.2 atof)
      (r.findText_bed_none hb)
      rfl rfl
  | some b =>
    obtain ⟨p, v, vt, hB, hbed, hbt⟩ := r.reads_bed hb
    refine ⟨a, t, some v, vt, hhotend, ht.1, by rw [hb]; exact hbed.1, by rw [bedTarget, hb]; exact hbt.1,
      fun atof d => ?_⟩
    exact r.parseTemperatures_eq d hT hheating (findNumber_of_reads ha atof) (ht.2 atof) hB (hbed.2 atof)
      (hbt.2 atof)

private theorem map_reads {atof : Text → Int32} (hatof : ReadsNumbers atof) {v : Option Text} {o : Option ℤ}
    (hv : v.map Decimal.integerPart = o) (hfit : ∀ n ∈ o, IsInt32 n) :
    (v.map fun v => u16 (atof v).toInt) = o.map u16 := by
  subst hv
  cases v with
  | none => rfl
  | some v =>
    have hread := hatof v (hfit _ rfl)
    rw [Option.map_some, Option.map_some, Option.map_some, hread]

/-- A number that is stored right, whatever becomes of those that do not fit, fits. -/
private theorem fits_of_reads {v : Option Text} {o : Option ℤ} (hv : v.map Decimal.integerPart = o) (old : ℕ)
    (h : ∀ atof, ReadsNumbers atof → (v.map fun v => u16 (atof v).toInt).getD old = (o.map u16).getD old) :
    ∀ n ∈ o, IsInt32 n := by
  subst hv
  intro n hn
  obtain ⟨v, rfl, rfl⟩ := Option.map_eq_some_iff.mp hn
  exact isInt32_of_reads (e := u16 (Decimal.integerPart v)) fun atof hatof => congrArg Nat.cast (h atof hatof)

private theorem numbers_fit {r : Report} {a : Text} {t b bt : Option Text} {d : MarlinDriver}
    (hplaces : r.Places a t b bt)
    (h : ∀ atof, ReadsNumbers atof → r.readFrom atof a t b bt d = r.applied d) :
    ∀ n ∈ r.numbers, IsInt32 n.trunc := by
  have hhotend : IsInt32 r.hotend.trunc := by
    rw [← hplaces.hotend]
    refine isInt32_of_reads (e := u16 r.hotend.trunc) fun atof hatof => congrArg Nat.cast ?_
    exact congrArg (fun d : MarlinDriver => d.temperature) (h atof hatof)
  have hbed := fits_of_reads hplaces.bed d.bedTemperature fun atof hatof =>
    (congrArg (fun d : MarlinDriver => d.bedTemperature) (h atof hatof)).trans (by rw [Option.map_map]; rfl)
  have hbedTarget := fits_of_reads hplaces.bedTarget d.targetBedTemperature fun atof hatof =>
    (congrArg (fun d : MarlinDriver => d.targetBedTemperature) (h atof hatof)).trans
      (by rw [Option.map_map]; rfl)
  have htarget : ∀ n ∈ r.target, IsInt32 n.trunc := by
    intro n hn
    have htext : t.map Decimal.integerPart = some n.trunc := by
      rw [hplaces.target, Option.mem_def.mp hn, Option.some_or, Option.map_some]
    refine fits_of_reads htext d.targetTemperature (fun atof hatof => ?_) _ rfl
    refine (congrArg (fun d : MarlinDriver => d.targetTemperature) (h atof hatof)).trans ?_
    dsimp only [applied]
    rw [Option.mem_def.mp hn]
    rfl
  intro n hn
  simp only [numbers, List.mem_cons, List.mem_append, Option.mem_toList] at hn
  rcases hn with rfl | hn | hn | hn
  · exact hhotend
  · exact htarget n hn
  · obtain ⟨x, hx, rfl⟩ := Option.map_eq_some_iff.mp hn
    exact hbed _ (Option.mem_def.mpr (by rw [hx]; rfl))
  · exact hbedTarget _ (Option.mem_def.mpr (by rw [Option.mem_def.mp hn]; rfl))

/-- Numbers that fit are stored as they stand, that of the first slash as the target of the hotend. -/
private theorem readFrom_eq {r : Report} {a : Text} {t b bt : Option Text} {d : MarlinDriver}
    (hplaces : r.Places a t b bt) {atof : Text → Int32} (hatof : ReadsNumbers atof)
    (hfits : ∀ n ∈ r.numbers, IsInt32 n.trunc) : r.readFrom atof a t b bt d = { r.applied d with
      targetTemperature := ((r.target.or r.bedTarget).map (u16 ·.trunc)).getD d.targetTemperature } := by
  have hbed := map_reads hatof hplaces.bed fun n hn => by
    obtain ⟨x, hx, rfl⟩ := Option.map_eq_some_iff.mp hn
    exact hfits _ (by simp [numbers, hx])
  have hbedTarget := map_reads hatof hplaces.bedTarget fun n hn => by
    obtain ⟨x, hx, rfl⟩ := Option.map_eq_some_iff.mp hn
    exact hfits _ (by simp [numbers, hx])
  have htarget := map_reads hatof hplaces.target fun n hn => by
    obtain ⟨x, hx, rfl⟩ := Option.map_eq_some_iff.mp hn
    rcases Option.or_eq_some_iff.mp hx with hx | ⟨-, hx⟩
    · exact hfits _ (by simp [numbers, hx])
    · exact hfits _ (by simp [numbers, hx])
  have hhotend : (atof a).toInt = r.hotend.trunc := by
    rw [hatof a (hplaces.hotend ▸ hfits _ (List.mem_cons_self ..)), hplaces.hotend]
  unfold readFrom applied
  rw [hhotend, htarget, hbed, hbedTarget, Option.map_map, Option.map_map, Option.map_map]
  rfl

end Report

namespace MarlinDriver

/-- A report is taken as it says if all of its numbers fit an `int`, but for the target of the bed where the
hotend has none: there it must be what the target of the hotend already is. -/
theorem parseTemperatures_line_iff (d : MarlinDriver) (r : Report) :
    (∀ atof, ReadsNumbers atof → d.parseTemperatures atof r.line = some (r.applied d)) ↔
      (∀ n ∈ r.numbers, IsInt32 n.trunc) ∧
        (r.target = none → ∀ n ∈ r.bedTarget, u16 n.trunc = d.targetTemperature) := by
  obtain ⟨a, t, b, bt, hplaces⟩ := r.exists_places
  simp only [hplaces.parse, Option.some.injEq]
  constructor
  · intro h
    have hfits := Report.numbers_fit hplaces h
    refine ⟨hfits, fun hnone n hn => ?_⟩
    have hread : (t.map fun v => u16 (reading 0 v).toInt) = some (u16 n.trunc) := by
      have htext : t.map Decimal.integerPart = some n.trunc := by
        rw [hplaces.target, hnone, Option.none_or, Option.mem_def.mp hn, Option.map_some]
      refine (Report.map_reads (readsNumbers_reading 0) htext fun m hm => ?_).trans rfl
      cases hm
      exact hfits n (by simp [Report.numbers, Option.mem_def.mp hn])
    have htarget := congrArg (fun d : MarlinDriver => d.targetTemperature) (h _ (readsNumbers_reading 0))
    dsimp only [Report.readFrom, Report.applied] at htarget
    rwa [hread, hnone] at htarget
  · rintro ⟨hfits, htarget⟩ atof hatof
    have heq : ((r.target.or r.bedTarget).map (u16 ·.trunc)).getD d.targetTemperature =
        (r.target.map (u16 ·.trunc)).getD d.targetTemperature := by
      cases ht : r.target with
      | some n => rfl
      | none =>
        cases hbt : r.bedTarget with
        | none => rfl
        | some n => exact htarget ht n hbt
    rw [Report.readFrom_eq hplaces hatof hfits, heq]
    rfl

/-- The target of the bed becomes the one of the hotend. -/
theorem parseTemperatures_bed_target : ¬ ∀ (d : MarlinDriver) (r : Report), ∀ atof, ReadsNumbers atof →
    d.parseTemperatures atof r.line = some (r.applied d) := by
  intro h
  have := h {} {
    ok := false
    hotend := Decimal.Number.ofDigits (ascii "20") rfl (by decide)
    target := none
    bed := some (Decimal.Number.ofDigits (ascii "30") rfl (by decide),
      some (Decimal.Number.ofDigits (ascii "40") rfl (by decide)))
    rest := []
    slash_notMem := List.not_mem_nil
    bed_not_isInfix := by decide
    endsDigits := Decimal.endsDigits_nil } (reading 0) (readsNumbers_reading 0)
  have htarget := congrArg (Option.map fun d : MarlinDriver => d.targetTemperature) this
  revert htarget
  decide

end MarlinDriver
end Print3D
