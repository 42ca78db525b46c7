import Print3D.Server.Cancellation
import Print3D.Server.Replies
import Print3D.Drivers.Ignored
import Print3D.Drivers.MakerbotRuns
import Print3D.Drivers.MarlinRuns

/-! Whether the replies to requests that hand over gcode, or start a print, say what has happened. -/
namespace Print3D
open CommandHandler GCodeBuffer Lines

/-- A driver whose `appendGCode` is that of the base class, and whose `startPrint` returns what that of
the base class does. -/
structure DriverOps.Extends {D : Type} (ops : DriverOps D) (base : D → AbstractDriver) (atof : Text → Int32) :
    Prop where
  appendGCode : ∀ {d d' gcode totalLines metaData r},
    ops.appendGCode d gcode totalLines metaData = some (r, d') →
    (base d).appendGCode atof gcode totalLines metaData = some (r, base d')
  startPrint : ∀ {d d' r}, ops.startPrint d = some (r, d') → r = (base d).isPrinterOnline

theorem MarlinDriver.ops_extends (atof : Text → Int32) :
    (MarlinDriver.ops atof).Extends (fun d => d.toAbstractDriver) atof where
  appendGCode h := by
    obtain ⟨⟨r, base⟩, hbase, h⟩ := Option.bind_eq_some_iff.mp h
    cases h
    exact hbase
  startPrint h := by
    rcases startPrint_cases (.inl rfl) h with ⟨hr, ho, -⟩ | ⟨hr, ho, -⟩
    · exact hr.trans ho.symm
    · exact hr.trans ho.symm

theorem MakerbotDriver.ops_extends {σ : Type} (gpx : Gpx σ) (atof : Text → Int32) :
    (MakerbotDriver.ops gpx atof).Extends (fun d => d.toAbstractDriver) atof where
  appendGCode h := by
    obtain ⟨⟨gsr, base⟩, hbase, he⟩ := Effects.bind_eq_ok.mp (Effects.toOption_eq_some.mp h)
    cases he
    exact defined_eq_ok.mp hbase
  startPrint {d d' r} h := by
    have hstart : d.startPrint = (r, d') := Option.some.inj h
    cases ho : d.isPrinterOnline with
    | false =>
      rw [MakerbotDriver.startPrint_offline ho] at hstart
      exact (Prod.mk.inj hstart).1.symm
    | true =>
      obtain ⟨g, -, he⟩ := MakerbotDriver.startPrint_online ho .printing
      rw [he] at hstart
      exact (Prod.mk.inj hstart).1.symm

namespace Server

variable {D : Type} {ops : DriverOps D} {base : D → AbstractDriver} {atof : Text → Int32}
  {files : Option Text → Except Text Text} {s s' : Server D} {o : Output} {client : ℕ} {args : List Text}
  {rest : Text} {request : Request}

/-- The driver has taken the text that it was given, and its buffer has got the whole one. -/
structure AddsText (ops : DriverOps D) (base : D → AbstractDriver) (d : D) (gcode whole : Text) (totalLines : ℤ)
    (metaData : Option MetaData) (d' : D) : Prop where
  result : ops.appendGCode d gcode totalLines metaData = some (.ok, d')
  text : (base d').gcodeBuffer.buckets.flatten =
    (base d).gcodeBuffer.buckets.flatten ++ norm (base d).gcodeBuffer.keepGpxMacroComments whole

/-- The text of a transaction with all the bytes of the chunk that ends it, also behind a NUL. -/
def wholeText (trx : Transaction) (chunk : Chunk) (args : List Text) : Text :=
  (addChunk trx { chunk with data := args.headD [] }).buffer

/-- The requests that hand over gcode or start a print. -/
def Commits (args : List Text) : Request → Prop
  | .gcodeAppend => carriesLastChunk args = true
  | .gcodeAppendFile => True
  | .gcodeStartPrint => True
  | _ => False

/-- The driver has done what was asked for. -/
def Performed (ops : DriverOps D) (base : D → AbstractDriver) (files : Option Text → Except Text Text)
    (s : Server D) (client : ℕ) (args : List Text) (s' : Server D) : Request → Prop
  | .gcodeAppend => ∃ trx chunk, s.clients client = some trx ∧ Chunk.ofArgs args = some chunk ∧
      AddsText ops base s.driver (addChunk trx chunk).buffer (wholeText trx chunk args) chunk.totalLines
        (some chunk.metaData) s'.driver
  | .gcodeAppendFile => ∃ data, files (args[0]?.map cString) = .ok data ∧
      AddsText ops base s.driver (cString data) data (-1) none s'.driver
  | .gcodeStartPrint => ops.startPrint s.driver = some (true, s'.driver)
  | _ => True

/-- An OK is sent only if the request was performed, and anything else only if the gcode buffer and
the state of the driver are as before. -/
structure Truthful (ops : DriverOps D) (base : D → AbstractDriver) (files : Option Text → Except Text Text)
    (s : Server D) (client : ℕ) (args : List Text) (request : Request) (s' : Server D) (o : Output) : Prop where
  ok : okReply ∈ o.sent → Performed ops base files s client args s' request
  other : (∃ reply ∈ o.sent, reply ≠ okReply) → (base s'.driver).gcodeBuffer = (base s.driver).gcodeBuffer ∧
    (base s'.driver).state = (base s.driver).state

/-- A text that changes neither buffer nor state when it is taken. -/
def TakesIdly (d : AbstractDriver) (gcode : Text) (totalLines : ℤ) (metaData : Option MetaData) : Prop :=
  d.gcodeBuffer.Ignores gcode totalLines metaData ∧ d.state ≠ .idle

/-- What is left out of a text is nothing that cleaning would keep. -/
def LosesNothing (d : AbstractDriver) (gcode whole : Text) : Prop :=
  norm d.gcodeBuffer.keepGpxMacroComments gcode = norm d.gcodeBuffer.keepGpxMacroComments whole

/-- When the replies to a request are truthful. -/
def Reported (base : D → AbstractDriver) (files : Option Text → Except Text Text) (s : Server D) (client : ℕ)
    (args : List Text) : Request → Prop
  | .gcodeAppend => ∀ trx chunk, s.clients client = some trx → Chunk.ofArgs args = some chunk →
      (base s.driver).gcodeBuffer.Accepts (addChunk trx chunk).buffer (some chunk.metaData) →
        LosesNothing (base s.driver) (addChunk trx chunk).buffer (wholeText trx chunk args) ∧
          (trx.cancelled = true →
            TakesIdly (base s.driver) (addChunk trx chunk).buffer chunk.totalLines (some chunk.metaData))
  | .gcodeAppendFile => ∀ trx data, s.clients client = some trx → trx.active = false →
      files (args[0]?.map cString) = .ok data → (base s.driver).gcodeBuffer.Accepts (cString data) none ∧
        LosesNothing (base s.driver) (cString data) data ∧
          (args = [] → TakesIdly (base s.driver) (cString data) (-1) none)
  | .gcodeStartPrint => (base s.driver).isPrinterOnline = true
  | _ => True

theorem addsText_iff (hops : ops.Extends base atof) {d d' : D} (hreach : (base d).gcodeBuffer.Reachable)
    {gcode whole : Text} {totalLines : ℤ} {metaData : Option MetaData}
    (h : ops.appendGCode d gcode totalLines metaData = some (.ok, d')) :
    AddsText ops base d gcode whole totalLines metaData d' ↔ LosesNothing (base d) gcode whole := by
  rcases AbstractDriver.appendGCode_cases (hops.appendGCode h) with ⟨-, -, ha, -⟩ | ⟨hr, -⟩
  · have htext := hreach.append ha
    constructor
    · exact fun hadds => List.append_cancel_left (htext.symm.trans hadds.text)
    · exact fun hsame => ⟨h, htext.trans (congrArg _ hsame)⟩
  · exact absurd rfl hr

theorem unchanged_iff_takesIdly {d d' : AbstractDriver} (hreach : d.gcodeBuffer.Reachable) {gcode : Text}
    {totalLines : ℤ} {metaData : Option MetaData}
    (h : d.appendGCode atof gcode totalLines metaData = some (.ok, d')) :
    (d'.gcodeBuffer = d.gcodeBuffer ∧ d'.state = d.state) ↔ TakesIdly d gcode totalLines metaData := by
  rcases AbstractDriver.appendGCode_cases h with ⟨-, hacc, ha, hstate⟩ | ⟨hr, -⟩
  · unfold TakesIdly
    rw [← append_eq_self_iff hreach hacc, ha, hstate, Option.some.injEq, Prod.mk.injEq, and_iff_right rfl]
    refine and_congr_right fun _ => ?_
    split_ifs with hidle
    · simp [hidle]
    · simp [hidle]
  · exact absurd rfl hr

/-- What the driver says to a text tells whether its buffer accepts it. -/
theorem ok_iff_accepts (hops : ops.Extends base atof) {d d' : D} {gcode : Text} {totalLines : ℤ}
    {metaData : Option MetaData} {r : GcodeSetResult}
    (h : ops.appendGCode d gcode totalLines metaData = some (r, d')) :
    r = .ok ↔ (base d).gcodeBuffer.Accepts gcode metaData := by
  rcases AbstractDriver.appendGCode_cases (hops.appendGCode h) with ⟨hr, hacc, -⟩ | ⟨hr, hacc, -⟩
  · exact iff_of_true hr hacc
  · exact iff_of_false hr hacc

/-- Errors, and an OK after them: the errors are wrong unless nothing has changed, and the OK is if
something was lost. -/
theorem truthful_taken_iff (hops : ops.Extends base atof) (hreach : (base s.driver).gcodeBuffer.Reachable)
    {errors : List Text} {gcode whole : Text} {totalLines : ℤ} {metaData : Option MetaData}
    (herrors : okReply ∉ errors) (hsent : o.sent = errors ++ [okReply])
    (hcall : ops.appendGCode s.driver gcode totalLines metaData = some (.ok, s'.driver))
    (hperformed : Performed ops base files s client args s' request ↔
      AddsText ops base s.driver gcode whole totalLines metaData s'.driver) :
    Truthful ops base files s client args request s' o ↔ LosesNothing (base s.driver) gcode whole ∧
      (errors ≠ [] → TakesIdly (base s.driver) gcode totalLines metaData) := by
  rw [← unchanged_iff_takesIdly hreach (hops.appendGCode hcall), ← addsText_iff hops hreach hcall, ← hperformed]
  constructor
  · intro htruthful
    refine ⟨htruthful.ok (hsent ▸ List.mem_append_right _ (List.mem_singleton.mpr rfl)), fun hne => ?_⟩
    obtain ⟨reply, hr⟩ := List.exists_mem_of_ne_nil errors hne
    have hother : reply ≠ okReply := fun he => herrors (he ▸ hr)
    exact htruthful.other ⟨reply, hsent ▸ List.mem_append_left _ hr, hother⟩
  · rintro ⟨hadds, hsame⟩
    refine ⟨fun _ => hadds, ?_⟩
    rintro ⟨reply, hr, hne⟩
    rw [hsent] at hr
    rcases List.mem_append.mp hr with hr | hr
    · exact hsame (List.ne_nil_of_mem hr)
    · exact absurd (List.mem_singleton.mp hr) hne

theorem truthful_failed {errors : List Text} {reply : Text} (herrors : okReply ∉ errors)
    (hreply : okReply ≠ reply) (hsent : o.sent = errors ++ [reply])
    (hsame : (base s'.driver).gcodeBuffer = (base s.driver).gcodeBuffer ∧
      (base s'.driver).state = (base s.driver).state) :
    Truthful ops base files s client args request s' o := by
  refine ⟨fun hok => ?_, fun _ => hsame⟩
  rw [hsent] at hok
  rcases List.mem_append.mp hok with hr | hr
  · exact absurd hr herrors
  · exact absurd (List.mem_singleton.mp hr) hreply

theorem okReply_notMem_notice (trx : Transaction) : okReply ∉ notice trx := by
  unfold notice
  split_ifs
  · decide
  · exact List.not_mem_nil

theorem okReply_notMem_argumentNotice (args : List Text) : okReply ∉ argumentNotice args := by
  unfold argumentNotice
  split_ifs
  · decide
  · exact List.not_mem_nil

theorem okReply_ne_error (message : Text) : okReply ≠ encode ipcCmdrError [message] := by
  intro he
  have hlen := congrArg List.length he
  simp [okReply] at hlen

theorem performed_gcodeAppend_iff {trx : Transaction} {chunk : Chunk} (htrx : s.clients client = some trx)
    (hchunk : Chunk.ofArgs args = some chunk) : Performed ops base files s client args s' .gcodeAppend ↔
      AddsText ops base s.driver (addChunk trx chunk).buffer (wholeText trx chunk args) chunk.totalLines
        (some chunk.metaData) s'.driver := by
  constructor
  · rintro ⟨trx', chunk', htrx', hchunk', hadds⟩
    obtain rfl := Option.some.inj (htrx.symm.trans htrx')
    obtain rfl := Option.some.inj (hchunk.symm.trans hchunk')
    exact hadds
  · exact fun hadds => ⟨trx, chunk, htrx, hchunk, hadds⟩

theorem performed_gcodeAppendFile_iff {data : Text} (hfile : files (args[0]?.map cString) = .ok data) :
    Performed ops base files s client args s' .gcodeAppendFile ↔
      AddsText ops base s.driver (cString data) data (-1) none s'.driver := by
  constructor
  · rintro ⟨data', hdata', hadds⟩
    obtain rfl := Except.ok.inj (hfile.symm.trans hdata')
    exact hadds
  · exact fun hadds => ⟨data, hfile, hadds⟩

/-- The transaction and the chunk that the condition of `gcodeAppend` speaks of are those of the client. -/
theorem reported_gcodeAppend_iff {trx : Transaction} {chunk : Chunk} (htrx : s.clients client = some trx)
    (hchunk : Chunk.ofArgs args = some chunk) : Reported base files s client args .gcodeAppend ↔
      ((base s.driver).gcodeBuffer.Accepts (addChunk trx chunk).buffer (some chunk.metaData) →
        LosesNothing (base s.driver) (addChunk trx chunk).buffer (wholeText trx chunk args) ∧
          (trx.cancelled = true →
            TakesIdly (base s.driver) (addChunk trx chunk).buffer chunk.totalLines (some chunk.metaData))) := by
  constructor
  · exact fun hall => hall trx chunk htrx hchunk
  · intro hthis trx' chunk' htrx' hchunk'
    obtain rfl := Option.some.inj (htrx.symm.trans htrx')
    obtain rfl := Option.some.inj (hchunk.symm.trans hchunk')
    exact hthis

theorem truthful_gcodeAppend_iff (hops : ops.Extends base atof) (hreach : (base s.driver).gcodeBuffer.Reachable)
    {trx : Transaction} (htrx : s.clients client = some trx)
    (h : Encodable ipcCmdqGcodeAppend args) (hlast : carriesLastChunk args = true)
    (hexec : s.exec ops files (.command client ipcCmdqGcodeAppend args rest) = some (s', o)) :
    Truthful ops base files s client args .gcodeAppend s' o ↔
      Reported base files s client args .gcodeAppend := by
  have hnotice := okReply_notMem_notice trx
  rcases append_cases htrx h hexec with ⟨hargs, rfl, rfl⟩ |
    ⟨chunk, hchunk, ⟨hkept, -⟩ | ⟨-, gsr, d', hcall, rfl, rfl⟩⟩
  · refine iff_of_true ?_ ?_
    · have hnone : okReply ∉ ([] : List Text) := List.not_mem_nil
      exact truthful_failed hnone (by decide) rfl ⟨rfl, rfl⟩
    · intro trx' chunk _ hchunk
      rw [hargs] at hchunk
      cases hchunk
  · rw [carriesLastChunk_eq hchunk, hkept] at hlast
    cases hlast
  · rw [reported_gcodeAppend_iff htrx hchunk]
    by_cases hgsr : gsr = .ok
    · subst hgsr
      have hacc := (ok_iff_accepts hops hcall).mp rfl
      have hcancelled : notice trx ≠ [] ↔ trx.cancelled = true := by simp [notice]
      let s' := { s with driver := d' }.setTransaction client
        { addChunk trx chunk with buffer := [], active := false }
      have hperformed : Performed ops base files s client args s' .gcodeAppend ↔ _ :=
        performed_gcodeAppend_iff htrx hchunk
      refine Iff.trans (truthful_taken_iff hops hreach hnotice rfl hcall hperformed) ?_
      rw [hcancelled]
      exact ⟨fun hboth _ => hboth, fun hboth => hboth hacc⟩
    · have hacc := (ok_iff_accepts hops hcall).not.mp hgsr
      refine iff_of_true ?_ fun hacc' => absurd hacc' hacc
      rcases AbstractDriver.appendGCode_cases (hops.appendGCode hcall) with ⟨hr, -⟩ | ⟨-, -, hsame⟩
      · exact absurd hr hgsr
      · have hreply : okReply ≠ if gsr = .ok then okReply else addFailed gsr := by
          rw [if_neg hgsr]
          cases gsr <;> decide
        exact truthful_failed hnotice hreply rfl hsame

theorem reported_gcodeAppendFile_iff {trx : Transaction} {data : Text} (htrx : s.clients client = some trx)
    (hactive : trx.active = false) (hfile : files (args[0]?.map cString) = .ok data) :
    Reported base files s client args .gcodeAppendFile ↔
      (base s.driver).gcodeBuffer.Accepts (cString data) none ∧
        LosesNothing (base s.driver) (cString data) data ∧
          (args = [] → TakesIdly (base s.driver) (cString data) (-1) none) := by
  constructor
  · exact fun hall => hall trx data htrx hactive hfile
  · intro hthis trx' data' _ _ hdata'
    obtain rfl := Except.ok.inj (hfile.symm.trans hdata')
    exact hthis

theorem truthful_gcodeAppendFile_iff (hops : ops.Extends base atof)
    (hreach : (base s.driver).gcodeBuffer.Reachable) {trx : Transaction}
    (htrx : s.clients client = some trx) (h : Encodable ipcCmdqGcodeAppendFile args)
    (hexec : s.exec ops files (.command client ipcCmdqGcodeAppendFile args rest) = some (s', o)) :
    Truthful ops base files s client args .gcodeAppendFile s' o ↔
      Reported base files s client args .gcodeAppendFile := by
  have hnotice := okReply_notMem_argumentNotice args
  rw [exec_gcodeAppendFile htrx h] at hexec
  split_ifs at hexec with hactive
  · cases hexec
    refine iff_of_true (truthful_failed hnotice (by decide) rfl ⟨rfl, rfl⟩) ?_
    intro trx' data htrx' hactive'
    rw [← Option.some.inj (htrx.symm.trans htrx'), hactive] at hactive'
    cases hactive'
  · cases hfile : files (args[0]?.map cString) with
    | error message =>
      rw [hfile] at hexec
      dsimp only at hexec
      split_ifs at hexec with hfits
      cases hexec
      refine iff_of_true (truthful_failed hnotice (okReply_ne_error message) rfl ⟨rfl, rfl⟩) ?_
      intro trx' data _ _ hdata
      rw [hfile] at hdata
      cases hdata
    | ok data =>
      rw [hfile] at hexec
      obtain ⟨⟨gsr, d'⟩, hcall, he⟩ := Option.map_eq_some_iff.mp hexec
      cases he
      rw [reported_gcodeAppendFile_iff htrx (by simpa using hactive) hfile]
      by_cases hgsr : gsr = .ok
      · subst hgsr
        have hargs : argumentNotice args ≠ [] ↔ args = [] := by simp [argumentNotice]
        let s' := { s with driver := d' }
        have hperformed : Performed ops base files s client args s' .gcodeAppendFile ↔ _ :=
          performed_gcodeAppendFile_iff hfile
        refine Iff.trans (truthful_taken_iff hops hreach hnotice rfl hcall hperformed) ?_
        rw [hargs, and_iff_right ((ok_iff_accepts hops hcall).mp rfl)]
      · -- OK is sent although nothing was taken
        refine iff_of_false (fun htruthful => ?_) fun hacc => hgsr ((ok_iff_accepts hops hcall).mpr hacc.1)
        obtain ⟨data', hdata', hadds⟩ := htruthful.ok (List.mem_append_right _ (List.mem_singleton.mpr rfl))
        obtain rfl := Except.ok.inj (hfile.symm.trans hdata')
        have hresult := hadds.result
        rw [hcall] at hresult
        cases hresult
        exact hgsr rfl

theorem truthful_gcodeStartPrint_iff (hops : ops.Extends base atof) (h : Encodable ipcCmdqGcodeStartprint args)
    (hexec : s.exec ops files (.command client ipcCmdqGcodeStartprint args rest) = some (s', o)) :
    Truthful ops base files s client args .gcodeStartPrint s' o ↔
      Reported base files s client args .gcodeStartPrint := by
  rw [exec_gcodeStartPrint h] at hexec
  obtain ⟨⟨started, d'⟩, hcall, he⟩ := Option.map_eq_some_iff.mp hexec
  cases he
  have hstarted := hops.startPrint hcall
  constructor
  · intro htruthful
    have hperformed : ops.startPrint s.driver = some (true, d') := htruthful.ok (List.mem_singleton.mpr rfl)
    exact (hops.startPrint hperformed).symm
  · intro honline
    refine ⟨fun _ => ?_, ?_⟩
    · have hperformed : ops.startPrint s.driver = some (true, d') := by
        rw [hcall, hstarted, honline]
      exact hperformed
    · rintro ⟨reply, hr, hne⟩
      exact absurd (List.mem_singleton.mp hr) hne

/-- The replies to a request are truthful if and only if the request is of the reported kind. -/
theorem truthful_iff (hops : ops.Extends base atof) (hreach : (base s.driver).gcodeBuffer.Reachable)
    {trx : Transaction} (htrx : s.clients client = some trx) (hrequest : Commits args request)
    (h : Encodable request.code args)
    (hexec : s.exec ops files (.command client request.code args rest) = some (s', o)) :
    Truthful ops base files s client args request s' o ↔ Reported base files s client args request := by
  cases request with
  | gcodeAppend => exact truthful_gcodeAppend_iff hops hreach htrx h hrequest hexec
  | gcodeAppendFile => exact truthful_gcodeAppendFile_iff hops hreach htrx h hexec
  | gcodeStartPrint => exact truthful_gcodeStartPrint_iff hops h hexec
  | _ => cases hrequest

/-- So it is with both drivers. -/
theorem replies_truthful_iff {σ : Type} {gpx : Gpx σ} {trx : Transaction} (hrequest : Commits args request)
    (h : Encodable request.code args) :
    (∀ {s s' : Server MarlinDriver}, s.driver.gcodeBuffer.Reachable → s.clients client = some trx →
      s.exec (MarlinDriver.ops atof) files (.command client request.code args rest) = some (s', o) →
      (Truthful (MarlinDriver.ops atof) (fun d => d.toAbstractDriver) files s client args request s' o ↔
        Reported (fun d => d.toAbstractDriver) files s client args request)) ∧
    ∀ {s s' : Server (MakerbotDriver σ)}, s.driver.gcodeBuffer.Reachable → s.clients client = some trx →
      s.exec (MakerbotDriver.ops gpx atof) files (.command client request.code args rest) = some (s', o) →
      (Truthful (MakerbotDriver.ops gpx atof) (fun d => d.toAbstractDriver) files s client args request s' o ↔
        Reported (fun d => d.toAbstractDriver) files s client args request) :=
  ⟨fun hreach htrx hexec => truthful_iff (MarlinDriver.ops_extends atof) hreach htrx hrequest h hexec,
    fun hreach htrx hexec => truthful_iff (MakerbotDriver.ops_extends gpx atof) hreach htrx hrequest h hexec⟩

private def serving (driver : D) : Server D :=
  { driver := driver, clients := fun c => if c = 0 then some {} else none, accepted := 1 }

private theorem exec_startPrint_serving (driver : D) :
    (serving driver).exec ops files (.command 0 ipcCmdqGcodeStartprint [] []) =
      (ops.startPrint driver).map fun p => (serving p.2, { sent := [okReply], calls := [.startPrint] }) :=
  exec_gcodeStartPrint ⟨by decide, by decide, by decide⟩

theorem replies_truthful_iff_idle :
    Truthful (MarlinDriver.ops fun _ => 0) (fun d => d.toAbstractDriver) (fun _ => .error [])
      (serving { state := .idle, checkConnection := false }) 0 [] .gcodeStartPrint
      (serving { state := .idle, checkConnection := false }) { sent := [okReply], calls := [.startPrint] } ∧
    Truthful (MakerbotDriver.ops ⟨id, fun state _ => ([], state)⟩ fun _ => 0)
      (fun d => d.toAbstractDriver) (fun _ => .error []) (serving { state := .idle, gpx := () }) 0 []
      .gcodeStartPrint (serving { state := .printing, gpx := () })
      { sent := [okReply], calls := [.startPrint] } := by
  have hiff := @replies_truthful_iff (fun _ => 0) (fun _ => .error [])
    { sent := [okReply], calls := [.startPrint] } 0 [] [] .gcodeStartPrint Unit
    ⟨id, fun state _ => ([], state)⟩ {} trivial ⟨by decide, by decide, by decide⟩
  exact ⟨(hiff.1 ⟨false, [], .nil _⟩ rfl (exec_startPrint_serving _)).mpr rfl,
    (hiff.2 ⟨false, [], .nil _⟩ rfl (exec_startPrint_serving _)).mpr rfl⟩

/-- A print on a printer that is not there. -/
theorem not_truthful_offline : ¬ ∀ (s s' : Server MarlinDriver) (o : Output),
    s.clients 0 = some {} → s.exec (MarlinDriver.ops fun _ => 0) (fun _ => .error [])
      (.command 0 ipcCmdqGcodeStartprint [] []) = some (s', o) →
      Truthful (MarlinDriver.ops fun _ => 0) (fun d => d.toAbstractDriver) (fun _ => .error []) s 0 []
        .gcodeStartPrint s' o := by
  intro h
  let d : MarlinDriver := {}
  have hexec : (serving d).exec (MarlinDriver.ops fun _ => 0) (fun _ => .error [])
      (.command 0 ipcCmdqGcodeStartprint [] []) =
        some (serving d, { sent := [okReply], calls := [.startPrint] }) :=
    exec_startPrint_serving d
  have htruthful := h _ _ _ rfl hexec
  have hperformed : (MarlinDriver.ops fun _ => 0).startPrint {} = some (true, {}) :=
    htruthful.ok (List.mem_singleton.mpr rfl)
  cases hperformed

end Server
end Print3D
