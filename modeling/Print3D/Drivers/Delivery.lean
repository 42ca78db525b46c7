import Print3D.Drivers.Batches
import Print3D.Drivers.Frames

/-! Whether the commands that leave the queue have been accepted by the printer. -/
namespace Print3D
open MakerbotDriver Effects Transition

/-- Within `n` attempts a frame arrives, and the first one says that the packet is accepted. -/
inductive Accepts : ℕ → List SerialRead → Prop
  | frame {n : ℕ} {reads reads' : List SerialRead} {payload : Text} :
      Frame reads payload reads' → payload.head? = some 0x81 → Accepts (n + 1) reads
  | again {n : ℕ} {reads reads' : List SerialRead} :
      Repeats reads reads' → Accepts n reads' → Accepts (n + 1) reads

namespace MakerbotDriver

variable {σ : Type} {gpx : Gpx σ} {atof : Text → Int32} {d d' d₁ d₂ : MakerbotDriver σ} {command : Text}

def HeardSuccess (cmd : UInt8) (d d' : MakerbotDriver σ) : Prop :=
  ∃ payload, d'.received = d.received ++ [(cmd, payload)] ∧ payload.head? = some 0x81

theorem interpret_eq {cmd : UInt8} {toolcmd : ℤ} {buf : Text} (h : d.interpret cmd toolcmd buf = .ok d') :
    d'.received = d.received ∧ d'.serial = d.serial := by
  unfold interpret at h
  split_ifs at h
  · obtain ⟨version, -, h⟩ := bind_eq_ok.mp h
    cases h
    exact ⟨rfl, rfl⟩
  · obtain ⟨space, -, h⟩ := bind_eq_ok.mp h
    cases h
    exact ⟨rfl, rfl⟩
  · obtain ⟨t, -, h⟩ := bind_eq_ok.mp h
    have hstored : (d.storeTemperature toolcmd t).received = d.received ∧
        (d.storeTemperature toolcmd t).serial = d.serial := by
      unfold storeTemperature
      split_ifs <;> exact ⟨rfl, rfl⟩
    cases h
    split_ifs <;> exact hstored
  · cases h
    exact ⟨rfl, rfl⟩

theorem noteResponse_eq (d : MakerbotDriver σ) (rv : ℤ) :
    (d.noteResponse rv).received = d.received ∧ (d.noteResponse rv).serial = d.serial := by
  unfold noteResponse
  split_ifs <;> exact ⟨rfl, rfl⟩

theorem parseResponse_cases {cmd : UInt8} {toolcmd rv : ℤ} (h : d.parseResponse cmd toolcmd = .ok (rv, d')) :
    (∃ payload, rv = 0 ∧ Frame d.serial.reads payload d'.serial.reads ∧
        d'.received = d.received ++ [(cmd, payload)]) ∨
      (rv ≠ 0 ∧ rv ≠ -3 ∧ Repeats d.serial.reads d'.serial.reads ∧ d'.received = d.received) ∨
      ((rv = 0 ∨ rv = -3) ∧ d'.received = d.received ∧ ∀ n, ¬ Accepts n d.serial.reads) := by
  obtain ⟨⟨frame, serial⟩, hframe, h⟩ := bind_eq_ok.mp h
  have hends : ∀ {rv : ℤ}, rv = 0 ∨ rv = -3 → frame = .error rv → ∀ n, ¬ Accepts n d.serial.reads := by
    intro rv hrv he n hacc
    cases hacc with
    | frame hf _ =>
      rw [readFrame_of_frame hf, he] at hframe
      cases hframe
    | again hr _ =>
      obtain ⟨rv', errno, hr', h0, h3⟩ := readFrame_of_repeats (s := d.serial) hr
      rw [hr', he] at hframe
      cases hframe
      exact hrv.elim h0 h3
  rcases readFrame_cases hframe with ⟨payload, rfl, hf⟩ | ⟨rv, rfl, h0, h3, hr⟩ | rfl | rfl
  · obtain ⟨d₁, hd₁, h⟩ := bind_eq_ok.mp h
    obtain ⟨hreceived, hserial⟩ := interpret_eq hd₁
    cases h
    refine .inl ⟨payload, rfl, ?_, hreceived⟩
    rw [hserial]
    exact hf
  · cases h
    exact .inr (.inl ⟨h0, h3, hr, rfl⟩)
  · cases h
    exact .inr (.inr ⟨.inl rfl, rfl, hends (.inl rfl) rfl⟩)
  · cases h
    exact .inr (.inr ⟨.inr rfl, rfl, hends (.inr rfl) rfl⟩)

theorem accepts_of_frame_iff {reads reads' : List SerialRead} {payload : Text} {n : ℕ}
    (h : Frame reads payload reads') : Accepts (n + 1) reads ↔ payload.head? = some 0x81 := by
  have hread := readFrame_of_frame (s := { reads := reads }) h
  constructor
  · intro hacc
    cases hacc with
    | frame hf hcode =>
      rw [readFrame_of_frame (s := { reads := reads }) hf] at hread
      cases hread
      exact hcode
    | again hr _ =>
      obtain ⟨rv, errno, hr', -⟩ := readFrame_of_repeats (s := { reads := reads }) hr
      rw [hr'] at hread
      cases hread
  · exact .frame h

theorem accepts_of_repeats_iff {reads reads' : List SerialRead} {n : ℕ} (h : Repeats reads reads') :
    Accepts (n + 1) reads ↔ Accepts n reads' := by
  obtain ⟨rv, errno, hread, -⟩ := readFrame_of_repeats (s := { reads := reads }) h
  constructor
  · intro hacc
    cases hacc with
    | frame hf hcode =>
      rw [readFrame_of_frame (s := { reads := reads }) hf] at hread
      cases hread
    | again hr hacc =>
      obtain ⟨rv', errno', hr', -⟩ := readFrame_of_repeats (s := { reads := reads }) hr
      rw [hr'] at hread
      cases hread
      exact hacc
  · exact .again h

theorem not_heardSuccess {cmd : UInt8} (h : d'.received = d.received) : ¬ HeardSuccess cmd d d' := by
  rintro ⟨payload, he, -⟩
  have hlen := congrArg List.length (h.symm.trans he)
  simp at hlen

theorem tryPacket_heardSuccess_iff {pktBuf : Text} {cmd : UInt8} {toolcmd rv : ℤ} {n : ℕ}
    (h : tryPacket pktBuf cmd toolcmd n d = .ok (rv, d')) :
    HeardSuccess cmd d d' ↔ Accepts n d.serial.reads := by
  induction n generalizing d with
  | zero => cases h
  | succ n ih =>
    obtain ⟨⟨rv₁, d₁⟩, hd₁, h⟩ := bind_eq_ok.mp h
    obtain ⟨hreceived, hserial⟩ := noteResponse_eq d₁ rv₁
    dsimp only at h
    rcases parseResponse_cases hd₁ with ⟨payload, rfl, hframe, hr⟩ | ⟨h0, h3, hrepeats, hr⟩ | ⟨hrv, hr, hnot⟩
    · rw [if_pos (.inl rfl)] at h
      cases h
      refine Iff.trans ?_ (accepts_of_frame_iff hframe).symm
      rw [HeardSuccess, hreceived, hr]
      simp
    · have hrest := accepts_of_repeats_iff (n := n) hrepeats
      split_ifs at h with hlast
      · have hn : n = 0 := (hlast.resolve_left h0).resolve_left h3
        cases h
        subst hn
        exact iff_of_false (not_heardSuccess (hreceived.trans hr)) fun hacc => nomatch hrest.mp hacc
      · have hih := ih h
        rw [hserial, HeardSuccess, hreceived, hr] at hih
        exact hih.trans hrest.symm
    · rw [if_pos (hrv.elim .inl fun h => .inr (.inl h))] at h
      cases h
      exact iff_of_false (not_heardSuccess (hreceived.trans hr)) (hnot _)

/-! ### Rounds of the loop -/

/-- The command is the next one, and the driver takes the printer to have space for it. -/
def Sends (d : MakerbotDriver σ) (command : Text) : Prop :=
  d.queue.head? = some command ∧ command.length ≤ (d.bufferSpace - 5).toNat

/-- One round of the loop of `processQueue`. -/
def Pass (d : MakerbotDriver σ) (command : Text) (d' : MakerbotDriver σ) : Prop :=
  d.Sends command ∧ ∃ r, (d.hand 1).sendPacket command = .ok (r, d')

/-- An update comes to the head of that loop in this state. -/
inductive Reaches (gpx : Gpx σ) (d : MakerbotDriver σ) : MakerbotDriver σ → Prop
  | start {d₁ d₂ : MakerbotDriver σ} {space : ℤ} : d.isConnected = true → d.refillQueue gpx = .ok d₁ →
      d₁.isPrinting = true → d₁.queue ≠ [] → d₁.requestBufferSpace = .ok (space, d₂) → 480 < space →
      Reaches gpx d d₂
  | next {d₁ d₂ : MakerbotDriver σ} {command : Text} : Reaches gpx d d₁ → Pass d₁ command d₂ → Reaches gpx d d₂

/-- A command is removed only when it has been accepted, and is the next one otherwise. -/
structure Delivered (d : MakerbotDriver σ) (command : Text) (d' : MakerbotDriver σ) : Prop where
  accepted : d'.queue ≠ d.queue → HeardSuccess (command.headD 0) d d'
  kept : ¬ HeardSuccess (command.headD 0) d d' → d'.queue.head? = some command

/-- What arrives behind the stray bytes says that the command is accepted. -/
def Answers (d : MakerbotDriver σ) (command : Text) : Prop :=
  Accepts retries (d.serial.readBytesDirect command.length 0).2.reads

theorem sendPacket_heardSuccess_iff {payload : Text} {updateBufferSpace r : Bool}
    (h : d.sendPacket payload updateBufferSpace = .ok (r, d')) :
    HeardSuccess (payload.headD 0) d d' ↔ d.Answers payload := by
  obtain ⟨⟨⟨rv, stray⟩, serial⟩, hstray, h⟩ := bind_eq_ok.mp h
  dsimp only at h
  split_ifs at h
  obtain ⟨toolcmd, -, h⟩ := bind_eq_ok.mp h
  obtain ⟨⟨rv', d₁⟩, hd₁, h⟩ := bind_eq_ok.mp h
  cases h
  have hserial : serial = (d.serial.readBytesDirect payload.length 0).2 := by
    obtain ⟨_, -, hstray⟩ := bind_eq_ok.mp hstray
    exact (congrArg Prod.snd (Except.ok.inj hstray)).symm
  have htry := tryPacket_heardSuccess_iff hd₁
  have hreserve : ∀ (d : MakerbotDriver σ) (len : ℕ), (d.reserve len updateBufferSpace).received = d.received ∧
      (d.reserve len updateBufferSpace).serial = d.serial := by
    intro d len
    unfold reserve
    split_ifs <;> exact ⟨rfl, rfl⟩
  rw [HeardSuccess, (hreserve _ _).1, (hreserve _ _).2, hserial] at htry
  exact htry

theorem Pass.queue (h : Pass d command d') : d.queue = command :: d'.queue := by
  obtain ⟨⟨hhead, -⟩, r, hr⟩ := h
  obtain ⟨queue, hq⟩ := List.head?_eq_some_iff.mp hhead
  rw [(sendPacket_talks hr).queue, hand, hq]
  rfl

theorem Pass.delivered_iff (h : Pass d command d') : Delivered d command d' ↔ d.Answers command := by
  have hq := h.queue
  obtain ⟨-, r, hr⟩ := h
  have hiff := sendPacket_heardSuccess_iff hr
  have hreceived : (d.hand 1).received = d.received := rfl
  have hserial : (d.hand 1).serial = d.serial := rfl
  rw [HeardSuccess, hreceived, Answers, hserial] at hiff
  rw [Answers, ← hiff]
  constructor
  · intro hdelivered
    refine hdelivered.accepted fun he => ?_
    rw [hq] at he
    exact List.cons_ne_self _ _ he.symm
  · exact fun hheard => ⟨fun _ => hheard, fun hnot => absurd hheard hnot⟩

theorem sendCommands_cons {queue : List Text} (hq : d.queue = command :: queue) (hs : d.Sends command)
    (h : sendCommands d.queue d = .ok d') : ∃ d₁, Pass d command d₁ ∧ sendCommands d₁.queue d₁ = .ok d' := by
  have hfits := hs.2
  rw [hq] at h
  unfold sendCommands at h
  rw [if_neg (not_lt.mpr hfits)] at h
  obtain ⟨⟨r, d₁⟩, hd₁, h⟩ := bind_eq_ok.mp h
  have hone : d.hand 1 = { d with queue := queue, handed := d.handed ++ [command] } := by
    simp [MakerbotDriver.hand, hq]
  rw [← hone] at hd₁
  have hpass : Pass d command d₁ := ⟨hs, r, hd₁⟩
  have hq₁ : d₁.queue = queue := (List.cons.inj (hpass.queue.symm.trans hq)).2
  refine ⟨d₁, hpass, ?_⟩
  rw [hq₁]
  exact h

theorem Reaches.sendCommands {rv : ℤ} (hupdate : d.update gpx = .ok (rv, d')) (h : Reaches gpx d d₂) :
    ∃ d₃, MakerbotDriver.sendCommands d₂.queue d₂ = .ok d₃ := by
  induction h with
  | start hc hrefill hp hq hspace hlt =>
    rcases update_cases hupdate with ⟨hnot, -⟩ | ⟨-, d₁', d₂', d₃', h₁, h₂, -⟩
    · rw [hc] at hnot
      cases hnot
    · rw [hrefill] at h₁
      cases h₁
      rw [sendQueue, if_pos hp, processQueue, if_pos hq, hspace, bind_ok] at h₂
      dsimp only at h₂
      rw [if_pos hlt] at h₂
      exact ⟨_, h₂⟩
  | next _ hpass ih =>
    obtain ⟨d₃, hd₃⟩ := ih
    have hq := hpass.queue
    obtain ⟨hs, r, hr⟩ := hpass
    obtain ⟨d₁', ⟨-, r', hr'⟩, hrest⟩ := sendCommands_cons hq hs hd₃
    rw [hr] at hr'
    cases hr'
    exact ⟨d₃, hrest⟩

/-! ### Runs -/

/-- Every command that an update removes from the queue has been accepted. -/
def Delivers (gpx : Gpx σ) (d : MakerbotDriver σ) (e : MakerbotEvent) (_ : MakerbotDriver σ) : Prop :=
  ∀ arrivals, e = .update arrivals → ∀ d₁ command d₂, Reaches gpx (d.hear arrivals) d₁ → Pass d₁ command d₂ →
    Delivered d₁ command d₂

/-- Whenever an update comes to a command it can send, what arrives says that it is accepted. -/
def Answered (gpx : Gpx σ) (d : MakerbotDriver σ) (e : MakerbotEvent) (_ : MakerbotDriver σ) : Prop :=
  ∀ arrivals, e = .update arrivals → ∀ d₁ command, Reaches gpx (d.hear arrivals) d₁ → d₁.Sends command →
    d₁.Answers command

theorem delivers_iff {e : MakerbotEvent} (h : e.Step gpx atof d d') :
    Delivers gpx d e d' ↔ Answered gpx d e d' := by
  constructor
  · rintro hdelivers arrivals rfl d₁ command hreach hsends
    obtain ⟨⟨rv, d₂⟩, hupdate, -⟩ := map_eq_ok.mp h
    obtain ⟨d₃, hd₃⟩ := hreach.sendCommands hupdate
    obtain ⟨queue, hq⟩ := List.head?_eq_some_iff.mp hsends.1
    obtain ⟨d₄, hpass, -⟩ := sendCommands_cons hq hsends hd₃
    exact hpass.delivered_iff.mp (hdelivers arrivals rfl d₁ command d₄ hreach hpass)
  · intro hanswered arrivals he d₁ command d₂ hreach hpass
    exact hpass.delivered_iff.mpr (hanswered arrivals he d₁ command hreach hpass.1)

theorem run_of_job {t t' : Job σ} {es : List MakerbotEvent} (h : Run (Job.Step gpx atof) t es t') :
    Run (MakerbotEvent.Step gpx atof) t.driver es t'.driver :=
  h.map Job.driver fun _ _ _ hstep => hstep.1

/-- In a run every command that leaves the queue has been accepted if and only if the printer accepts
every command that the driver comes to. -/
theorem delivered_iff_answered {state : σ} {es : List MakerbotEvent} :
    RunWith (MakerbotEvent.Step gpx atof) (Delivers gpx) (init state) es d ↔
      RunWith (MakerbotEvent.Step gpx atof) (Answered gpx) (init state) es d :=
  runWith_iff (fun _ _ => True) (fun _ _ _ _ _ => delivers_iff) (fun _ _ _ _ _ _ _ => trivial) trivial

/-- The printer answers that its buffer overflows, and the command is gone. -/
theorem not_delivered_overflow : ¬ ∀ es d, Run (MakerbotEvent.Step Job.stepperGpx fun _ => 0) (init ()) es d →
    RunWith (MakerbotEvent.Step Job.stepperGpx fun _ => 0) (Delivers Job.stepperGpx) (init ()) es d := by
  intro hall
  obtain ⟨es, hrun⟩ := Job.run_printing
  have hprinting := run_of_job hrun
  let arrivals := Job.response [129, 0, 2, 0, 0] ++ Job.response [130]
  let d₁ : MakerbotDriver Unit := { Job.printing.hear arrivals with
    gcodeBuffer := Job.printed.gcodeBuffer
    queue := [[137, 31]]
    conversions := Job.printed.conversions }
  let d₂ : MakerbotDriver Unit := { d₁ with
    serial :=
      { reads := Job.response [130]
        written := Job.printing.serial.written ++ [packet [2]] }
    received := Job.printing.received ++ [(2, [129, 0, 2, 0, 0])] }
  let d₃ : MakerbotDriver Unit := { Job.printed with
    counter := 1
    received := d₂.received ++ [(137, [130])] }
  have hstep : MakerbotEvent.Step Job.stepperGpx (fun _ => 0) Job.printing
      (.update arrivals) { d₃ with counter := 2 } := by
    unfold MakerbotEvent.Step
    decide +kernel
  have hrefill : (Job.printing.hear arrivals).refillQueue Job.stepperGpx = .ok d₁ := by decide +kernel
  have hspace : d₁.requestBufferSpace = .ok (512, d₂) := by decide +kernel
  have hsend : (d₂.hand 1).sendPacket [137, 31] = .ok (true, d₃) := by decide +kernel
  have hreach : Reaches Job.stepperGpx (Job.printing.hear arrivals) d₂ :=
    .start rfl hrefill (by decide) (by decide) hspace (by decide)
  have hpass : Pass d₂ [137, 31] d₃ := ⟨⟨rfl, by decide⟩, true, hsend⟩
  have hwith := hall _ _ (hprinting.append (.cons hstep (.nil _)))
  obtain ⟨d', hbefore, hlast⟩ := Run.split hwith
  obtain rfl := Run.unique (fun _ _ _ _ h₁ h₂ => h₁.unique h₂) (hbefore.mono fun _ _ _ h => h.1) hprinting
  obtain ⟨d'', ⟨-, hdelivers⟩, -⟩ := hlast.cons_inv
  have haccepted := (hdelivers arrivals rfl d₂ [137, 31] d₃ hreach hpass).accepted (by decide)
  obtain ⟨payload, hpayload, hcode⟩ := haccepted
  have hlast := List.append_cancel_left hpayload
  rw [List.singleton_inj, Prod.mk.injEq] at hlast
  rw [← hlast.2] at hcode
  cases hcode

end MakerbotDriver
end Print3D
