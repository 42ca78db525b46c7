import Print3D.Server.Runs

/-! What the commands other than `gcodeAppend` can do, for any relation between the states
before and after that their single effects keep. -/
namespace Print3D
open CommandHandler Effects

def DriverCall.isAppend : DriverCall → Bool
  | .appendGCode .. => true
  | _ => false

namespace Server

variable {D : Type} {ops : DriverOps D} {files : Option Text → Except Text Text}
  {s s' : Server D} {o : Output} {client code : ℕ} {args : List Text} {rest : Text}
  {allowed : DriverCall → Prop} {R : Server D × Output → Server D × Output → Prop}

/-- A relation that the effects of the handlers keep, if they make only `allowed` calls. -/
structure Frame (R : Server D × Output → Server D × Output → Prop) (allowed : DriverCall → Prop) : Prop where
  refl : ∀ p, R p p
  trans : ∀ p q r, R p q → R q r → R p r
  send : ∀ s o cmd, R (s, o) (s, { o with sent := o.sent ++ [cmd] })
  cancelAll : ∀ s o exclude, R (s, o) (s.cancelAllTransactions exclude, o)
  call : ∀ s o driver call, allowed call → R (s, o) ({ s with driver := driver },
    { o with calls := o.calls ++ [call] })

/-! ### Effects -/

theorem within_sendCmd (hR : Frame R allowed) {fmt : List FormatArg} :
    Within R (sendCmd code fmt : Handler D Unit) := by
  unfold sendCmd
  refine .bind hR.trans (.lift hR.refl _) fun cmd => ?_
  cases cmd with
  | ok cmd => exact .modify fun p => hR.send p.1 p.2 cmd
  | error => exact .pure hR.refl _

theorem within_sendReply (hR : Frame R allowed) {message : Option Text} :
    Within R (sendReply code message : Handler D Unit) := within_sendCmd hR

theorem within_callDriver (hR : Frame R allowed) {α : Type} {call : DriverCall} (hcall : allowed call)
    {f : D → Option (α × D)} : Within R (callDriver call f : Handler D α) := by
  intro p a q h
  obtain ⟨s, o⟩ := p
  rw [callDriver_run] at h
  obtain ⟨r, -, he⟩ := Option.map_eq_some_iff.mp h
  cases he
  exact hR.call s o r.2 call hcall

theorem within_callDriver_bind (hR : Frame R allowed) {α β : Type} {call : DriverCall} (hcall : allowed call)
    {f : D → Option (α × D)} {g : α → Handler D β} (h : ∀ a, Within R (g a)) :
    Within R (callDriver call f >>= g) :=
  .bind hR.trans (within_callDriver hR hcall) h

theorem within_cancelAll_bind (hR : Frame R allowed) {β : Type} {exclude : Option ℕ} {g : Unit → Handler D β}
    (h : ∀ u, Within R (g u)) : Within R (modifyServer (cancelAllTransactions · exclude) >>= g) :=
  .bind hR.trans (.modify fun p => hR.cancelAll p.1 p.2 exclude) h

theorem within_lift_bind (hR : Frame R allowed) {α β : Type} {x : Option α} {f : α → Handler D β}
    (h : ∀ a, Within R (f a)) : Within R (liftM x >>= f) :=
  .bind hR.trans (.lift hR.refl x) h

theorem within_getDriver_bind (hR : Frame R allowed) {β : Type} {f : D → Handler D β}
    (h : ∀ a, Within R (f a)) : Within R (getDriver >>= f) :=
  .bind hR.trans (.bind hR.trans (.get hR.refl) fun _ => .pure hR.refl _) h

/-! ### Handlers -/

variable (ops) (files) (client) (buf : Text)

theorem within_hndTest (hR : Frame R allowed) : Within R (hndTest buf : Handler D Unit) := by
  refine within_lift_bind hR fun numArgs => .ite (fun _ => ?_) fun _ => within_sendCmd hR
  exact within_lift_bind hR fun arg => within_sendCmd hR

theorem within_hndGetTemperature (hR : Frame R allowed) : Within R (hndGetTemperature ops buf) := by
  refine within_lift_bind hR fun numArgs => .ite (fun _ => ?_) fun _ => within_sendReply hR
  refine within_getDriver_bind hR fun driver => within_lift_bind hR fun which => ?_
  cases which with
  | error => exact .failure
  | ok which =>
    dsimp only
    cases temperatureOf ops driver which with
    | some temp => exact within_sendCmd hR
    | none => exact within_sendReply hR

theorem within_hndGcodeClear (hR : Frame R allowed) (hcall : allowed .clearGCode) :
    Within R (hndGcodeClear ops client) :=
  within_cancelAll_bind hR fun _ => within_callDriver_bind hR hcall fun _ => within_sendReply hR

theorem within_hndGcodeAppendFile (hR : Frame R allowed)
    (hcall : ∀ gcode totalLines metaData, allowed (.appendGCode gcode totalLines metaData)) :
    Within R (hndGcodeAppendFile ops client buf files) := by
  refine within_lift_bind hR fun numArgs => .bind hR.trans ?_ fun _ => .bind hR.trans ?_ fun transaction => ?_
  · exact .ite (fun _ => within_sendReply hR) fun _ => .pure hR.refl _
  · exact .bind hR.trans (.get hR.refl) fun _ => .lift hR.refl _
  · refine .ite (fun _ => within_sendReply hR) fun _ => within_lift_bind hR fun filename => ?_
    cases files filename with
    | ok data => exact within_callDriver_bind hR (hcall _ _ _) fun _ => within_sendReply hR
    | error message => exact within_sendReply hR

theorem within_hndGcodeStartPrint (hR : Frame R allowed) (hcall : allowed .startPrint) :
    Within R (hndGcodeStartPrint ops) :=
  within_callDriver_bind hR hcall fun _ => within_sendReply hR

theorem within_hndGcodeStopPrint (hR : Frame R allowed) (hcall : ∀ endcode, allowed (.stopPrint endcode)) :
    Within R (hndGcodeStopPrint ops client buf) := by
  refine within_cancelAll_bind hR fun _ => within_lift_bind hR fun numArgs =>
    within_lift_bind hR fun endcode => ?_
  exact within_callDriver_bind hR (hcall endcode) fun _ => within_sendReply hR

theorem within_hndHeatup (hR : Frame R allowed) (hcall : ∀ temperature, allowed (.heatup temperature)) :
    Within R (hndHeatup ops buf) := by
  refine within_lift_bind hR fun numArgs => .ite (fun _ => ?_) fun _ => within_sendReply hR
  exact within_lift_bind hR fun temperature =>
    within_callDriver_bind hR (hcall temperature) fun _ => within_sendReply hR

theorem within_hndGetProgress (hR : Frame R allowed) : Within R (hndGetProgress ops) :=
  within_getDriver_bind hR fun _ => within_sendCmd hR

theorem within_hndGetState (hR : Frame R allowed) : Within R (hndGetState ops) :=
  within_getDriver_bind hR fun _ => within_sendCmd hR

variable {ops} {files} {client}

/-- A command that is not `gcodeAppend` keeps what its effects keep. -/
theorem Frame.command (hR : Frame R allowed) (hother : ∀ call, call.isAppend = false → allowed call)
    (hfile : code = ipcCmdqGcodeAppendFile → ∀ call, allowed call) (hcode : code ≠ ipcCmdqGcodeAppend)
    (h : Encodable code args) (hexec : s.exec ops files (.command client code args rest) = some (s', o)) :
    R (s, {}) (s', o) := by
  rw [exec, runCommand_run ops h] at hexec
  obtain ⟨⟨u, q⟩, hrun, he⟩ := Option.map_eq_some_iff.mp hexec
  cases he
  refine Within.forM hR.refl hR.trans (fun p hp => .ite (fun hpc => ?_) fun _ => .pure hR.refl _)
    (s, {}) u (s', o) hrun
  simp only [handlers, List.mem_cons, List.not_mem_nil, or_false] at hp
  rcases hp with rfl | rfl | rfl | rfl | rfl | rfl | rfl | rfl | rfl | rfl
  · exact within_hndTest _ hR
  · exact within_hndGetTemperature ops _ hR
  · exact within_hndGcodeClear ops client hR (hother _ rfl)
  · exact absurd hpc.symm hcode
  · exact within_hndGcodeAppendFile ops files client _ hR fun _ _ _ => hfile hpc.symm _
  · exact within_hndGcodeStartPrint ops hR (hother _ rfl)
  · exact within_hndGcodeStopPrint ops client _ hR fun _ => hother _ rfl
  · exact within_hndHeatup ops _ hR fun _ => hother _ rfl
  · exact within_hndGetProgress ops hR
  · exact within_hndGetState ops hR

end Server
end Print3D
