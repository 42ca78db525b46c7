import Print3D.Ipc.TypedArgs
import Print3D.Server.Replies

/-! Whether the handlers stay in the arguments they are sent. -/
namespace Print3D
open CommandHandler Effects

/-- The driver returns from the call of a request, and the text of an error fits its reply. -/
def Request.Returns {D : Type} (ops : DriverOps D) (files : Option Text → Except Text Text) (s : Server D)
    (client : ℕ) (args : List Text) : Request → Prop
  | .gcodeAppend => ∀ trx chunk, s.clients client = some trx → Chunk.ofArgs args = some chunk →
    chunk.last = true →
      (ops.appendGCode s.driver (addChunk trx chunk).buffer chunk.totalLines (some chunk.metaData)).isSome
  | .gcodeAppendFile => match files (args[0]?.map cString) with
      | .ok data => (ops.appendGCode s.driver (cString data) (-1) none).isSome
      | .error message => Fits message
  | .gcodeClear => (ops.clearGCode s.driver).isSome
  | .gcodeStartPrint => (ops.startPrint s.driver).isSome
  | .gcodeStopPrint => (ops.stopPrint s.driver (endCode args)).isSome
  | .heatup => ∀ a temperature, args[0]? = some a → readShort a = some temperature →
      (ops.heatup s.driver temperature).isSome
  | _ => True

/-- The numbers that a request has for arguments are as long as their types, and the answer to a test fits
an `int`. -/
def Request.WideArgs (args : List Text) : Request → Prop
  | .test => ∀ a, args[0]? = some a → Fits (testAnswer (cString a))
  | .getTemperature | .heatup => ∀ a, args[0]? = some a → 2 ≤ a.length
  | .gcodeAppend => WideNumbers args
  | _ => True

namespace Server

variable {D : Type} {ops : DriverOps D} {files : Option Text → Except Text Text} {s : Server D}
  {client code : ℕ} {args : List Text} {rest : Text} {trx : Transaction}

theorem wideNumbers_nil : WideNumbers [] := by
  refine ⟨fun a h => ?_, fun i _ _ a h => ?_⟩
  · cases h
  · rw [List.getElem?_nil] at h
    cases h

/-- A chunk is read if its numbers are wide enough; what follows does not read arguments. -/
theorem exec_gcodeAppend_isSome (hreturns : Request.gcodeAppend.Returns ops files s client args)
    (htrx : s.clients client = some trx) (h : Encodable ipcCmdqGcodeAppend args) :
    (s.exec ops files (.command client ipcCmdqGcodeAppend args rest)).isSome ↔ WideNumbers args := by
  rw [exec_gcodeAppend htrx h]
  split_ifs with hargs
  · subst hargs
    exact iff_of_true rfl wideNumbers_nil
  have hwide := chunk_isSome args
  rw [and_iff_right hargs] at hwide
  rw [← hwide]
  cases hchunk : Chunk.ofArgs args with
  | none => rfl
  | some chunk =>
    rw [Option.bind_some]
    split_ifs with hlast
    · rw [Option.isSome_map]
      exact iff_of_true (hreturns trx chunk htrx hchunk hlast) rfl
    · exact iff_of_true rfl rfl

theorem exec_gcodeAppendFile_isSome (hreturns : Request.gcodeAppendFile.Returns ops files s client args)
    (htrx : s.clients client = some trx) (h : Encodable ipcCmdqGcodeAppendFile args) :
    (s.exec ops files (.command client ipcCmdqGcodeAppendFile args rest)).isSome := by
  rw [exec_gcodeAppendFile htrx h]
  split_ifs
  · rfl
  unfold Request.Returns at hreturns
  cases hfile : files (args[0]?.map cString) with
  | ok data =>
    rw [hfile] at hreturns
    dsimp only
    rw [Option.isSome_map]
    exact hreturns
  | error message =>
    rw [hfile] at hreturns
    dsimp only
    rw [if_pos hreturns]
    rfl

theorem exec_test_isSome (h : Encodable Request.test.code args) :
    (s.exec ops files (.command client Request.test.code args rest)).isSome ↔ Request.test.WideArgs args := by
  unfold Request.WideArgs
  rw [exec_request _ h, Option.isSome_map]
  unfold Request.handler
  dsimp only
  rw [hndTest_run h]
  cases args[0]? with
  | none => exact iff_of_true rfl nofun
  | some a =>
    simp only [Option.some.injEq, forall_eq']
    split_ifs with hfits
    · exact iff_of_true rfl hfits
    · exact iff_of_false Bool.false_ne_true hfits

theorem exec_getTemperature_isSome (h : Encodable Request.getTemperature.code args) :
    (s.exec ops files (.command client Request.getTemperature.code args rest)).isSome ↔
      Request.getTemperature.WideArgs args := by
  unfold Request.WideArgs
  rw [exec_request _ h, Option.isSome_map]
  unfold Request.handler
  dsimp only
  rw [hndGetTemperature_run h]
  cases args[0]? with
  | none => exact iff_of_true rfl nofun
  | some a =>
    simp only [Option.some.injEq, forall_eq', Option.isSome_map]
    exact readShort_isSome a

theorem exec_heatup_isSome (hreturns : Request.heatup.Returns ops files s client args)
    (h : Encodable Request.heatup.code args) :
    (s.exec ops files (.command client Request.heatup.code args rest)).isSome ↔
      Request.heatup.WideArgs args := by
  unfold Request.WideArgs
  rw [exec_request _ h, Option.isSome_map]
  unfold Request.handler
  dsimp only
  rw [hndHeatup_run h]
  cases ha : args[0]? with
  | none => exact iff_of_true rfl nofun
  | some a =>
    simp only [Option.some.injEq, forall_eq', ← readShort_isSome]
    cases hread : readShort a with
    | none => rfl
    | some temperature =>
      rw [Option.bind_some, Option.isSome_map]
      exact iff_of_true (hreturns a temperature ha hread) rfl

theorem exec_request_isSome (htrx : s.clients client = some trx) (request : Request)
    (hreturns : request.Returns ops files s client args) (h : Encodable request.code args) :
    (s.exec ops files (.command client request.code args rest)).isSome ↔ request.WideArgs args := by
  cases request with
  | test => exact exec_test_isSome h
  | getTemperature => exact exec_getTemperature_isSome h
  | heatup => exact exec_heatup_isSome hreturns h
  | gcodeAppend => exact exec_gcodeAppend_isSome hreturns htrx h
  | gcodeAppendFile => exact iff_of_true (exec_gcodeAppendFile_isSome hreturns htrx h) trivial
  | gcodeClear =>
    have hexec : s.exec ops files (.command client Request.gcodeClear.code args rest) = _ := exec_gcodeClear h
    rw [hexec, Option.isSome_map]
    exact iff_of_true hreturns trivial
  | gcodeStartPrint =>
    have hexec : s.exec ops files (.command client Request.gcodeStartPrint.code args rest) = _ :=
      exec_gcodeStartPrint h
    rw [hexec, Option.isSome_map]
    exact iff_of_true hreturns trivial
  | gcodeStopPrint =>
    have hexec : s.exec ops files (.command client Request.gcodeStopPrint.code args rest) = _ :=
      exec_gcodeStopPrint h
    rw [hexec, Option.isSome_map]
    exact iff_of_true hreturns trivial
  | getProgress =>
    rw [exec_request _ h]
    unfold Request.handler
    rw [hndGetProgress_run]
    exact iff_of_true rfl trivial
  | getState =>
    rw [exec_request _ h]
    unfold Request.handler
    rw [hndGetState_run]
    exact iff_of_true rfl trivial

theorem exec_other (hcode : ∀ request : Request, request.code ≠ code) (h : Encodable code args) :
    s.exec ops files (.command client code args rest) = some (s, {}) := by
  have hnone : code ∉ (handlers ops client (encode code args ++ rest) files).map (·.1) := by
    rw [handlers_eq, List.map_map]
    intro hmem
    obtain ⟨request, -, hrequest⟩ := List.mem_map.mp hmem
    exact hcode request hrequest
  rw [exec, runCommand_run ops h, forM_of_notMem hnone]
  rfl

theorem code_injective : Function.Injective Request.code := by
  intro request request' h
  cases request <;> cases request' <;> first | rfl | cases h

/-- A reader of a number stays in the argument if and only if the index is not negative and the argument,
where it is there and copied, is wide enough; and a command whose calls return is run if and only if the
numbers its handler reads are. -/
theorem respectsWidths_iff :
    (∀ (grants : ℕ → Bool) (code : ℕ) (args : List Text) (rest : Text) (argidx : ℤ), Encodable code args →
      (RespectsWidth 2 args argidx (ipcCmdGetShortArgInto grants (encode code args ++ rest) argidx) ↔
          HasWidth grants 2 args argidx) ∧
        (RespectsWidth 4 args argidx (ipcCmdGetLongArgInto grants (encode code args ++ rest) argidx) ↔
          HasWidth grants 4 args argidx)) ∧
    ∀ (s : Server D) (client : ℕ) (trx : Transaction) (code : ℕ) (args : List Text) (rest : Text),
      s.clients client = some trx → Encodable code args →
        (∀ request : Request, request.code = code → request.Returns ops files s client args) →
        ((s.exec ops files (.command client code args rest)).isSome ↔
          ∀ request : Request, request.code = code → request.WideArgs args) := by
  refine ⟨fun grants code args rest argidx h => ⟨respectsWidth_iff h, respectsWidth_iff h⟩, ?_⟩
  intro s client trx code args rest htrx h hreturns
  by_cases hcode : ∃ request : Request, request.code = code
  · obtain ⟨request, rfl⟩ := hcode
    rw [exec_request_isSome htrx request (hreturns request rfl) h]
    constructor
    · intro hwide request' heq
      rwa [code_injective heq]
    · exact fun hwide => hwide request rfl
  · have hnone : ∀ request : Request, request.code ≠ code := fun request heq => hcode ⟨request, heq⟩
    rw [exec_other hnone h]
    exact iff_of_true rfl fun request heq => absurd heq (hnone request)

theorem respectsWidths_heatup :
    (RespectsWidth 2 [[0, 200]] 0
        (ipcCmdGetShortArgInto heap (encode ipcCmdqHeatup [[0, 200]] ++ []) 0) ↔
      HasWidth heap 2 [[0, 200]] 0) ∧
    ((Server.exec (MarlinDriver.ops fun _ => 0) (fun _ => .error [])
        { driver := { isConnected := true }, clients := fun _ => some {} }
        (.command 0 ipcCmdqHeatup [[0, 200]] [])).isSome ↔
      ∀ request : Request, request.code = ipcCmdqHeatup → request.WideArgs [[0, 200]]) := by
  have h : Encodable ipcCmdqHeatup [[0, 200]] := ⟨by decide, by decide, by decide⟩
  have hall := @respectsWidths_iff MarlinDriver (MarlinDriver.ops fun _ => 0) fun _ => .error []
  refine ⟨(hall.1 heap ipcCmdqHeatup [[0, 200]] [] 0 h).1,
    hall.2 { driver := { isConnected := true }, clients := fun _ => some {} } 0 {} ipcCmdqHeatup [[0, 200]] []
      rfl h fun request hcode => ?_⟩
  obtain rfl := code_injective (hcode.trans (show ipcCmdqHeatup = Request.heatup.code from rfl))
  intro a temperature ha hread
  obtain rfl := Option.some.inj ha
  obtain rfl := Option.some.inj ((show readShort [0, 200] = some 200 by decide).symm.trans hread)
  decide

/-- The temperature of a heatup command has one byte only. -/
theorem not_respectsWidth_byte : ¬ ∀ (grants : ℕ → Bool) code args rest argidx, Encodable code args →
    RespectsWidth 2 args argidx (ipcCmdGetShortArgInto grants (encode code args ++ rest) argidx) := by
  intro h
  have hargs : Encodable ipcCmdqHeatup [[200]] := ⟨by decide, by decide, by decide⟩
  have hwidth := (respectsWidth_iff hargs).mp (h heap ipcCmdqHeatup [[200]] [] 0 hargs)
  exact absurd (hwidth.2 [200] rfl rfl) (by decide)

end Server
end Print3D
