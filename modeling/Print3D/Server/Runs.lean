import Print3D.Server.Handlers
import Print3D.Library.Transition

/-! Runs of the server: clients come and go, and their commands are run one at a time in
any order. -/
namespace Print3D
open CommandHandler Effects

inductive ServerEvent
  | connect
  | disconnect (client : ℕ)
  /-- A complete command at the start of the client's buffer, and the bytes behind it. -/
  | command (client code : ℕ) (args : List Text) (rest : Text)
  deriving DecidableEq

namespace Server

variable {D : Type} {ops : DriverOps D} {files : Option Text → Except Text Text}
  {s s' : Server D} {o o' : Output} {client code : ℕ} {args : List Text} {rest : Text} {trx : Transaction}

def connect (s : Server D) : Server D :=
  { s with
    clients := Function.update s.clients s.accepted (some {})
    accepted := s.accepted + 1 }

def disconnect (s : Server D) (client : ℕ) : Server D :=
  { s with clients := Function.update s.clients client none }

/-- What an event does, with the output of the handlers. -/
def exec (ops : DriverOps D) (files : Option Text → Except Text Text) (s : Server D) :
    ServerEvent → Option (Server D × Output)
  | .connect => some (s.connect, {})
  | .disconnect client => some (s.disconnect client, {})
  | .command client code args rest =>
    ((runCommand ops client (encode code args ++ rest) files).run (s, {})).map (·.2)

/-- A command comes from a connected client, and fits its format. -/
def Valid (s : Server D) : ServerEvent → Prop
  | .connect => True
  | .disconnect client => s.clients client ≠ none
  | .command client code args _ => s.clients client ≠ none ∧ Encodable code args

def Step (ops : DriverOps D) (files : Option Text → Except Text Text) (s : Server D)
    (l : ServerEvent × Output) (s' : Server D) : Prop :=
  s.Valid l.1 ∧ s.exec ops files l.1 = some (s', l.2)

/-! ### Single commands -/

theorem exec_gcodeClear (h : Encodable ipcCmdqGcodeClear args) :
    s.exec ops files (.command client ipcCmdqGcodeClear args rest) = (ops.clearGCode s.driver).map fun driver =>
      ({ s.cancelAllTransactions (some client) with driver := driver },
        { sent := [okReply], calls := [.clearGCode] }) := by
  rw [exec, runCommand_gcodeClear ops h, hndGcodeClear_run, Option.map_map]
  rfl

theorem exec_gcodeStopPrint (h : Encodable ipcCmdqGcodeStopprint args) :
    s.exec ops files (.command client ipcCmdqGcodeStopprint args rest) =
      (ops.stopPrint s.driver (endCode args)).map fun p =>
        ({ s.cancelAllTransactions (some client) with driver := p.2 },
          { sent := [okReply], calls := [.stopPrint (endCode args)] }) := by
  rw [exec, runCommand_gcodeStopPrint ops h, hndGcodeStopPrint_run ops h, Option.map_map]
  rfl

theorem exec_gcodeAppend (htrx : s.clients client = some trx) (h : Encodable ipcCmdqGcodeAppend args) :
    s.exec ops files (.command client ipcCmdqGcodeAppend args rest) =
      if args = [] then some (s, { sent := [missingArgument] })
      else (Chunk.ofArgs args).bind fun chunk =>
        if chunk.last then
          (ops.appendGCode s.driver (addChunk trx chunk).buffer chunk.totalLines (some chunk.metaData)).map
            fun p => ({ s with driver := p.2 }.setTransaction client
                { addChunk trx chunk with buffer := [], active := false },
              { sent := notice trx ++ [if p.1 = .ok then okReply else addFailed p.1]
                calls := [.appendGCode (addChunk trx chunk).buffer chunk.totalLines (some chunk.metaData)] })
        else some (s.setTransaction client (addChunk trx chunk), { sent := notice trx ++ [okReply] }) := by
  rw [exec, runCommand_gcodeAppend ops h]
  split_ifs with hargs
  · subst hargs
    rw [hndGcodeAppend_nil ops htrx h]
    rfl
  · rw [hndGcodeAppend_run ops htrx h hargs]
    cases Chunk.ofArgs args with
    | none => rfl
    | some chunk =>
      rw [Option.bind_some, Option.bind_some]
      split_ifs with hlast
      · rw [passTransaction_run, Option.map_map]
        rfl
      · rw [StateT.run_bind, modifyServer_run, Option.bind_eq_bind, Option.bind_some, sendOk_run]
        rfl

theorem step_keptChunk {chunk : Chunk} (htrx : s.clients client = some trx)
    (h : Encodable ipcCmdqGcodeAppend args)
    (hchunk : Chunk.ofArgs args = some chunk) (hlast : chunk.last = false) :
    s.Step ops files (.command client ipcCmdqGcodeAppend args rest, { sent := notice trx ++ [okReply] })
      (s.setTransaction client (addChunk trx chunk)) := by
  have hargs : args ≠ [] := by
    rintro rfl
    cases hchunk
  refine ⟨⟨by simp [htrx], h⟩, ?_⟩
  rw [exec_gcodeAppend htrx h, if_neg hargs, hchunk, Option.bind_some, if_neg (by simp [hlast])]

theorem exec_lastChunk {chunk : Chunk} (htrx : s.clients client = some trx)
    (h : Encodable ipcCmdqGcodeAppend args)
    (hchunk : Chunk.ofArgs args = some chunk) (hlast : chunk.last = true) :
    s.exec ops files (.command client ipcCmdqGcodeAppend args rest) =
      (ops.appendGCode s.driver (addChunk trx chunk).buffer chunk.totalLines (some chunk.metaData)).map fun p =>
        ({ s with driver := p.2 }.setTransaction client
          { addChunk trx chunk with buffer := [], active := false },
          { sent := notice trx ++ [if p.1 = .ok then okReply else addFailed p.1]
            calls := [.appendGCode (addChunk trx chunk).buffer chunk.totalLines (some chunk.metaData)] }) := by
  have hargs : args ≠ [] := by
    rintro rfl
    cases hchunk
  rw [exec_gcodeAppend htrx h, if_neg hargs, hchunk, Option.bind_some, if_pos hlast]

theorem step_passedChunk {chunk : Chunk} {gsr : GcodeSetResult} {driver : D}
    (htrx : s.clients client = some trx)
    (h : Encodable ipcCmdqGcodeAppend args) (hchunk : Chunk.ofArgs args = some chunk)
    (hlast : chunk.last = true)
    (hcall : ops.appendGCode s.driver (addChunk trx chunk).buffer chunk.totalLines (some chunk.metaData) =
      some (gsr, driver)) :
    s.Step ops files (.command client ipcCmdqGcodeAppend args rest,
        { sent := notice trx ++ [if gsr = .ok then okReply else addFailed gsr]
          calls := [.appendGCode (addChunk trx chunk).buffer chunk.totalLines (some chunk.metaData)] })
      ({ s with driver := driver }.setTransaction client
        { addChunk trx chunk with buffer := [], active := false }) := by
  refine ⟨⟨by simp [htrx], h⟩, ?_⟩
  rw [exec_lastChunk htrx h hchunk hlast, hcall]
  rfl

/-- All that a `gcodeAppend` command can do. -/
theorem append_cases (htrx : s.clients client = some trx) (h : Encodable ipcCmdqGcodeAppend args)
    (hexec : s.exec ops files (.command client ipcCmdqGcodeAppend args rest) = some (s', o)) :
    (args = [] ∧ s' = s ∧ o = { sent := [missingArgument] }) ∨
    ∃ chunk, Chunk.ofArgs args = some chunk ∧
      ((chunk.last = false ∧ s' = s.setTransaction client (addChunk trx chunk) ∧
          o = { sent := notice trx ++ [okReply] }) ∨
        (chunk.last = true ∧ ∃ gsr driver,
          ops.appendGCode s.driver (addChunk trx chunk).buffer chunk.totalLines (some chunk.metaData) =
            some (gsr, driver) ∧
          s' = { s with driver := driver }.setTransaction client
            { addChunk trx chunk with buffer := [], active := false } ∧
          o = { sent := notice trx ++ [if gsr = .ok then okReply else addFailed gsr]
                calls := [.appendGCode (addChunk trx chunk).buffer chunk.totalLines
                  (some chunk.metaData)] })) := by
  rw [exec_gcodeAppend htrx h] at hexec
  split_ifs at hexec with hargs
  · cases hexec
    exact .inl ⟨hargs, rfl, rfl⟩
  · obtain ⟨chunk, hchunk, hexec⟩ := Option.bind_eq_some_iff.mp hexec
    refine .inr ⟨chunk, hchunk, ?_⟩
    split_ifs at hexec with hlast
    · obtain ⟨⟨gsr, driver⟩, hgsr, he⟩ := Option.map_eq_some_iff.mp hexec
      cases he
      exact .inr ⟨hlast, gsr, driver, hgsr, rfl, rfl⟩
    · cases hexec
      exact .inl ⟨by simpa using hlast, rfl, rfl⟩

end Server
end Print3D
