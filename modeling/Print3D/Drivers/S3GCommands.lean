import Print3D.Drivers.S3GParser

/-! The commands a printer understands, byte by byte, and what the parser makes of a row of them. -/
namespace Print3D

def operandBytes : Char → ℕ
  | 'b' => 1
  | 'B' => 1
  | 'h' => 2
  | 'H' => 2
  | 'i' => 4
  | 'I' => 4
  | 'f' => 4
  | _ => 0

/-- A command: a code of the table with its operands, an action of a tool, with its payload, or a text
with four bytes in front of it. -/
inductive S3GCommand
  | plain (code : UInt8) (operands : Text) (known : S3GParser.commandTable code ≠ "")
      (size : operands.length = ((S3GParser.commandTable code).toList.map operandBytes).sum)
  | toolAction (tool action : UInt8) (payload : Text) (size : payload.length < 256)
  | text (code : UInt8) (isText : code = 149 ∨ code = 153) (fixed : Text) (size : fixed.length = 4)
      (message : Text) (ends : 0 ∉ message)

namespace S3GCommand

/-- The command as it is sent. -/
def bytes : S3GCommand → Text
  | plain code operands _ _ => code :: operands
  | toolAction tool action payload _ => 136 :: tool :: action :: payload.length.toUInt8 :: payload
  | text code _ fixed _ message _ => code :: (fixed ++ (message ++ [0]))

/-- Whether the command shows a text: a message or the name of a build. -/
def ShowsText (c : S3GCommand) : Prop := c.bytes.head? = some 149 ∨ c.bytes.head? = some 153

/-- The entries the parser makes of a command: of one with a text, the text without what stands in front
of it, and its end by itself. -/
def entries : S3GCommand → List Text
  | text code _ _ _ message _ => [code :: message, [0]]
  | c => [c.bytes]

end S3GCommand

namespace S3GParser

/-- The sizes the parser computes are those of the operands. -/
theorem calcsize_commandTable (code : UInt8) :
    calcsize (commandTable code) = ((commandTable code).toList.map operandBytes).sum := by
  unfold commandTable
  split <;> decide

/-- The parser behind `a`, with `s` left to read and the commands `out` found so far. -/
def behind (a s : Text) (out : List Text) : S3GParser := ⟨a ++ s, a.length, out⟩

variable {a s x : Text} {out : List Text} {fuel : ℕ}

theorem read_behind {n : ℕ} (hn : x.length = n) :
    (behind a (x ++ s) out).read n = .ok (x, behind (a ++ x) s out) := by
  subst hn
  simp [behind, read]

@[simp] theorem push_behind (command : Text) :
    (behind a s out).push command = behind a s (out ++ [command]) := rfl

theorem parseNextCommand_behind {code : UInt8} {p : S3GParser}
    (h : (behind (a ++ [code]) s out).parseOperands code = .ok p) :
    (behind a (code :: s) out).parseNextCommand = .ok (true, p) := by
  have hread := @read_behind a s [code] out 1 rfl
  have hpos : ¬ (behind a (code :: s) out).bufferPos ≥ (behind a (code :: s) out).buffer.length := by
    simp [behind]
  rw [List.singleton_append] at hread
  unfold parseNextCommand
  rw [if_neg hpos, hread, Effects.bind_ok]
  exact Effects.bind_eq_ok.mpr ⟨p, h, rfl⟩

theorem parseNextCommand_operands {code : UInt8} {operands : Text} (h136 : code ≠ 136) (h149 : code ≠ 149)
    (h153 : code ≠ 153) (hsize : operands.length = calcsize (commandTable code)) :
    (behind a (code :: operands ++ s) out).parseNextCommand =
      .ok (true, behind (a ++ code :: operands) s (out ++ [code :: operands])) := by
  rw [List.cons_append]
  apply parseNextCommand_behind
  unfold parseOperands
  rw [if_neg h136, if_neg h149, if_neg h153, read_behind hsize, Effects.bind_ok]
  simp [pure, Except.pure]

theorem parseNextCommand_plain {code : UInt8} {operands : Text} (hknown : commandTable code ≠ "")
    (hsize : operands.length = ((commandTable code).toList.map operandBytes).sum) :
    (behind a (code :: operands ++ s) out).parseNextCommand =
      .ok (true, behind (a ++ code :: operands) s (out ++ [code :: operands])) := by
  apply parseNextCommand_operands
  · rintro rfl
    exact hknown rfl
  · rintro rfl
    exact hknown rfl
  · rintro rfl
    exact hknown rfl
  · rw [calcsize_commandTable]
    exact hsize

theorem parseNextCommand_toolAction {tool action : UInt8} {payload : Text} (hsize : payload.length < 256) :
    (behind a (136 :: tool :: action :: payload.length.toUInt8 :: payload ++ s) out).parseNextCommand =
      .ok (true, behind (a ++ 136 :: tool :: action :: payload.length.toUInt8 :: payload) s
        (out ++ [136 :: tool :: action :: payload.length.toUInt8 :: payload])) := by
  have hlen : payload.length = payload.length.toUInt8.toNat := by
    simpa using (Nat.mod_eq_of_lt hsize).symm
  have hheader := @read_behind (a ++ [136]) (payload ++ s) [tool, action, payload.length.toUInt8] out 3 rfl
  have hpayload := @read_behind (a ++ [136] ++ [tool, action, payload.length.toUInt8]) s payload out _ hlen
  apply parseNextCommand_behind
  unfold parseOperands parseToolAction
  rw [if_pos rfl]
  refine Effects.bind_eq_ok.mpr ⟨_, hheader, Effects.bind_eq_ok.mpr ⟨_, hpayload, ?_⟩⟩
  simp [pure, Except.pure]

theorem parseNextCommand_text {code : UInt8} {fixed message : Text} (hcode : code = 149 ∨ code = 153)
    (hfixed : fixed.length = 4) (hmessage : 0 ∉ message) :
    (behind a (code :: (fixed ++ (message ++ [0])) ++ s) out).parseNextCommand =
      .ok (true, behind (a ++ code :: (fixed ++ message)) (0 :: s) (out ++ [code :: message])) := by
  have htext : ∀ code, (behind (a ++ [code]) (fixed ++ (message ++ 0 :: s)) out).parseText code =
      .ok (behind (a ++ code :: (fixed ++ message)) (0 :: s) (out ++ [code :: message])) := by
    intro code
    have hstart : (a ++ [code]).length + 4 = (a ++ [code] ++ fixed).length := by simp [hfixed]
    have hdrop : (a ++ [code] ++ (fixed ++ (message ++ 0 :: s))).drop ((a ++ [code]).length + 4) =
        message ++ 0 :: s := by
      rw [hstart, ← List.append_assoc, List.drop_left]
    have hlt : (a ++ [code]).length + 4 + message.length <
        (a ++ [code] ++ (fixed ++ (message ++ 0 :: s))).length := by
      rw [hstart]
      simp only [List.length_append, List.length_cons]
      omega
    unfold parseText behind
    dsimp only
    rw [hdrop, cString_append_cons hmessage, if_pos hlt, hstart]
    simp [push, Nat.add_assoc, Nat.add_comm 1]
  have hrest : fixed ++ (message ++ [0]) ++ s = fixed ++ (message ++ 0 :: s) := by simp
  rw [List.cons_append, hrest]
  apply parseNextCommand_behind
  unfold parseOperands
  rcases hcode with rfl | rfl
  · exact htext 149
  · exact htext 153

/-- The NUL behind a text is taken for a command without operands. -/
theorem parseNextCommand_zero :
    (behind a (0 :: s) out).parseNextCommand = .ok (true, behind (a ++ [0]) s (out ++ [[0]])) :=
  @parseNextCommand_operands a s out 0 [] (by decide) (by decide) (by decide) rfl

theorem parseAll_succ {p p' : S3GParser} (h : p.parseNextCommand = .ok (true, p')) :
    parseAll (fuel + 1) p = parseAll fuel p' := by
  rw [parseAll, h]
  rfl

theorem parseAll_end (a : Text) (out : List Text) :
    parseAll (fuel + 1) (behind a [] out) = .ok (behind a [] out) := by
  have hend : (behind a [] out).parseNextCommand = .ok (false, behind a [] out) := if_pos (by simp [behind])
  rw [parseAll, hend]
  rfl

theorem parseAll_bytes (a s : Text) (out : List Text) (c : S3GCommand) : ∃ k ≤ c.bytes.length, ∀ fuel,
    parseAll (fuel + k) (behind a (c.bytes ++ s) out) =
      parseAll fuel (behind (a ++ c.bytes) s (out ++ c.entries)) := by
  cases c with
  | plain code operands hknown hsize =>
    exact ⟨1, by simp [S3GCommand.bytes], fun fuel => parseAll_succ (parseNextCommand_plain hknown hsize)⟩
  | toolAction tool action payload hsize =>
    exact ⟨1, by simp [S3GCommand.bytes], fun fuel => parseAll_succ (parseNextCommand_toolAction hsize)⟩
  | text code hcode fixed hfixed message hmessage =>
    refine ⟨2, ?_, fun fuel => ?_⟩
    · simp only [S3GCommand.bytes, List.length_cons, List.length_append]
      omega
    · have htext := @parseNextCommand_text a s out _ _ _ hcode hfixed hmessage
      have hafter : a ++ code :: (fixed ++ message) ++ [0] = a ++ code :: (fixed ++ (message ++ [0])) := by simp
      have hout : out ++ [code :: message] ++ [[0]] = out ++ [code :: message, [0]] := by simp
      have hzero := @parseNextCommand_zero (a ++ code :: (fixed ++ message)) s (out ++ [code :: message])
      rw [hafter, hout] at hzero
      exact (parseAll_succ htext).trans (parseAll_succ hzero)

theorem parseAll_behind (a : Text) (out : List Text) (cs : List S3GCommand)
    (hfuel : (cs.flatMap S3GCommand.bytes).length < fuel) :
    parseAll fuel (behind a (cs.flatMap S3GCommand.bytes) out) =
      .ok (behind (a ++ cs.flatMap S3GCommand.bytes) [] (out ++ cs.flatMap S3GCommand.entries)) := by
  induction cs generalizing a out fuel with
  | nil =>
    obtain ⟨fuel, rfl⟩ := Nat.exists_eq_add_of_lt hfuel
    rw [List.flatMap_nil, List.flatMap_nil, List.append_nil, List.append_nil]
    exact parseAll_end a out
  | cons c cs ih =>
    rw [List.flatMap_cons, List.length_append] at hfuel
    rw [List.flatMap_cons, List.flatMap_cons, ← List.append_assoc, ← List.append_assoc]
    obtain ⟨k, hk, hstep⟩ := parseAll_bytes a (cs.flatMap S3GCommand.bytes) out c
    obtain ⟨rest, rfl⟩ := Nat.exists_eq_add_of_le' (show k ≤ fuel by omega)
    rw [hstep rest]
    exact ih _ _ (by omega)

end S3GParser

namespace S3GCommand

/-- A command without a text is an entry as it is, one with a text makes two. -/
theorem entries_cases (c : S3GCommand) :
    (¬ c.ShowsText ∧ c.entries = [c.bytes]) ∨ (c.ShowsText ∧ c.entries.length = 2) := by
  cases c with
  | plain code operands hknown hsize =>
    refine .inl ⟨?_, rfl⟩
    rintro (h | h)
    all_goals
      cases Option.some.inj h
      exact hknown rfl
  | toolAction tool action payload hsize => exact .inl ⟨by simp [ShowsText, bytes], rfl⟩
  | text code hcode fixed hfixed message hmessage =>
    exact .inr ⟨hcode.imp (congrArg some) (congrArg some), rfl⟩

theorem length_le_entries (cs : List S3GCommand) : cs.length ≤ (cs.flatMap entries).length := by
  induction cs with
  | nil => exact le_rfl
  | cons c cs ih =>
    rw [List.flatMap_cons, List.length_append, List.length_cons]
    rcases c.entries_cases with ⟨-, h⟩ | ⟨-, h⟩
    · rw [h, List.length_singleton]
      omega
    · omega

/-- The entries are the commands if none of these has a text. -/
theorem flatMap_entries_iff (cs : List S3GCommand) :
    cs.flatMap entries = cs.map bytes ↔ ∀ c ∈ cs, ¬ c.ShowsText := by
  induction cs with
  | nil => simp
  | cons c cs ih =>
    rw [List.flatMap_cons, List.map_cons, List.forall_mem_cons, ← ih]
    rcases c.entries_cases with ⟨hc, h⟩ | ⟨hc, h⟩
    · rw [h, List.singleton_append, List.cons.injEq, and_iff_right rfl, and_iff_right hc]
    · refine iff_of_false (fun heq => ?_) fun hall => hall.1 hc
      have hlen := congrArg List.length heq
      have hle := length_le_entries cs
      rw [List.length_append, h, List.length_cons, List.length_map] at hlen
      omega

end S3GCommand

namespace S3GParser

/-- The parser appends the entries of a stream to the commands it has. -/
theorem parseAll_commands (p : S3GParser) (cs : List S3GCommand) :
    ((p.setBuffer (cs.flatMap S3GCommand.bytes)).parseAll ((cs.flatMap S3GCommand.bytes).length + 1)).map
      (·.commands) = .ok (p.commands ++ cs.flatMap S3GCommand.entries) := by
  have hstart : p.setBuffer (cs.flatMap S3GCommand.bytes) =
      behind [] (cs.flatMap S3GCommand.bytes) p.commands := rfl
  rw [hstart, parseAll_behind [] p.commands cs (Nat.lt_succ_self _)]
  rfl

/-- The parser finds exactly the commands that were put together, if none of them has a text. -/
theorem parseAll_splits_iff (p : S3GParser) (cs : List S3GCommand) :
    ((p.setBuffer (cs.flatMap S3GCommand.bytes)).parseAll ((cs.flatMap S3GCommand.bytes).length + 1)).map
        (·.commands) = .ok (p.commands ++ cs.map S3GCommand.bytes) ↔
      ∀ c ∈ cs, ¬ c.ShowsText := by
  rw [parseAll_commands, ← S3GCommand.flatMap_entries_iff]
  constructor
  · intro h
    exact List.append_cancel_left (Except.ok.inj h)
  · intro h
    rw [h]

/-- A message loses the four bytes in front of its text, and its end becomes a command. -/
theorem parseAll_message : ¬ ∀ (p : S3GParser) (cs : List S3GCommand),
    ((p.setBuffer (cs.flatMap S3GCommand.bytes)).parseAll ((cs.flatMap S3GCommand.bytes).length + 1)).map
      (·.commands) = .ok (p.commands ++ cs.map S3GCommand.bytes) := by
  intro h
  have := h {} [.text 149 (.inl rfl) [0, 0, 0, 0] rfl (ascii "A") (by decide)]
  revert this
  decide

end S3GParser
end Print3D
