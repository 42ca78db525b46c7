import Print3D.Drivers.S3GCommands

/-! The buffers that the parser does not leave. -/
namespace Print3D

namespace S3GParser

/-- A row of pieces, each with all its operands: as many bytes as the table says, the payload that a
tool action announces, or a text with its NUL. -/
inductive Complete : Text → Prop
  | nil : Complete []
  | operands {code : UInt8} {operands rest : Text} : code ≠ 136 → code ≠ 149 → code ≠ 153 →
      operands.length = calcsize (commandTable code) → Complete rest →
      Complete (code :: operands ++ rest)
  | toolAction {tool action len : UInt8} {payload rest : Text} : payload.length = len.toNat → Complete rest →
      Complete (136 :: tool :: action :: len :: payload ++ rest)
  | text {code : UInt8} {fixed message rest : Text} : code = 149 ∨ code = 153 → fixed.length = 4 →
      0 ∉ message → Complete rest → Complete (code :: (fixed ++ (message ++ [0])) ++ rest)

variable {p p' : S3GParser} {a s x : Text} {out : List Text} {n fuel : ℕ}

theorem Complete.of_zero (h : Complete (0 :: s)) : Complete s := by
  generalize hbuf : 0 :: s = buf at h
  cases h with
  | nil => cases hbuf
  | operands _ _ _ hsize hrest =>
    obtain ⟨rfl, rfl⟩ := List.cons.inj hbuf
    obtain rfl := List.length_eq_zero_iff.mp hsize
    exact hrest
  | toolAction => cases hbuf
  | text hcode =>
    obtain ⟨rfl, -⟩ := List.cons.inj hbuf
    exact absurd hcode (by decide)

theorem read_eq_ok (h : (behind a s out).read n = .ok (x, p')) :
    ∃ rest, s = x ++ rest ∧ x.length = n ∧ p' = behind (a ++ x) rest out := by
  unfold read at h
  split_ifs at h with hn
  have hle : n ≤ s.length := by
    simp only [behind, List.length_append] at hn
    omega
  have hdrop : (behind a s out).buffer.drop (behind a s out).bufferPos = s := List.drop_left
  rw [hdrop] at h
  cases h
  have hlen := List.length_take_of_le hle
  refine ⟨s.drop n, (List.take_append_drop n s).symm, hlen, ?_⟩
  simp [behind, hlen]

theorem parseText_eq_ok {code : UInt8} (h : (behind a s out).parseText code = .ok p') :
    ∃ fixed message rest, s = fixed ++ (message ++ [0]) ++ rest ∧ fixed.length = 4 ∧ 0 ∉ message ∧
      p' = behind (a ++ (fixed ++ message)) (0 :: rest) (out ++ [code :: message]) := by
  unfold parseText at h
  dsimp only at h
  split_ifs at h with hlt
  have hdrop : (behind a s out).buffer.drop ((behind a s out).bufferPos + 4) = s.drop 4 := by
    simp [behind, List.drop_append]
  rw [hdrop] at h hlt
  cases h
  simp only [behind, List.length_append] at hlt
  have hfixed := List.length_take_of_le (show 4 ≤ s.length by omega)
  have hshort : (cString (s.drop 4)).length < (s.drop 4).length := by
    rw [List.length_drop]
    omega
  obtain ⟨rest, hrest⟩ := exists_cString_append hshort
  set message := cString (s.drop 4) with hm
  have hs : s = s.take 4 ++ (message ++ [0]) ++ rest := by
    conv_lhs => rw [← List.take_append_drop 4 s, hrest]
    simp
  refine ⟨s.take 4, message, rest, hs, hfixed, zero_notMem_cString _, ?_⟩
  have hbuffer : a ++ s = a ++ (s.take 4 ++ message) ++ 0 :: rest := by
    conv_lhs => rw [hs]
    simp
  have hpos : a.length + 4 + message.length = (a ++ (s.take 4 ++ message)).length := by
    simp only [List.length_append, hfixed]
    omega
  rw [behind, behind, push, hbuffer, hpos]

theorem parseToolAction_eq_ok (h : (behind a s out).parseToolAction = .ok p') :
    ∃ tool action len payload rest, s = tool :: action :: len :: payload ++ rest ∧ payload.length = len.toNat ∧
      p' = behind (a ++ tool :: action :: len :: payload) rest
        (out ++ [136 :: tool :: action :: len :: payload]) := by
  obtain ⟨⟨header, p₁⟩, hheader, h⟩ := Effects.bind_eq_ok.mp h
  obtain ⟨s₁, rfl, hlen, rfl⟩ := read_eq_ok hheader
  obtain ⟨⟨payload, p₂⟩, hpayload, h⟩ := Effects.bind_eq_ok.mp h
  obtain ⟨rest, rfl, hsize, rfl⟩ := read_eq_ok hpayload
  obtain ⟨tool, action, len, rfl⟩ := List.length_eq_three.mp hlen
  cases h
  refine ⟨tool, action, len, payload, rest, by simp, hsize, ?_⟩
  simp

/-- A step takes a piece from the rest of the buffer, or all of it but the NUL of a text. -/
theorem parseNextCommand_eq_ok (h : (behind a s out).parseNextCommand = .ok (true, p')) :
    ∃ b rest out', p' = behind b rest out' ∧ (Complete rest → Complete s) := by
  unfold parseNextCommand at h
  split_ifs at h
  · cases h
  obtain ⟨⟨code, p₁⟩, hcode, h⟩ := Effects.bind_eq_ok.mp h
  obtain ⟨s₁, rfl, hlen, rfl⟩ := read_eq_ok hcode
  obtain ⟨code, rfl⟩ := List.length_eq_one_iff.mp hlen
  obtain ⟨p₂, hoperands, h⟩ := Effects.bind_eq_ok.mp h
  cases h
  unfold parseOperands at hoperands
  rw [List.headD_cons] at hoperands
  have htext : ∀ c, code = 149 ∨ code = 153 → (behind (a ++ [code]) s₁ out).parseText c = .ok p' →
      ∃ b rest out', p' = behind b rest out' ∧ (Complete rest → Complete ([code] ++ s₁)) := by
    intro c htext hoperands
    obtain ⟨fixed, message, rest, rfl, hfixed, hmessage, rfl⟩ := parseText_eq_ok hoperands
    exact ⟨_, 0 :: rest, _, rfl, fun hrest => .text htext hfixed hmessage hrest.of_zero⟩
  split_ifs at hoperands with h136 h149 h153
  · subst h136
    obtain ⟨tool, action, len, payload, rest, rfl, hsize, rfl⟩ := parseToolAction_eq_ok hoperands
    exact ⟨_, rest, _, rfl, .toolAction hsize⟩
  · exact htext 149 (.inl h149) hoperands
  · exact htext 153 (.inr h153) hoperands
  · obtain ⟨⟨operands, p₂⟩, hread, h⟩ := Effects.bind_eq_ok.mp hoperands
    obtain ⟨rest, rfl, hsize, rfl⟩ := read_eq_ok hread
    cases h
    exact ⟨_, rest, _, rfl, .operands h136 h149 h153 hsize⟩

/-- A parse that ends has passed over complete pieces only. -/
theorem complete_of_parseAll (h : parseAll fuel (behind a s out) = .ok p') : Complete s := by
  induction fuel generalizing a s out with
  | zero => cases h
  | succ fuel ih =>
    obtain ⟨⟨more, p₁⟩, hnext, h⟩ := Effects.bind_eq_ok.mp h
    cases more with
    | true =>
      obtain ⟨b, rest, out', rfl, hcomplete⟩ := parseNextCommand_eq_ok hnext
      exact hcomplete (ih h)
    | false =>
      unfold parseNextCommand at hnext
      split_ifs at hnext with hend
      · have hs : s = [] := by simpa [behind] using hend
        rw [hs]
        exact .nil
      · obtain ⟨⟨code, p₂⟩, -, hnext⟩ := Effects.bind_eq_ok.mp hnext
        obtain ⟨p₃, -, hnext⟩ := Effects.bind_eq_ok.mp hnext
        cases hnext

theorem parseAll_of_complete (h : Complete s) (a : Text) (out : List Text) (hfuel : s.length < fuel) :
    ∃ p', parseAll fuel (behind a s out) = .ok p' := by
  induction h generalizing a out fuel with
  | nil =>
    obtain ⟨fuel, rfl⟩ := Nat.exists_eq_add_of_lt hfuel
    exact ⟨_, parseAll_end a out⟩
  | @operands code operands rest h136 h149 h153 hsize _ ih =>
    obtain ⟨fuel, rfl⟩ := Nat.exists_eq_add_of_lt hfuel
    rw [parseAll_succ (parseNextCommand_operands h136 h149 h153 hsize)]
    apply ih
    simp only [List.length_append, List.length_cons]
    omega
  | @toolAction tool action len payload rest hsize _ ih =>
    obtain ⟨fuel, rfl⟩ := Nat.exists_eq_add_of_lt hfuel
    have hlen : len = payload.length.toUInt8 := by
      rw [hsize]
      simp
    have hlt : payload.length < 256 := hsize ▸ len.toNat_lt
    rw [hlen, parseAll_succ (parseNextCommand_toolAction hlt)]
    apply ih
    simp only [List.length_append, List.length_cons]
    omega
  | @text code fixed message rest hcode hfixed hmessage _ ih =>
    simp only [List.length_append, List.length_cons, List.length_nil] at hfuel
    obtain ⟨fuel, rfl⟩ := Nat.exists_eq_add_of_lt hfuel
    have hfuel' : (fixed.length + (message.length + (0 + 1)) + 1 + rest.length + fuel + 1) =
        (fixed.length + (message.length + 1) + rest.length + fuel) + 1 + 1 := by omega
    rw [hfuel', parseAll_succ (parseNextCommand_text hcode hfixed hmessage),
      parseAll_succ parseNextCommand_zero]
    apply ih
    omega

/-- The loop over a buffer ends without having read outside of it, and its position never lies behind it. -/
def StaysInside (p : S3GParser) (buf : Text) : Prop :=
  (∃ p', (p.setBuffer buf).parseAll (buf.length + 1) = .ok p') ∧
    ∀ p', Relation.ReflTransGen (fun p p' => p.parseNextCommand = .ok (true, p')) (p.setBuffer buf) p' →
      p'.bufferPos ≤ buf.length

theorem parse_buffer_pos {buf : Text}
    (h : Relation.ReflTransGen (fun p p' => p.parseNextCommand = .ok (true, p')) (p.setBuffer buf) p') :
    p'.buffer = buf ∧ p'.bufferPos ≤ buf.length := by
  induction h with
  | refl => exact ⟨rfl, Nat.zero_le _⟩
  | tail _ hstep ih =>
    have hadv := parseNextCommand_advances hstep
    have hle := hadv.le
    rw [ih.1] at hle
    exact ⟨hadv.buffer.trans ih.1, hle⟩

/-- The parser stays inside its buffer if and only if the last command there is complete. -/
theorem staysInside_iff (p : S3GParser) (buf : Text) : p.StaysInside buf ↔ Complete buf := by
  have hstart : p.setBuffer buf = behind [] buf p.commands := rfl
  constructor
  · rintro ⟨⟨p', h⟩, -⟩
    rw [hstart] at h
    exact complete_of_parseAll h
  · intro h
    refine ⟨?_, fun p' hp' => (parse_buffer_pos hp').2⟩
    rw [hstart]
    exact parseAll_of_complete h [] p.commands (Nat.lt_succ_self _)

/-- A move without its operands. -/
theorem not_staysInside_cut : ¬ ∀ (p : S3GParser) (buf : Text), p.StaysInside buf := by
  intro h
  obtain ⟨p', hp'⟩ := (h {} [129]).1
  cases hp'

end S3GParser
end Print3D
