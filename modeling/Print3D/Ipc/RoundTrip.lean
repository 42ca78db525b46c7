import Print3D.Ipc.Addresses

/-! Building and reading a message are inverse to each other. -/
namespace Print3D
open FixedWidth LengthPrefixed

variable {grants : ℕ → Bool} {buf r : Text} {code : ℕ} {args : List Text}

/-! ### Building -/

/-- `ipc_cmd_add_arg` for each argument. -/
def addArgs (grants : ℕ → Bool) (cmd : Text) : List Text → Option (Except ℤ Text)
  | [] => some (.ok cmd)
  | a :: args => do
    match ← ipcCmdAddArg grants cmd (some a) with
    | .ok cmd => addArgs grants cmd args
    | .error rv => some (.error rv)

/-- `ipc_cmd_set`, then `ipc_cmd_add_arg` for each argument. -/
def buildCmd (grants : ℕ → Bool) (code : ℕ) (args : List Text) : Option (Except ℤ Text) :=
  match ipcCmdSet grants code with
  | .ok cmd => addArgs grants cmd args
  | .error rv => some (.error rv)

theorem Encodable.of_append {bs : List Text} (h : Encodable code (args ++ bs)) : Encodable code args := by
  have hargs := h.args_le
  have hsize := h.size_lt
  rw [List.length_append] at hargs
  rw [encode_length, fields_append, List.length_append] at hsize
  refine ⟨h.code_lt, by omega, ?_⟩
  rw [encode_length]
  omega

theorem ipcCmdSet_eq (hgrants : ∀ n, 0 < n → grants n = true) (code : ℕ) :
    ipcCmdSet grants code = .ok (encode code []) := by
  rw [ipcCmdSet, hgrants 4 (by omega)]
  simp [encode]

theorem ipcCmdAddArg_encode (hgrants : ∀ n, 0 < n → grants n = true) (arg : Option Text)
    (h : Encodable code (args ++ [arg.getD []])) :
    ipcCmdAddArg grants (encode code args) arg = some (.ok (encode code (args ++ [arg.getD []]))) := by
  generalize ha : arg.getD [] = a at h ⊢
  have hsize := h.size_lt
  have hlen := encode_length code args
  rw [encode_length, fields_append, List.length_append, fields_cons, fields_nil, List.append_nil,
    field_length] at hsize
  have hcount := readNs_count h.of_append (bigEndian 4 a.length ++ a)
  rw [← List.append_assoc] at hcount
  have htext : encode code args ++ bigEndian 4 a.length ++ a =
      bigEndian 2 code ++ bigEndian 2 args.length ++ (fields 4 args ++ field 4 a) := by
    simp only [encode, field, List.append_assoc]
  have htake : (encode code args ++ bigEndian 4 a.length ++ a).take 2 = bigEndian 2 code := by
    rw [htext, List.append_assoc]
    exact List.take_left' (bigEndian_length ..)
  have hdrop : (encode code args ++ bigEndian 4 a.length ++ a).drop 4 = fields 4 args ++ field 4 a := by
    rw [htext]
    apply List.drop_left'
    rw [List.length_append, bigEndian_length, bigEndian_length]
  unfold ipcCmdAddArg
  dsimp only
  rw [ha, if_neg (by omega), if_pos (hgrants _ (by omega)), hcount, Option.bind_eq_bind,
    Option.bind_some, htake, hdrop]
  simp [encode]

theorem addArgs_encode (hgrants : ∀ n, 0 < n → grants n = true) {bs : List Text}
    (h : Encodable code (args ++ bs)) :
    addArgs grants (encode code args) bs = some (.ok (encode code (args ++ bs))) := by
  induction bs generalizing args with
  | nil => simp [addArgs]
  | cons b bs ih =>
    have hassoc : args ++ b :: bs = args ++ [b] ++ bs := by simp
    rw [hassoc] at h ⊢
    have hstep := ipcCmdAddArg_encode hgrants (some b) h.of_append
    rw [Option.getD_some] at hstep
    rw [addArgs, hstep, Option.bind_eq_bind, Option.bind_some]
    exact ih h

theorem buildCmd_eq (hgrants : ∀ n, 0 < n → grants n = true) (h : Encodable code args) :
    buildCmd grants code args = some (.ok (encode code args)) := by
  rw [buildCmd, ipcCmdSet_eq hgrants]
  exact addArgs_encode hgrants h

/-- The arguments a format adds. -/
def payloads (fmt : List FormatArg) : List Text := fmt.filterMap fun a => a.bytes.map (·.getD [])

theorem constructArgs_encode (hgrants : ∀ n, 0 < n → grants n = true) {fmt : List FormatArg}
    (h : Encodable code (args ++ payloads fmt)) :
    constructArgs grants (encode code args) fmt = some (encode code (args ++ payloads fmt)) := by
  induction fmt generalizing args with
  | nil => simp [constructArgs, payloads]
  | cons a fmt ih =>
    cases hb : a.bytes with
    | none =>
      have hp : payloads (a :: fmt) = payloads fmt := by simp [payloads, hb]
      rw [hp] at h ⊢
      rw [constructArgs, hb]
      exact ih h
    | some arg =>
      have hp : args ++ payloads (a :: fmt) = args ++ [arg.getD []] ++ payloads fmt := by
        simp [payloads, hb]
      rw [hp] at h ⊢
      rw [constructArgs, hb]
      dsimp only
      rw [ipcCmdAddArg_encode hgrants arg h.of_append, Option.bind_eq_bind, Option.bind_some]
      exact ih h

theorem ipcVaConstructCmd_eq (hgrants : ∀ n, 0 < n → grants n = true) {fmt : List FormatArg}
    (hcode : (findCommandDescription code).isSome) (h : Encodable code (payloads fmt)) :
    ipcVaConstructCmd grants code fmt = some (.ok (encode code (payloads fmt))) := by
  obtain ⟨d, hd⟩ := Option.isSome_iff_exists.mp hcode
  have hargs := constructArgs_encode hgrants (show Encodable code ([] ++ payloads fmt) by simpa using h)
  rw [ipcVaConstructCmd, hd, Option.bind_eq_bind, Option.bind_some, ipcCmdSet_eq hgrants]
  simp [hargs]

/-! ### Reading -/

theorem readNs_word (v : ℤ) : readNs (bigEndian 2 (v % 2 ^ 16).toNat) 0 = some (v % 2 ^ 16).toNat := by
  have h := readNs_append [] (v % 2 ^ 16).toNat []
  rw [Nat.mod_eq_of_lt (by omega)] at h
  simpa using h

theorem readNl_long (v : ℤ) : readNl (bigEndian 4 (v % 2 ^ 32).toNat) 0 = some (v % 2 ^ 32).toNat := by
  rw [readNl, if_pos (by simp), List.drop_zero, List.take_of_length_le (by simp), ofBigEndian_bigEndian]
  congr 1
  omega

theorem i16_word (v : ℤ) : i16 ((v % 2 ^ 16).toNat : ℤ) = i16 v := by
  rw [Int.toNat_of_nonneg (by omega)]
  exact wrap_emod 16 v

theorem i32_long (v : ℤ) : i32 ((v % 2 ^ 32).toNat : ℤ) = i32 v := by
  rw [Int.toNat_of_nonneg (by omega)]
  exact wrap_emod 32 v

theorem getElem_payloads {pre post : List FormatArg} {a : FormatArg} {arg : Option Text}
    (ha : a.bytes = some arg) :
    ∃ hi : (payloads pre).length < (payloads (pre ++ a :: post)).length,
      (payloads (pre ++ a :: post))[(payloads pre).length] = arg.getD [] := by
  have hsplit : payloads (pre ++ a :: post) = payloads pre ++ arg.getD [] :: payloads post := by
    simp [payloads, ha]
  refine ⟨by simp [hsplit], ?_⟩
  simp [hsplit]

namespace Placement

/-- What the readers return for a buffer at a place that starts with a command of `n` bytes. An empty
argument without a zero behind it is returned if 0 bytes are granted. -/
structure Decodes (b : Placement) (grants : ℕ → Bool) (buf : Text) (n code : ℕ) (args : List Text) : Prop where
  complete : b.ipcCmdIsComplete buf = some (n : ℤ)
  code : ipcCmdGet buf = some code
  numArgs : ipcCmdNumArgs buf = some (args.length : ℤ)
  arg : ∀ i (hi : i < args.length) (addzero : Bool),
    0 < args[i].length + addzero.toNat ∨ grants 0 = true →
      b.ipcCmdGetArg buf grants i addzero = some (.ok (args[i] ++ if addzero then [0] else []))
  argLen : ∀ i (hi : i < args.length), b.ipcCmdGetArgLen buf i = some (args[i].length : ℤ)
  beyond : ∀ i, args.length ≤ i →
    (∀ addzero, b.ipcCmdGetArg buf grants i addzero = some (.error (-2))) ∧ b.ipcCmdGetArgLen buf i = some (-2)

/-- The start of a buffer, where it lies. -/
def front (b : Placement) (k : ℕ) : Placement where
  width := b.width
  base := b.base
  size := min k b.size
  width_ge := b.width_ge
  size_lt := (min_le_right ..).trans_lt b.size_lt
  base_add_size_lt := (Nat.add_le_add_left (min_le_right ..) _).trans_lt b.base_add_size_lt

/-- Building and reading are inverse to each other for the buffers at a place. If the check reads outside
of its buffer, it may find anything complete. -/
structure RoundTrips (b : Placement) (grants : ℕ → Bool) : Prop where
  built : ∀ code args, Encodable code args → ∃ cmd, buildCmd grants code args = some (.ok cmd) ∧
    ∀ r, (cmd ++ r).length = b.size → b.Decodes grants (cmd ++ r) cmd.length code args
  numbers : ∀ code fmt, (findCommandDescription code).isSome → Encodable code (payloads fmt) →
    ∃ cmd, ipcVaConstructCmd grants code fmt = some (.ok cmd) ∧
      ∀ r pre post v, (cmd ++ r).length = b.size →
        (fmt = pre ++ .w v :: post →
          b.ipcCmdGetShortArg (cmd ++ r) grants (payloads pre).length = some (.ok (i16 v))) ∧
        (fmt = pre ++ .W v :: post →
          b.ipcCmdGetLongArg (cmd ++ r) grants (payloads pre).length = some (.ok (i32 v)))
  rebuilt : ∀ buf, buf.length = b.size → ∃ n, b.ipcCmdIsComplete buf = some n ∧ (0 < n →
    (∃ code args, Encodable code args ∧ b.Decodes grants buf n.toNat code args ∧
      buildCmd grants code args = some (.ok (buf.take n.toNat))) ∧
    ∀ k < n.toNat, (b.front k).ipcCmdIsComplete (buf.take k) = some 0)

variable {b : Placement}

/-! ### Messages -/

theorem ipcCmdIsComplete_encode (h : Encodable code args) (hsize : (encode code args ++ r).length = b.size) :
    b.ipcCmdIsComplete (encode code args ++ r) = some ((encode code args).length : ℤ) := by
  have hcomplete := completeLength_encode h r
  have hpos : 0 < (encode code args).length := by
    rw [encode_length]
    omega
  rw [ipcCmdIsComplete_eq hsize (sumsFit_of_complete hsize hcomplete hpos), hcomplete]
  rfl

theorem ipcCmdGetArg_encode (h : Encodable code args) (hsize : (encode code args ++ r).length = b.size)
    (i : ℕ) (addzero : Bool) : b.ipcCmdGetArg (encode code args ++ r) grants i addzero =
      Print3D.ipcCmdGetArg grants (encode code args ++ r) i addzero := by
  by_cases hi : i < args.length
  · obtain ⟨p, hfind, hread⟩ := findArg_encode h r hi
    unfold readBytes at hread
    split_ifs at hread with hle
    exact ipcCmdGetArg_eq hsize hfind hle grants addzero
  · rw [Print3D.ipcCmdGetArg_beyond h r (not_lt.mp hi), ipcCmdGetArg, readNs_count h, Option.bind_eq_bind,
      Option.bind_some, if_pos (not_lt.mp hi)]

theorem ipcCmdGetArgLen_encode (h : Encodable code args) (hsize : (encode code args ++ r).length = b.size)
    (i : ℕ) : b.ipcCmdGetArgLen (encode code args ++ r) i =
      some (if hi : i < args.length then (args[i].length : ℤ) else -2) := by
  by_cases hi : i < args.length
  · obtain ⟨p, hfind, hread⟩ := findArg_encode h r hi
    unfold readBytes at hread
    split_ifs at hread with hle
    rw [ipcCmdGetArgLen_eq hsize hfind (by omega), Print3D.ipcCmdGetArgLen_encode h]
  · rw [dif_neg hi, ipcCmdGetArgLen, readNs_count h, Option.bind_eq_bind, Option.bind_some,
      if_pos (not_lt.mp hi)]

theorem decodes_encode (hgrants : ∀ n, 0 < n → grants n = true) (h : Encodable code args)
    (hsize : (encode code args ++ r).length = b.size) :
    b.Decodes grants (encode code args ++ r) (encode code args).length code args where
  complete := ipcCmdIsComplete_encode h hsize
  code := ipcCmdGet_encode h r
  numArgs := ipcCmdNumArgs_encode h r
  arg i hi addzero hpos := by
    rw [ipcCmdGetArg_encode h hsize]
    apply Print3D.ipcCmdGetArg_encode h r hi
    rcases Nat.eq_zero_or_pos (args[i].length + addzero.toNat) with h0 | h0
    · rw [h0]
      exact hpos.resolve_left (by omega)
    · exact hgrants _ h0
  argLen i hi := by rw [ipcCmdGetArgLen_encode h hsize, dif_pos hi]
  beyond i hi := by
    refine ⟨fun addzero => ?_, ?_⟩
    · rw [ipcCmdGetArg_encode h hsize, Print3D.ipcCmdGetArg_beyond h r hi]
    · rw [ipcCmdGetArgLen_encode h hsize, dif_neg (by omega)]

theorem ipcCmdGetShortArg_encode (hgrants : ∀ n, 0 < n → grants n = true) (h : Encodable code args)
    (hsize : (encode code args ++ r).length = b.size) {i : ℕ} (hi : i < args.length) {v : ℤ}
    (hv : args[i] = bigEndian 2 (v % 2 ^ 16).toNat) :
    b.ipcCmdGetShortArg (encode code args ++ r) grants i = some (.ok (i16 v)) := by
  have hlen : args[i].length = 2 := by rw [hv, bigEndian_length]
  have hget := (decodes_encode hgrants h hsize).arg i hi false (.inl (by omega))
  rw [ipcCmdGetShortArg, hget, hv]
  simp only [Option.bind_eq_bind, Option.bind_some, Bool.false_eq_true, if_false, List.append_nil,
    readNs_word, i16_word]

theorem ipcCmdGetLongArg_encode (hgrants : ∀ n, 0 < n → grants n = true) (h : Encodable code args)
    (hsize : (encode code args ++ r).length = b.size) {i : ℕ} (hi : i < args.length) {v : ℤ}
    (hv : args[i] = bigEndian 4 (v % 2 ^ 32).toNat) :
    b.ipcCmdGetLongArg (encode code args ++ r) grants i = some (.ok (i32 v)) := by
  have hlen : args[i].length = 4 := by rw [hv, bigEndian_length]
  have hget := (decodes_encode hgrants h hsize).arg i hi false (.inl (by omega))
  rw [ipcCmdGetLongArg, hget, hv]
  simp only [Option.bind_eq_bind, Option.bind_some, Bool.false_eq_true, if_false, List.append_nil,
    readNl_long, i32_long]

/-! ### Buffers -/

theorem front_length (hsize : buf.length = b.size) (k : ℕ) : (buf.take k).length = (b.front k).size := by
  rw [List.length_take, hsize]
  rfl

theorem roomy_front (h : b.Roomy) (k : ℕ) : (b.front k).Roomy := by
  intro p hp hoffset
  obtain ⟨hfit, hlengths⟩ := h p (hp.trans (min_le_right ..)) hoffset
  exact ⟨hfit, fun hle => hlengths (hle.trans (min_le_right ..))⟩

/-- What is found complete is a message, and no shorter one is at its start. -/
theorem rebuilt_of_roomy (hgrants : ∀ n, 0 < n → grants n = true) (hsize : buf.length = b.size)
    (h : b.Roomy) : ∃ n, b.ipcCmdIsComplete buf = some n ∧ (0 < n →
      (∃ code args, Encodable code args ∧ b.Decodes grants buf n.toNat code args ∧
        buildCmd grants code args = some (.ok (buf.take n.toNat))) ∧
      ∀ k < n.toNat, (b.front k).ipcCmdIsComplete (buf.take k) = some 0) := by
  refine ⟨_, ipcCmdIsComplete_of_roomy hsize h, fun hpos => ?_⟩
  rw [Int.toNat_natCast]
  have hlt := b.size_lt
  obtain ⟨code, args, r, henc, rfl, hn⟩ :=
    exists_encode (completeLength_eq buf) (Int.natCast_pos.mp hpos) (by omega)
  refine ⟨⟨code, args, henc, hn ▸ decodes_encode hgrants henc hsize, ?_⟩, fun k hk => ?_⟩
  · rw [hn, List.take_left]
    exact buildCmd_eq hgrants henc
  · rw [ipcCmdIsComplete_of_roomy (front_length hsize k) (roomy_front h k),
      Framing.Framer.size_take_of_lt hk]
    rfl

/-- A buffer whose start is the message that is read from it has no sum that wraps around. -/
theorem bounds_of_rebuilt (hgrants : ∀ n, 0 < n → grants n = true) (h : b.RoundTrips grants)
    (hsize : buf.length = b.size) : b.Bounds buf := by
  obtain ⟨n, hn, hrebuilt⟩ := h.rebuilt buf hsize
  rcases le_or_gt n 0 with hneg | hpos
  · exact ⟨n, hn, fun hpos => absurd hpos (not_lt.mpr hneg)⟩
  · obtain ⟨⟨code, args, henc, -, hbuild⟩, -⟩ := hrebuilt hpos
    have htake : encode code args = buf.take n.toNat := by
      rw [buildCmd_eq hgrants henc, Option.some.injEq, Except.ok.injEq] at hbuild
      exact hbuild
    have hbuf : buf = encode code args ++ buf.drop n.toNat := by rw [htake, List.take_append_drop]
    have hcomplete := completeLength_encode henc (buf.drop n.toNat)
    rw [← hbuf] at hcomplete
    refine bounds_of_sumsFit hsize (sumsFit_of_complete hsize hcomplete ?_)
    rw [encode_length]
    omega

/-- A message gives back its code and arguments, whatever follows it in the buffer, and numbers come back modulo
their width; that also every buffer in which a command is found starts with the encoding of what is read from
it, and with no shorter command, holds if and only if no sum of the check can wrap around where it lies. -/
theorem ipc_roundTrip (b : Placement) {grants : ℕ → Bool} (hgrants : ∀ n, 0 < n → grants n = true) :
    b.RoundTrips grants ↔ b.Roomy := by
  constructor
  · intro h
    exact roomy_of_bounds fun buf hsize => bounds_of_rebuilt hgrants h hsize
  intro h
  constructor
  · intro code args henc
    exact ⟨_, buildCmd_eq hgrants henc, fun r hsize => decodes_encode hgrants henc hsize⟩
  · intro code fmt hcode henc
    refine ⟨_, ipcVaConstructCmd_eq hgrants hcode henc, fun r pre post v hsize => ⟨?_, ?_⟩⟩
    · rintro rfl
      obtain ⟨hi, hv⟩ := getElem_payloads (show (FormatArg.w v).bytes = _ from rfl)
      exact ipcCmdGetShortArg_encode hgrants henc hsize hi hv
    · rintro rfl
      obtain ⟨hi, hv⟩ := getElem_payloads (show (FormatArg.W v).bytes = _ from rfl)
      exact ipcCmdGetLongArg_encode hgrants henc hsize hi hv
  · exact fun buf hsize => rebuilt_of_roomy hgrants hsize h

/-- A buffer with addresses of 64 bits. -/
def onDesktop : Placement where
  width := 64
  base := 0x10000
  size := 16
  width_ge := Nat.le_add_right 32 32
  size_lt := by decide
  base_add_size_lt := by decide

theorem ipc_roundTrip_append :
    ∃ cmd, buildCmd (fun _ => true) ipcCmdqGcodeAppend [ascii "G1", []] = some (.ok cmd) ∧
      ∀ r, (cmd ++ r).length = 16 →
        onDesktop.Decodes (fun _ => true) (cmd ++ r) cmd.length ipcCmdqGcodeAppend [ascii "G1", []] :=
  ((ipc_roundTrip onDesktop fun _ _ => rfl).mpr (roomy_of_le (by decide))).built _ _
    ⟨by decide, by decide, by decide⟩

/-- The test whose argument says that it is four bytes shorter than the address space has four bytes and an
argument. -/
theorem not_roundTrips_router : ¬ ∀ b : Placement, b.RoundTrips fun _ => true := by
  intro h
  let buf : Text := [0, 0x10, 0, 1, 0xFF, 0xFF, 0xFF, 0xFC]
  obtain ⟨n, hn, hrebuilt⟩ := (h onRouter).rebuilt buf rfl
  have hfour : onRouter.ipcCmdIsComplete buf = some 4 := by decide
  obtain rfl := Option.some.inj (hn.symm.trans hfour)
  obtain ⟨⟨code, args, henc, hdecodes, hbuild⟩, -⟩ := hrebuilt (by decide)
  have hcount : args.length = 1 := by
    have hnum : ipcCmdNumArgs buf = some 1 := by decide
    have heq := Option.some.inj (hdecodes.numArgs.symm.trans hnum)
    omega
  rw [buildCmd_eq (fun _ _ => rfl) henc, Option.some.injEq, Except.ok.injEq] at hbuild
  have hlen := congrArg List.length hbuild
  obtain ⟨a, rfl⟩ := List.length_eq_one_iff.mp hcount
  rw [encode_length, fields_cons, fields_nil, List.append_nil, field_length, List.length_take] at hlen
  change 4 + (4 + a.length) = 4 at hlen
  omega

end Placement
end Print3D
