import Print3D.Ipc.Shared
import Print3D.Library.LengthPrefixed
import Print3D.Library.Framing

/-! The layout all functions of `ipc_shared.c` agree on: a code, the number of arguments,
and each argument behind its length. -/
namespace Print3D
open FixedWidth LengthPrefixed

/-- The message with this code and these arguments. -/
def encode (code : ℕ) (args : List Text) : Text :=
  bigEndian 2 code ++ bigEndian 2 args.length ++ fields 4 args

variable {buf r : Text} {code : ℕ} {args : List Text} {n p m : ℕ}

/-- `code` and `args` fit their fields, and the message an `int`. -/
structure Encodable (code : ℕ) (args : List Text) : Prop where
  code_lt : code < 2 ^ 16
  args_le : args.length ≤ 65535
  size_lt : (encode code args).length < 2 ^ 31

@[simp] theorem encode_length (code : ℕ) (args : List Text) :
    (encode code args).length = 4 + (fields 4 args).length := by
  simp only [encode, List.length_append, bigEndian_length]

theorem Encodable.arg_lt (h : Encodable code args) {a : Text} (ha : a ∈ args) : a.length + 8 < 2 ^ 31 := by
  have hle := length_le_fields (k := 4) ha
  have hlt := h.size_lt
  rw [encode_length] at hlt
  omega

theorem readNs_append (pre : Text) (v : ℕ) (r : Text) :
    readNs (pre ++ bigEndian 2 v ++ r) pre.length = some (v % 2 ^ 16) := by
  have hlen : pre.length + 2 ≤ (pre ++ bigEndian 2 v ++ r).length := by simp
  rw [readNs, if_pos hlen, List.append_assoc, List.drop_left, List.take_append_of_le_length (by simp),
    List.take_of_length_le (by simp), ofBigEndian_bigEndian]
  rfl

theorem readNl_field (pre : Text) {a : Text} (ha : a.length < 2 ^ 32) (r : Text) :
    readNl (pre ++ field 4 a ++ r) pre.length = some a.length := by
  have hlen : pre.length + 4 ≤ (pre ++ field 4 a ++ r).length := by
    simp only [List.length_append, field_length]
    omega
  rw [readNl, if_pos hlen, List.append_assoc, List.drop_left, ofBigEndian_take_field ha]

theorem readNl_eq_some {v : ℕ} (h : readNl buf p = some v) :
    p + 4 ≤ buf.length ∧ v = ofBigEndian ((buf.drop p).take 4) := by
  unfold readNl at h
  split_ifs at h with hp
  exact ⟨hp, (Option.some.inj h).symm⟩

theorem readNs_encode (code : ℕ) (args : List Text) (r : Text) :
    readNs (encode code args ++ r) 0 = some (code % 2 ^ 16) ∧
      readNs (encode code args ++ r) 2 = some (args.length % 2 ^ 16) := by
  have h0 := readNs_append [] code (bigEndian 2 args.length ++ fields 4 args ++ r)
  have h2 := readNs_append (bigEndian 2 code) args.length (fields 4 args ++ r)
  rw [bigEndian_length] at h2
  constructor
  · simpa only [encode, List.nil_append, List.length_nil, List.append_assoc] using h0
  · simpa only [encode, List.append_assoc] using h2

/-! ### Completeness -/

/-- How far the lengths of the arguments reach, or 0 where the buffer ends before. -/
def completeLengthFrom (buf : Text) : ℕ → ℕ → Option ℕ
  | 0, p => some p
  | argsleft + 1, p =>
    if buf.length < p + 4 then some 0
    else do
      let al ← readNl buf p
      if buf.length < p + 4 + al then some 0
      else completeLengthFrom buf argsleft (p + (4 + al) % 2 ^ 32)

/-- The length of the command at the head of a buffer, and 0 while it is incomplete: what `ipc_cmd_is_complete`
returns where no sum of its addresses wraps around. -/
def completeLength (buf : Text) : Option ℕ :=
  if buf.length < 4 then some 0
  else do
    let argsleft ← readNs buf 2
    completeLengthFrom buf argsleft 4

theorem completeLengthFrom_fields (pre : Text) (hargs : ∀ a ∈ args, a.length + 8 < 2 ^ 31) (r : Text) :
    completeLengthFrom (pre ++ fields 4 args ++ r) args.length pre.length =
      some (pre.length + (fields 4 args).length) := by
  induction args generalizing pre with
  | nil => simp [completeLengthFrom]
  | cons a args ih =>
    have ha := hargs a (List.mem_cons_self ..)
    have hread := readNl_field pre (show a.length < 2 ^ 32 by omega) (fields 4 args ++ r)
    have hrest := ih (pre ++ field 4 a) fun b hb => hargs b (List.mem_cons_of_mem _ hb)
    have hlen : (pre ++ fields 4 (a :: args) ++ r).length =
        pre.length + 4 + a.length + (fields 4 args).length + r.length := by
      simp only [List.length_append, fields_cons, field_length]
      omega
    have hnext : pre.length + (4 + a.length) % 2 ^ 32 = (pre ++ field 4 a).length := by
      rw [Nat.mod_eq_of_lt (by omega), List.length_append, field_length]
    have hassoc : pre ++ field 4 a ++ (fields 4 args ++ r) = pre ++ fields 4 (a :: args) ++ r := by
      simp
    rw [hassoc] at hread
    rw [List.append_assoc (pre ++ field 4 a), hassoc] at hrest
    rw [List.length_cons, completeLengthFrom, if_neg (by omega), hread, Option.bind_eq_bind,
      Option.bind_some, if_neg (by omega), hnext, hrest, fields_cons, List.length_append,
      List.length_append]
    congr 1
    omega

theorem completeLengthFrom_isSome (buf : Text) (n p : ℕ) : (completeLengthFrom buf n p).isSome := by
  induction n generalizing p with
  | zero => rfl
  | succ n ih =>
    rw [completeLengthFrom]
    split_ifs with hp
    · rfl
    · rw [readNl, if_pos (not_lt.mp hp), Option.bind_eq_bind, Option.bind_some]
      split_ifs
      · rfl
      · exact ih _

theorem completeLengthFrom_succ (h : completeLengthFrom buf (n + 1) p = some m) (hm : 0 < m) :
    ∃ al, readNl buf p = some al ∧ p + 4 + al ≤ buf.length ∧
      completeLengthFrom buf n (p + (4 + al) % 2 ^ 32) = some m := by
  rw [completeLengthFrom] at h
  split_ifs at h with hp
  · cases h
    omega
  · obtain ⟨al, hal, h⟩ := Option.bind_eq_some_iff.mp h
    split_ifs at h with hlen
    · cases h
      omega
    · exact ⟨al, hal, not_lt.mp hlen, h⟩

theorem completeLengthFrom_le (h : completeLengthFrom buf n p = some m) (hp : p ≤ buf.length) :
    m ≤ buf.length := by
  rcases Nat.eq_zero_or_pos m with rfl | hm
  · exact Nat.zero_le _
  · induction n generalizing p with
    | zero => cases h; exact hp
    | succ n ih =>
      obtain ⟨al, -, hle, h⟩ := completeLengthFrom_succ h hm
      exact ih h (by have := Nat.mod_le (4 + al) (2 ^ 32); omega)

theorem le_completeLengthFrom (h : completeLengthFrom buf n p = some m) (hm : 0 < m) : p ≤ m := by
  induction n generalizing p with
  | zero =>
    cases h
    exact le_rfl
  | succ n ih =>
    obtain ⟨al, -, -, h⟩ := completeLengthFrom_succ h hm
    exact (Nat.le_add_right ..).trans (ih h)

theorem readNl_append_right {v : ℕ} (h : readNl buf p = some v) (r : Text) :
    readNl (buf ++ r) p = some v := by
  obtain ⟨hp, rfl⟩ := readNl_eq_some h
  rw [readNl, if_pos (by rw [List.length_append]; omega), List.drop_append_of_le_length (by omega),
    List.take_append_of_le_length (by rw [List.length_drop]; omega)]

theorem completeLengthFrom_append (h : completeLengthFrom buf n p = some m) (hm : 0 < m) (r : Text) :
    completeLengthFrom (buf ++ r) n p = some m := by
  induction n generalizing p with
  | zero => exact h
  | succ n ih =>
    obtain ⟨al, hal, hle, h⟩ := completeLengthFrom_succ h hm
    rw [completeLengthFrom, if_neg (by rw [List.length_append]; omega), readNl_append_right hal,
      Option.bind_eq_bind, Option.bind_some, if_neg (by rw [List.length_append]; omega)]
    exact ih h

/-- What the loop has passed over is a list of fields. -/
theorem completeLengthFrom_inv (h : completeLengthFrom buf n p = some m) (hm : 0 < m)
    (hlen : buf.length < 2 ^ 32) (hp : p ≤ buf.length) :
    ∃ args, args.length = n ∧ buf = buf.take p ++ fields 4 args ++ buf.drop m ∧
      m = p + (fields 4 args).length := by
  induction n generalizing p with
  | zero =>
    cases h
    exact ⟨[], rfl, by simp, by simp⟩
  | succ n ih =>
    obtain ⟨al, hal, hle, h⟩ := completeLengthFrom_succ h hm
    obtain ⟨-, hal⟩ := readNl_eq_some hal
    rw [Nat.mod_eq_of_lt (by omega)] at h
    obtain ⟨args, hn, hbuf, hm'⟩ := ih h (by omega)
    obtain ⟨a, rest, ha, halen⟩ := exists_field (k := 4) (b := buf.drop p) (by
      rw [← hal, List.length_drop]
      omega)
    have htake : buf.take (p + (4 + al)) = buf.take p ++ field 4 a := by
      have hfield : (field 4 a ++ rest).take (4 + al) = field 4 a :=
        List.take_left' (by rw [field_length]; omega)
      rw [List.take_add, ha, hfield]
    refine ⟨a :: args, by simp [hn], ?_, ?_⟩
    · conv_lhs => rw [hbuf, htake]
      simp
    · rw [hm', fields_cons, List.length_append, field_length]
      omega

theorem completeLength_isSome (buf : Text) : (completeLength buf).isSome := by
  unfold completeLength
  split_ifs with hlen
  · rfl
  · rw [readNs, if_pos (by omega), Option.bind_eq_bind, Option.bind_some]
    exact completeLengthFrom_isSome ..

theorem completeLength_succ (h : completeLength buf = some m) (hm : 0 < m) :
    ∃ count, readNs buf 2 = some count ∧ completeLengthFrom buf count 4 = some m := by
  unfold completeLength at h
  split_ifs at h
  · cases h
    omega
  · exact Option.bind_eq_some_iff.mp h

theorem completeLength_encode (h : Encodable code args) (r : Text) :
    completeLength (encode code args ++ r) = some (encode code args).length := by
  have hlen : ¬ (encode code args ++ r).length < 4 := by
    rw [List.length_append, encode_length]
    omega
  have hcount : args.length % 2 ^ 16 = args.length := Nat.mod_eq_of_lt (by have := h.args_le; omega)
  have hfields := completeLengthFrom_fields (bigEndian 2 code ++ bigEndian 2 args.length)
    (fun a ha => h.arg_lt ha) r
  rw [completeLength, if_neg hlen, (readNs_encode code args r).2, hcount, Option.bind_eq_bind,
    Option.bind_some]
  rw [encode_length]
  simpa [encode] using hfields

/-- A buffer with a complete command starts with the encoding of one. -/
theorem exists_encode (h : completeLength buf = some n) (hn : 0 < n) (hlen : buf.length < 2 ^ 31) :
    ∃ code args r, Encodable code args ∧ buf = encode code args ++ r ∧ n = (encode code args).length := by
  unfold completeLength at h
  split_ifs at h with h4
  · cases h
    omega
  · rw [readNs, if_pos (by omega), Option.bind_eq_bind, Option.bind_some] at h
    obtain ⟨args, hargs, hbuf, hm⟩ := completeLengthFrom_inv h hn (by omega) (by omega)
    have hcode : bigEndian 2 (ofBigEndian (buf.take 2)) = buf.take 2 := by
      have h := bigEndian_ofBigEndian (buf.take 2)
      rwa [List.length_take, min_eq_left (by omega)] at h
    have hcount : bigEndian 2 args.length = (buf.drop 2).take 2 := by
      have h := bigEndian_ofBigEndian ((buf.drop 2).take 2)
      rwa [List.length_take, List.length_drop, min_eq_left (by omega), ← hargs] at h
    have htake : buf.take 4 = bigEndian 2 (ofBigEndian (buf.take 2)) ++ bigEndian 2 args.length := by
      rw [hcode, hcount, show 4 = 2 + 2 from rfl, List.take_add]
    have henc : buf = encode (ofBigEndian (buf.take 2)) args ++ buf.drop n := by
      rw [encode, ← htake]
      exact hbuf
    have hle := completeLengthFrom_le h (by omega)
    have hcodelt := ofBigEndian_lt (buf.take 2)
    have hcountlt := ofBigEndian_lt ((buf.drop 2).take 2)
    rw [List.length_take, min_eq_left (by omega)] at hcodelt
    rw [List.length_take, List.length_drop, min_eq_left (by omega), ← hargs] at hcountlt
    have hsize : n = (encode (ofBigEndian (buf.take 2)) args).length := by rw [encode_length, hm]
    exact ⟨_, args, buf.drop n, ⟨hcodelt, by omega, by omega⟩, henc, hsize⟩

theorem completeLength_append (h : completeLength buf = some n) (hn : 0 < n) (r : Text) :
    completeLength (buf ++ r) = some n := by
  unfold completeLength at h ⊢
  split_ifs at h with h4
  · cases h
    omega
  · have hread : readNs (buf ++ r) 2 = readNs buf 2 := by
      rw [readNs, readNs, if_pos (by rw [List.length_append]; omega), if_pos (by omega),
        List.drop_append_of_le_length (by omega),
        List.take_append_of_le_length (by rw [List.length_drop]; omega)]
    obtain ⟨argsleft, hargs, h⟩ := Option.bind_eq_some_iff.mp h
    rw [if_neg (by rw [List.length_append]; omega), hread, hargs, Option.bind_eq_bind, Option.bind_some]
    exact completeLengthFrom_append h hn r

theorem completeLength_le (h : completeLength buf = some n) : n ≤ buf.length := by
  unfold completeLength at h
  split_ifs at h with h4
  · cases h
    exact Nat.zero_le _
  · obtain ⟨argsleft, -, h⟩ := Option.bind_eq_some_iff.mp h
    exact completeLengthFrom_le h (by omega)

/-- Commands as frames of a byte stream. -/
def commandFramer : Framing.Framer UInt8 where
  size buf := (completeLength buf).getD 0
  size_le buf := by
    obtain ⟨n, h⟩ := Option.isSome_iff_exists.mp (completeLength_isSome buf)
    rw [h]
    exact completeLength_le h
  size_append buf r hpos := by
    obtain ⟨n, h⟩ := Option.isSome_iff_exists.mp (completeLength_isSome buf)
    rw [h] at hpos ⊢
    rw [completeLength_append h hpos]

theorem completeLength_eq (buf : Text) : completeLength buf = some (commandFramer.size buf) := by
  obtain ⟨n, h⟩ := Option.isSome_iff_exists.mp (completeLength_isSome buf)
  simp [commandFramer, h]

/-! ### Readers -/

theorem ipcCmdGet_encode (h : Encodable code args) (r : Text) :
    ipcCmdGet (encode code args ++ r) = some code := by
  have hlen : ¬ (encode code args ++ r).length < 2 := by
    rw [List.length_append, encode_length]
    omega
  rw [ipcCmdGet, if_neg hlen, (readNs_encode code args r).1, Nat.mod_eq_of_lt h.code_lt]

theorem readNs_count (h : Encodable code args) (r : Text) :
    readNs (encode code args ++ r) 2 = some args.length := by
  have hargs := h.args_le
  rw [(readNs_encode code args r).2, Nat.mod_eq_of_lt (by omega)]

theorem ipcCmdNumArgs_encode (h : Encodable code args) (r : Text) :
    ipcCmdNumArgs (encode code args ++ r) = some (args.length : ℤ) := by
  have hlen : ¬ (encode code args ++ r).length < 4 := by
    rw [List.length_append, encode_length]
    omega
  rw [ipcCmdNumArgs, if_neg hlen, readNs_count h]
  rfl

theorem findArg_fields (pre : Text) (hargs : ∀ a ∈ args, a.length + 8 < 2 ^ 31) (r : Text) {i : ℕ}
    (hi : i < args.length) :
    findArg (pre ++ fields 4 args ++ r) i pre.length =
      some (pre.length + (fields 4 (args.take i)).length, args[i].length) := by
  induction args generalizing pre i with
  | nil => simp at hi
  | cons a args ih =>
    have ha := hargs a (List.mem_cons_self ..)
    have hread := readNl_field pre (show a.length < 2 ^ 32 by omega) (fields 4 args ++ r)
    have hassoc : pre ++ field 4 a ++ (fields 4 args ++ r) = pre ++ fields 4 (a :: args) ++ r := by
      simp
    rw [hassoc] at hread
    cases i with
    | zero =>
      rw [findArg, hread]
      simp
    | succ i =>
      have hrest := ih (pre ++ field 4 a) (fun b hb => hargs b (List.mem_cons_of_mem _ hb))
        (Nat.lt_of_succ_lt_succ hi)
      have hnext : pre.length + (4 + a.length) % 2 ^ 32 = (pre ++ field 4 a).length := by
        rw [Nat.mod_eq_of_lt (by omega), List.length_append, field_length]
      rw [List.append_assoc (pre ++ field 4 a), hassoc] at hrest
      rw [findArg, hread, Option.bind_eq_bind, Option.bind_some, hnext, hrest]
      simp [Nat.add_assoc]

theorem findArg_encode (h : Encodable code args) (r : Text) {i : ℕ} (hi : i < args.length) :
    ∃ p, findArg (encode code args ++ r) i 4 = some (p, args[i].length) ∧
      readBytes (encode code args ++ r) (p + 4) args[i].length = some args[i] := by
  have hfind := findArg_fields (bigEndian 2 code ++ bigEndian 2 args.length) (fun a ha => h.arg_lt ha) r hi
  refine ⟨_, by simpa [encode] using hfind, ?_⟩
  have hsplit : args = args.take i ++ args[i] :: args.drop (i + 1) := by
    rw [← List.drop_eq_getElem_cons hi, List.take_append_drop]
  set pre := bigEndian 2 code ++ bigEndian 2 args.length ++ fields 4 (args.take i) ++
    bigEndian 4 args[i].length with hpre
  have henc : encode code args ++ r = pre ++ (args[i] ++ (fields 4 (args.drop (i + 1)) ++ r)) := by
    have hfields : fields 4 args = fields 4 (args.take i) ++ (bigEndian 4 args[i].length ++
        (args[i] ++ fields 4 (args.drop (i + 1)))) := by
      conv_lhs => rw [hsplit]
      rw [fields_append, fields_cons, field, List.append_assoc]
    rw [encode, hfields, hpre]
    simp only [List.append_assoc]
  have hp : 2 + 2 + (fields 4 (args.take i)).length + 4 = pre.length := by
    simp only [hpre, List.length_append, bigEndian_length]
  rw [hp, henc, readBytes, if_pos (by simp), List.drop_left, List.take_left]

variable {grants : ℕ → Bool}

theorem ipcCmdGetArg_encode (h : Encodable code args) (r : Text) {i : ℕ} (hi : i < args.length)
    {addzero : Bool} (hgrants : grants (args[i].length + addzero.toNat) = true) :
    ipcCmdGetArg grants (encode code args ++ r) i addzero =
      some (.ok (args[i] ++ if addzero then [0] else [])) := by
  obtain ⟨p, hfind, hread⟩ := findArg_encode h r hi
  have harg := h.arg_lt (List.getElem_mem hi)
  have hzero : addzero.toNat ≤ 1 := Bool.toNat_le addzero
  have hsize : (args[i].length + addzero.toNat) % 2 ^ 32 = args[i].length + addzero.toNat :=
    Nat.mod_eq_of_lt (by omega)
  simp only [ipcCmdGetArg, readNs_count h, Option.bind_eq_bind, Option.bind_some, hfind, hsize, hgrants,
    hread, if_true]
  rw [if_neg (by omega)]

theorem ipcCmdGetArg_beyond (h : Encodable code args) (r : Text) {i : ℕ} (hi : args.length ≤ i)
    (addzero : Bool) : ipcCmdGetArg grants (encode code args ++ r) i addzero = some (.error (-2)) := by
  simp only [ipcCmdGetArg, readNs_count h, Option.bind_eq_bind, Option.bind_some]
  rw [if_pos hi]

theorem ipcCmdGetArgLen_encode (h : Encodable code args) (r : Text) (i : ℕ) :
    ipcCmdGetArgLen (encode code args ++ r) i =
      some (if hi : i < args.length then (args[i].length : ℤ) else -2) := by
  simp only [ipcCmdGetArgLen, readNs_count h, Option.bind_eq_bind, Option.bind_some]
  by_cases hi : i < args.length
  · obtain ⟨p, hfind, -⟩ := findArg_encode h r hi
    have harg := h.arg_lt (List.getElem_mem hi)
    rw [if_neg (by omega), hfind, Option.bind_some, dif_pos hi, i32_eq ⟨by omega, by omega⟩]
  · rw [if_pos (by omega), dif_neg hi]

end Print3D
