import Print3D.Drivers.GCodeBuffer

/-! What `cleanupGCode` computes: the lines of the appended text, cut at their comments,
without the empty ones. The loops of the source are first matched with structural
functions on the text, and these with the description by lines. -/
namespace Print3D
open Lines GCodeBuffer

def keepsMacro (keep : Bool) (s : Text) : Bool := keep && s.head? == some atSign

/-- A line up to its first `;`, with `keep` up to the first one not followed by `@`. -/
def cutComment (keep : Bool) : Text → Text
  | [] => []
  | c :: s => if c = semicolon ∧ keepsMacro keep s = false then [] else c :: cutComment keep s

/-- The lines cleanup leaves of a text. -/
def normLines (keep : Bool) (gcode : Text) : List Text :=
  (((gcode.map crToNewline).splitOn newline).map (cutComment keep)).filter (· ≠ [])

/-- The cleaned text: what is left of each line, ended by a newline. -/
def norm (keep : Bool) (gcode : Text) : Text := unlines newline (normLines keep gcode)

/-! ### The comment loop -/

/-- The index of the first `;` that the comment loop erases. -/
def firstComment (keep : Bool) : Text → Option ℕ
  | [] => none
  | c :: s =>
    if c = semicolon ∧ keepsMacro keep s = false then some 0 else (firstComment keep s).map (· + 1)

def eraseComment (i : ℕ) (s : Text) : Text := s.take i ++ (s.drop i).dropWhile (· ≠ newline)

/-- `s` without its comments; the flag says that `s` starts inside of one. -/
def stripComments (keep : Bool) : Bool → Text → Text
  | _, [] => []
  | true, c :: s => if c = newline then newline :: stripComments keep false s else stripComments keep true s
  | false, c :: s =>
    if c = semicolon ∧ keepsMacro keep s = false then stripComments keep true s
    else c :: stripComments keep false s

/-- A text that is a single unterminated comment: the case `cleanupGCode` leaves early. -/
def BareComment (keep : Bool) (s : Text) : Prop := firstComment keep s = some 0 ∧ newline ∉ s

instance (keep : Bool) (s : Text) : Decidable (BareComment keep s) := by
  unfold BareComment
  infer_instance

private theorem newline_ne_semicolon : newline ≠ semicolon := by decide

theorem firstComment_append_cons {keep : Bool} {t r : Text} (ht : semicolon ∉ t) :
    firstComment keep (t ++ semicolon :: r) =
      if keepsMacro keep r = true then (firstComment keep r).map (t.length + 1 + ·)
      else some t.length := by
  induction t with
  | nil =>
    cases hk : keepsMacro keep r <;> simp [firstComment, hk, Nat.add_comm]
  | cons c t ih =>
    have hc : c ≠ semicolon := fun h => ht (h ▸ List.mem_cons_self ..)
    simp only [List.cons_append, firstComment, hc, false_and, if_false,
      ih fun h => ht (List.mem_cons_of_mem _ h)]
    split_ifs
    · simp only [Option.map_map, List.length_cons]
      congr 1
      funext x
      simp only [Function.comp_apply]
      omega
    · rfl

theorem firstComment_of_notMem {keep : Bool} {s : Text} (h : semicolon ∉ s) :
    firstComment keep s = none := by
  induction s with
  | nil => rfl
  | cons c s ih =>
    have hc : c ≠ semicolon := fun hc => h (hc ▸ List.mem_cons_self ..)
    simp [firstComment, hc, ih fun hs => h (List.mem_cons_of_mem _ hs)]

theorem drop_firstComment {keep : Bool} {s : Text} {i : ℕ} (h : firstComment keep s = some i) :
    ∃ r, s.drop i = semicolon :: r := by
  induction s generalizing i with
  | nil => cases h
  | cons c s ih =>
    simp only [firstComment] at h
    split_ifs at h with hc
    · cases h
      exact ⟨s, by rw [hc.1]; rfl⟩
    · obtain ⟨j, hj, rfl⟩ := Option.map_eq_some_iff.mp h
      exact ih hj

private theorem keepsMacro_eraseComment {keep : Bool} {s : Text} {i : ℕ}
    (h : firstComment keep s = some i) :
    keepsMacro keep (eraseComment i s) = true ↔ keepsMacro keep s = true := by
  cases i with
  | zero =>
    obtain ⟨r, hr⟩ := drop_firstComment h
    rw [List.drop_zero] at hr
    subst hr
    have hs : keepsMacro keep (semicolon :: r) = false := by simp [keepsMacro, semicolon, atSign]
    have he : keepsMacro keep (eraseComment 0 (semicolon :: r)) = false := by
      have hh : ((semicolon :: r).dropWhile (· ≠ newline)).head? ≠ some atSign := by
        intro hh
        have := List.head?_dropWhile_not (fun c => decide (c ≠ newline)) (semicolon :: r)
        rw [hh] at this
        simp [newline, atSign] at this
      simpa [keepsMacro, eraseComment] using fun _ => hh
    rw [hs, he]
  | succ i =>
    cases s with
    | nil => cases h
    | cons c s => simp [keepsMacro, eraseComment]

private theorem stripComments_dropWhile (keep : Bool) (s : Text) :
    stripComments keep false (s.dropWhile (· ≠ newline)) = stripComments keep true s := by
  induction s with
  | nil => rfl
  | cons c s ih =>
    by_cases hc : c = newline
    · subst hc
      simp [stripComments, newline_ne_semicolon]
    · simpa [stripComments, hc] using ih

theorem stripComments_of_none {keep : Bool} {s : Text} (h : firstComment keep s = none) :
    stripComments keep false s = s := by
  induction s with
  | nil => rfl
  | cons c s ih =>
    simp only [firstComment] at h
    split_ifs at h with hc
    simp only [stripComments, hc, if_false]
    rw [ih (Option.map_eq_none_iff.mp h)]

theorem stripComments_eraseComment {keep : Bool} {s : Text} {i : ℕ}
    (h : firstComment keep s = some i) :
    stripComments keep false (eraseComment i s) = stripComments keep false s := by
  induction s generalizing i with
  | nil => cases h
  | cons c s ih =>
    simp only [firstComment] at h
    split_ifs at h with hc
    · cases h
      have hcn : c ≠ newline := hc.1 ▸ newline_ne_semicolon.symm
      simp only [eraseComment, List.take_zero, List.nil_append, List.drop_zero, stripComments, hc,
        and_self, if_true]
      rw [← stripComments_dropWhile, ← hc.1, List.dropWhile_cons_of_pos (by simpa using hcn)]
    · obtain ⟨j, hj, rfl⟩ := Option.map_eq_some_iff.mp h
      have hk := keepsMacro_eraseComment hj
      have he : eraseComment (j + 1) (c :: s) = c :: eraseComment j s := rfl
      have hc' : ¬ (c = semicolon ∧ keepsMacro keep (eraseComment j s) = false) := by
        intro h'
        refine hc ⟨h'.1, ?_⟩
        rw [Bool.eq_false_iff] at h' ⊢
        exact fun hs => h'.2 (hk.mpr hs)
      simp only [he, stripComments, hc, hc', if_false, ih hj]

theorem count_eraseComment {keep : Bool} {s : Text} {i : ℕ} (h : firstComment keep s = some i) :
    (s.take i).count semicolon + 1 ≤ s.count semicolon ∧
      (eraseComment i s).count semicolon + 1 ≤ s.count semicolon := by
  obtain ⟨r, hr⟩ := drop_firstComment h
  have hs : s.count semicolon = (s.take i).count semicolon + (r.count semicolon + 1) := by
    conv_lhs => rw [← List.take_append_drop i s, hr]
    simp
  have hd : (List.dropWhile (· ≠ newline) (semicolon :: r)).count semicolon ≤ r.count semicolon := by
    rw [List.dropWhile_cons_of_pos (by decide)]
    exact (List.dropWhile_sublist _).count_le _
  simp only [eraseComment, List.count_append, hr]
  omega

theorem eraseComment_eq_nil {keep : Bool} {s : Text} {i : ℕ} (h : firstComment keep s = some i) :
    eraseComment i s = [] ↔ BareComment keep s := by
  have hne : s ≠ [] := by rintro rfl; cases h
  simp only [eraseComment, BareComment, List.append_eq_nil_iff, List.take_eq_nil_iff, hne, or_false,
    List.dropWhile_eq_nil_iff, h, Option.some.injEq]
  refine and_congr_right fun hi => ?_
  subst hi
  simp only [List.drop_zero, decide_eq_true_eq]
  exact ⟨fun hs hm => hs _ hm rfl, fun hs c hc hcn => hs (hcn ▸ hc)⟩

/-- An erasure that leaves something does not leave a bare comment. -/
theorem not_bareComment_eraseComment {keep : Bool} {s : Text} {i : ℕ}
    (h : firstComment keep s = some i) : ¬ BareComment keep (eraseComment i s) := by
  rintro ⟨h0, -⟩
  obtain ⟨r, hr⟩ := drop_firstComment h0
  cases i with
  | zero =>
    have hh := List.head?_dropWhile_not (fun c => decide (c ≠ newline)) s
    rw [List.drop_zero] at hr
    rw [show s.dropWhile (fun c => decide (c ≠ newline)) = semicolon :: r by
      simpa [eraseComment] using hr] at hh
    simp [newline, semicolon] at hh
  | succ i =>
    cases s with
    | nil => cases h
    | cons c s =>
      obtain ⟨j, hj, rfl⟩ : ∃ j, firstComment keep s = some j ∧ j = i := by
        simp only [firstComment] at h
        split_ifs at h with hc
        · simp at h
        · simpa using h
      have he : eraseComment (j + 1) (c :: s) = c :: eraseComment j s := rfl
      rw [he] at h0
      simp only [firstComment] at h0
      split_ifs at h0 with hc'
      · rw [Bool.eq_false_iff] at hc'
        have hm : keepsMacro keep s = false :=
          Bool.eq_false_iff.mpr fun hs => hc'.2 ((keepsMacro_eraseComment hj).mpr hs)
        simp [firstComment, hc'.1, hm] at h
      · obtain ⟨k, -, hk⟩ := Option.map_eq_some_iff.mp h0
        omega

private theorem macro_test {keep : Bool} (q r : Text) :
    (keep = true ∧ q.length < (q ++ semicolon :: r).length - 1 ∧
      (q ++ semicolon :: r)[q.length + 1]? = some atSign) ↔ keepsMacro keep r = true := by
  cases r <;> simp [keepsMacro]

private theorem eraseToLineEnd_append (q r : Text) :
    eraseToLineEnd q.length (q ++ r) = q ++ eraseComment 0 r := by
  rw [eraseToLineEnd, find_append, eraseComment, List.take_zero, List.nil_append, List.drop_zero]
  cases hf : find newline 0 r with
  | none =>
    have hn := find_eq_none.mp hf
    have hd : r.dropWhile (· ≠ newline) = [] := by
      rw [List.dropWhile_eq_nil_iff]
      intro c hc
      simpa using fun h : c = newline => hn (h ▸ hc)
    rw [hd]
    simp
  | some i =>
    obtain ⟨t, w, rfl, ht, rfl⟩ := find_eq_some hf
    have hd : (t ++ newline :: w).dropWhile (· ≠ newline) = newline :: w := by
      rw [List.dropWhile_append_of_pos, List.dropWhile_cons_of_neg (by simp)]
      intro c hc
      simpa using fun h : c = newline => ht (h ▸ hc)
    rw [hd]
    simp [erase]

/-- One iteration, with the `;` it finds behind `q`. -/
private theorem removeComments_step {keep : Bool} (pos f posComment : ℕ) (q r : Text)
    (h : find semicolon posComment (q ++ semicolon :: r) = some q.length) :
    removeComments keep pos (f + 1) (q ++ semicolon :: r) posComment =
      if keepsMacro keep r = true then
        removeComments keep pos f (q ++ semicolon :: r) (q.length + 1)
      else if q ++ eraseComment 0 (semicolon :: r) = [] then (q ++ eraseComment 0 (semicolon :: r), true)
      else removeComments keep pos f (q ++ eraseComment 0 (semicolon :: r)) pos := by
  rw [removeComments, h]
  dsimp only
  rw [if_congr (macro_test q r) rfl rfl, eraseToLineEnd_append]

/-- One round of the loop: the macro comments before the first erased comment are
passed over, then the comment is erased and the search starts again. -/
theorem removeComments_round {keep : Bool} (pos f : ℕ) {q v : Text} {i : ℕ}
    (h : firstComment keep v = some i) :
    removeComments keep pos ((v.take i).count semicolon + (f + 1)) (q ++ v) q.length =
      if q ++ eraseComment i v = [] then (q ++ eraseComment i v, true)
      else removeComments keep pos f (q ++ eraseComment i v) pos := by
  induction hn : v.length using Nat.strong_induction_on generalizing q v i with
  | _ n ih =>
    have hm : semicolon ∈ v := by
      by_contra hm
      rw [firstComment_of_notMem hm] at h
      cases h
    obtain ⟨j, hj⟩ := Option.ne_none_iff_exists'.mp fun hf => find_eq_none.mp hf hm
    obtain ⟨t, r, rfl, ht, rfl⟩ := find_eq_some hj
    have hq : q ++ (t ++ semicolon :: r) = q ++ t ++ semicolon :: r := by simp
    have hfind : find semicolon q.length (q ++ t ++ semicolon :: r) = some (q ++ t).length := by
      rw [← hq, find_append, hj, List.length_append]
      rfl
    rw [firstComment_append_cons ht] at h
    cases hk : keepsMacro keep r with
    | false =>
      rw [hk, if_neg (by simp)] at h
      cases h
      have he : q ++ t ++ eraseComment 0 (semicolon :: r) =
          q ++ eraseComment t.length (t ++ semicolon :: r) := by
        simp [eraseComment]
      rw [List.take_left, List.count_eq_zero.mpr ht, Nat.zero_add, hq,
        removeComments_step pos f _ _ _ hfind, hk, if_neg (by simp), he]
    | true =>
      rw [hk, if_pos rfl] at h
      obtain ⟨k, hkr, rfl⟩ := Option.map_eq_some_iff.mp h
      have hround := ih r.length (by simp at hn; omega) (q := q ++ t ++ [semicolon]) hkr rfl
      have hidx : t.length + 1 + k = (t ++ [semicolon]).length + k := by simp
      have hv : t ++ semicolon :: r = (t ++ [semicolon]) ++ r := by simp
      have htk : (t ++ semicolon :: r).take (t.length + 1 + k) = t ++ semicolon :: r.take k := by
        rw [hidx, hv, List.take_length_add_append]
        simp
      have he : q ++ eraseComment (t.length + 1 + k) (t ++ semicolon :: r) =
          q ++ t ++ [semicolon] ++ eraseComment k r := by
        rw [eraseComment, htk, hidx, hv, List.drop_length_add_append]
        simp [eraseComment]
      have hcount : (t ++ semicolon :: r.take k).count semicolon + (f + 1) =
          ((r.take k).count semicolon + (f + 1)) + 1 := by
        simp [List.count_eq_zero.mpr ht]
        omega
      have hq' : q ++ t ++ semicolon :: r = q ++ t ++ [semicolon] ++ r := by simp
      have hl : (q ++ t).length + 1 = (q ++ t ++ [semicolon]).length := by simp [Nat.add_assoc]
      rw [htk, hcount, hq, removeComments_step pos _ _ _ _ hfind, hk, if_pos rfl, he, hl, hq', hround]

theorem removeComments_none {keep : Bool} (pos fuel : ℕ) {q v : Text}
    (h : firstComment keep v = none) :
    removeComments keep pos fuel (q ++ v) q.length = (q ++ v, false) := by
  induction fuel generalizing q v with
  | zero => rfl
  | succ f ih =>
    cases hf : find semicolon 0 v with
    | none => simp [removeComments, find_append, hf]
    | some j =>
      obtain ⟨t, r, rfl, ht, rfl⟩ := find_eq_some hf
      have hq : q ++ (t ++ semicolon :: r) = q ++ t ++ semicolon :: r := by simp
      have hfind : find semicolon q.length (q ++ t ++ semicolon :: r) = some (q ++ t).length := by
        rw [← hq, find_append, hf, List.length_append]
        rfl
      rw [firstComment_append_cons ht] at h
      split_ifs at h with hk
      have hr := ih (q := q ++ t ++ [semicolon]) (Option.map_eq_none_iff.mp h)
      rw [hq, removeComments_step pos f _ _ _ hfind, if_pos hk]
      simpa [Nat.add_assoc] using hr

/-- The comment loop strips the comments behind `pos`; every fuel from the square of
their number on gives the same result. The early return is taken exactly when the
buffer was empty before and a bare comment is appended. -/
theorem removeComments_eq (keep : Bool) (pre x : Text) (fuel : ℕ)
    (hfuel : (x.count semicolon + 1) * (x.count semicolon + 1) ≤ fuel) :
    removeComments keep pre.length fuel (pre ++ x) pre.length =
      (pre ++ stripComments keep false x, decide (pre = [] ∧ BareComment keep x)) := by
  induction hn : x.count semicolon using Nat.strong_induction_on generalizing x fuel with
  | _ n ih =>
    cases h : firstComment keep x with
    | none =>
      have hb : ¬ BareComment keep x := fun hb => by simp [BareComment, h] at hb
      rw [removeComments_none _ _ h, stripComments_of_none h]
      simp [hb]
    | some i =>
      obtain ⟨hc, hc'⟩ := count_eraseComment h
      obtain ⟨f, rfl⟩ : ∃ f, fuel = (x.take i).count semicolon + (f + 1) :=
        ⟨fuel - ((x.take i).count semicolon + 1), by
          have hf : x.count semicolon + 1 ≤ fuel := le_trans (Nat.le_mul_self _) hfuel
          omega⟩
      have hs := stripComments_eraseComment h
      rw [removeComments_round _ f h]
      by_cases he : pre ++ eraseComment i x = []
      · obtain ⟨hp, hx⟩ := List.append_eq_nil_iff.mp he
        have hb := (eraseComment_eq_nil h).mp hx
        rw [if_pos he, ← hs, he]
        simp [hp, hx, hb, stripComments]
      · have hsq : ((eraseComment i x).count semicolon + 1) * ((eraseComment i x).count semicolon + 1) ≤ f := by
          rw [hn] at hfuel hc hc'
          nlinarith
        have hb : ¬ (pre = [] ∧ BareComment keep x) := fun ⟨hp, hb⟩ =>
          he (by rw [hp, (eraseComment_eq_nil h).mpr hb]; rfl)
        have hb' : ¬ (pre = [] ∧ BareComment keep (eraseComment i x)) := fun hb' =>
          not_bareComment_eraseComment h hb'.2
        rw [if_neg he, ih _ (by omega) _ f hsq rfl, hs]
        simp [hb, hb']

/-! ### Newlines -/

/-- `s` with every run of newlines shortened to one; the flag says that one precedes `s`. -/
def squeeze : Bool → Text → Text
  | _, [] => []
  | true, c :: s => if c = newline then squeeze true s else c :: squeeze false s
  | false, c :: s => if c = newline then newline :: squeeze true s else c :: squeeze false s

def endNewline (s : Text) : Text :=
  if s.length > 0 ∧ s.getLast? ≠ some newline then s ++ [newline] else s

/-- `squeeze` with the missing newline at the end; the flag is as there. -/
def tidy : Bool → Text → Text
  | true, [] => []
  | false, [] => [newline]
  | true, c :: s => if c = newline then tidy true s else c :: tidy false s
  | false, c :: s => if c = newline then newline :: tidy true s else c :: tidy false s

private theorem findPair_append (q y : Text) :
    findPair newline newline q.length (q ++ y) =
      (findPair newline newline 0 y).map (q.length + ·) := by
  induction q with
  | nil => simp
  | cons c q ih =>
    simp only [List.cons_append, List.length_cons, findPair, Nat.add_sub_cancel, ih, Option.map_map]
    rw [if_neg (by omega)]
    congr 1
    funext x
    simp only [Function.comp_apply]
    omega

private theorem findPair_none {y : Text} (h : findPair newline newline 0 y = none) :
    squeeze false y = y := by
  induction y with
  | nil => rfl
  | cons c y ih =>
    simp only [findPair, true_and, Nat.zero_sub] at h
    split_ifs at h with hc
    have hy := ih (Option.map_eq_none_iff.mp h)
    by_cases hn : c = newline
    · cases y with
      | nil => simp [squeeze, hn]
      | cons d y =>
        have hd : d ≠ newline := fun hd => hc ⟨hn, by rw [hd]; rfl⟩
        simp only [squeeze, hd, if_false] at hy
        simp [squeeze, hn, hd, hy]
    · simp [squeeze, hn, hy]

private theorem findPair_some {y : Text} {i : ℕ} (h : findPair newline newline 0 y = some i) :
    ∃ t r, y = t ++ newline :: newline :: r ∧ t.length = i ∧
      squeeze false y = t ++ squeeze false (newline :: r) := by
  induction y generalizing i with
  | nil => cases h
  | cons c y ih =>
    simp only [findPair, true_and, Nat.zero_sub] at h
    split_ifs at h with hc
    · cases h
      obtain ⟨rfl, hy⟩ := hc
      obtain ⟨r, rfl⟩ := List.head?_eq_some_iff.mp hy
      exact ⟨[], r, rfl, rfl, by simp [squeeze]⟩
    · obtain ⟨j, hj, rfl⟩ := Option.map_eq_some_iff.mp h
      obtain ⟨t, r, rfl, rfl, hs⟩ := ih hj
      refine ⟨c :: t, r, rfl, by simp [Nat.add_comm], ?_⟩
      by_cases hn : c = newline
      · cases t with
        | nil => exact absurd ⟨hn, rfl⟩ hc
        | cons d t =>
          have hd : d ≠ newline := fun hd => hc ⟨hn, by rw [hd]; rfl⟩
          simp only [List.cons_append, squeeze, hd, if_false, List.cons.injEq, true_and] at hs
          simp only [List.cons_append, squeeze, hn, if_true, hd, if_false, hs]
      · simp only [List.cons_append, squeeze, hn, if_false, hs]

theorem removeDoubleNewlines_eq (q y : Text) (fuel : ℕ) (hfuel : y.length ≤ fuel) :
    removeDoubleNewlines fuel (q ++ y) q.length = q ++ squeeze false y := by
  induction fuel generalizing q y with
  | zero =>
    have hy : y = [] := List.length_eq_zero_iff.mp (by omega)
    simp [removeDoubleNewlines, hy, squeeze]
  | succ f ih =>
    rw [removeDoubleNewlines, findPair_append]
    cases h : findPair newline newline 0 y with
    | none => simp [findPair_none h]
    | some i =>
      obtain ⟨t, r, rfl, rfl, hs⟩ := findPair_some h
      have hq := ih (q ++ t) (newline :: r) (by simp at hfuel ⊢; omega)
      have htake : (q ++ (t ++ newline :: newline :: r)).take (q.length + t.length) = q ++ t := by
        simp [List.take_length_add_append]
      have hdrop : (q ++ (t ++ newline :: newline :: r)).drop (q.length + t.length + 2) = r := by
        rw [Nat.add_assoc, List.drop_length_add_append, List.drop_length_add_append]
        rfl
      simp only [Option.map_some, htake, hdrop]
      rw [hs, ← List.append_assoc, ← hq, List.length_append]

private theorem endNewline_cons (c : UInt8) (s : Text) :
    endNewline (c :: s) = c :: (if s = [] ∧ c ≠ newline then [newline] else endNewline s) := by
  cases s with
  | nil => by_cases hc : c = newline <;> simp [endNewline, hc]
  | cons d s =>
    have hl : (c :: d :: s).getLast? = (d :: s).getLast? := by simp
    simp only [endNewline, hl, List.length_cons, Nat.succ_pos, true_and, reduceCtorEq, false_and,
      if_false, gt_iff_lt]
    split_ifs <;> rfl

private theorem endNewline_squeeze (s : Text) :
    endNewline (squeeze true s) = tidy true s ∧
      (if squeeze false s = [] then [newline] else endNewline (squeeze false s)) = tidy false s := by
  induction s with
  | nil => exact ⟨rfl, rfl⟩
  | cons c s ih =>
    obtain ⟨ih1, ih2⟩ := ih
    by_cases hc : c = newline
    · have h2 := endNewline_cons newline (squeeze true s)
      simp only [squeeze, tidy, hc, if_true, ih1, reduceCtorEq, if_false] at h2 ⊢
      simpa using h2
    · have h1 := endNewline_cons c (squeeze false s)
      have he : (if squeeze false s = [] ∧ c ≠ newline then [newline]
          else endNewline (squeeze false s)) = tidy false s := by
        simpa [hc] using ih2
      simp only [squeeze, tidy, hc, if_false, reduceCtorEq]
      exact ⟨by rw [h1, he], by rw [h1, he]⟩

/-- A bucket `pre` is empty, or ends with a newline and does not start with one. -/
def ProperBucket (pre : Text) : Prop :=
  pre = [] ∨ (pre.getLast? = some newline ∧ pre.head? ≠ some newline)

/-- The newline part of cleanup, on a proper bucket with `s` appended. -/
theorem tidyNewlines_eq {pre : Text} (hp : ProperBucket pre) (s : Text) :
    tidyNewlines (pre ++ s) pre.length = pre ++ tidy true s := by
  have hlast : ∀ u : Text, pre ≠ [] → endNewline (pre ++ u) = pre ++ endNewline u := by
    intro u hne
    obtain rfl | ⟨hl, -⟩ := hp
    · exact absurd rfl hne
    cases u using List.reverseRecOn with
    | nil => simp [endNewline, hl]
    | append_singleton u c =>
      simp only [endNewline, ← List.append_assoc, List.getLast?_append, List.getLast?_singleton,
        List.length_append, List.length_singleton, Option.some_or]
      by_cases hc : c = newline <;> simp [hc]
  let b := removeDoubleNewlines (pre ++ s).length (pre ++ s) (pre.length - 1)
  change endNewline (if find newline 0 b = some 0 then erase 0 1 b else b) = _
  rw [← (endNewline_squeeze s).1]
  obtain rfl | ⟨hl, hh⟩ := id hp
  · have h := removeDoubleNewlines_eq [] s s.length le_rfl
    have hb : b = squeeze false s := h
    rw [hb, List.nil_append]
    congr 1
    cases s with
    | nil => rfl
    | cons c s =>
      by_cases hc : c = newline
      · simp [squeeze, hc, find_cons_eq_zero, erase]
      · simp [squeeze, hc, find_cons_eq_zero]
  · obtain ⟨q, rfl⟩ := List.getLast?_eq_some_iff.mp hl
    have hb : b = q ++ [newline] ++ squeeze true s := by
      have h := removeDoubleNewlines_eq q (newline :: s) (q ++ [newline] ++ s).length (by simp)
      simpa [b, squeeze] using h
    have hne : find newline 0 b ≠ some 0 := by
      cases q with
      | nil => exact absurd rfl hh
      | cons c q => rw [hb]; simpa [find_cons_eq_zero] using hh
    rw [if_neg hne, hb]
    exact hlast _ (by simp)

/-! ### The description by lines -/

private theorem keepsMacro_splitOn {keep : Bool} {s h : Text} {ls : List Text}
    (hs : s.splitOn newline = h :: ls) : keepsMacro keep h = keepsMacro keep s := by
  cases s with
  | nil =>
    rw [List.splitOn_nil] at hs
    rw [← (List.cons.inj hs).1]
  | cons c s =>
    by_cases hc : c = newline
    · rw [hc, splitOn_sep] at hs
      rw [← (List.cons.inj hs).1, hc]
      simp [keepsMacro, newline, atSign]
    · obtain ⟨h', ls', hs'⟩ := exists_splitOn s
      rw [splitOn_cons hc hs'] at hs
      rw [← (List.cons.inj hs).1]
      simp [keepsMacro]

theorem splitOn_stripComments (keep : Bool) (s : Text) :
    (stripComments keep false s).splitOn newline = (s.splitOn newline).map (cutComment keep) ∧
      (stripComments keep true s).splitOn newline =
        [] :: (s.splitOn newline).tail.map (cutComment keep) := by
  induction s with
  | nil => exact ⟨rfl, rfl⟩
  | cons c s ih =>
    obtain ⟨ih1, ih2⟩ := ih
    by_cases hc : c = newline
    · have hcs : ¬ (newline = semicolon ∧ keepsMacro keep s = false) := fun h =>
        newline_ne_semicolon h.1
      subst hc
      simp [stripComments, hcs, splitOn_sep, ih1, cutComment]
    · obtain ⟨h, ls, hs⟩ := exists_splitOn s
      have hk : keepsMacro keep h = keepsMacro keep s := keepsMacro_splitOn hs
      rw [hs] at ih1 ih2
      rw [splitOn_cons hc hs]
      by_cases hm : c = semicolon ∧ keepsMacro keep s = false
      · simp only [stripComments, hm, if_true, and_self, List.map_cons, cutComment, hk,
          List.tail_cons]
        exact ⟨ih2, ih2⟩
      · simp only [stripComments, hm, hc, if_false, List.map_cons, cutComment, hk, List.tail_cons]
        exact ⟨splitOn_cons hc ih1, ih2⟩

theorem tidy_eq {s h : Text} {ls : List Text} (hs : s.splitOn newline = h :: ls) :
    tidy true s = unlines newline ((h :: ls).filter (· ≠ [])) ∧
      tidy false s = h ++ newline :: unlines newline (ls.filter (· ≠ [])) := by
  induction s generalizing h ls with
  | nil =>
    rw [List.splitOn_nil] at hs
    cases hs
    exact ⟨rfl, rfl⟩
  | cons c s ih =>
    obtain ⟨h', ls', hs'⟩ := exists_splitOn s
    obtain ⟨ih1, ih2⟩ := ih hs'
    by_cases hc : c = newline
    · rw [hc, splitOn_sep, hs'] at hs
      cases hs
      simp only [tidy, hc, if_true, ih1]
      exact ⟨rfl, rfl⟩
    · rw [splitOn_cons hc hs'] at hs
      cases hs
      simp [tidy, hc, ih2]

theorem norm_eq (keep : Bool) (gcode : Text) :
    norm keep gcode = tidy true (stripComments keep false (gcode.map crToNewline)) := by
  obtain ⟨h, ls, hs⟩ := exists_splitOn (stripComments keep false (gcode.map crToNewline))
  rw [(tidy_eq hs).1, ← hs, (splitOn_stripComments keep _).1]
  rfl

theorem normLines_append (keep : Bool) (a b : Text) :
    normLines keep (a ++ newline :: b) = normLines keep (a ++ [newline]) ++ normLines keep b := by
  have hn : crToNewline newline = newline := rfl
  simp only [normLines, List.map_append, List.map_cons, hn, List.splitOn_append_cons_self,
    List.filter_append, List.map_nil, List.splitOn_nil]
  simp [cutComment]

theorem normLines_append_newline (keep : Bool) (a : Text) :
    normLines keep (a ++ [newline]) = normLines keep a := by
  have hn : crToNewline newline = newline := rfl
  simp [normLines, hn, List.splitOn_append_cons_self, cutComment]

theorem cutComment_isPrefix (keep : Bool) (s : Text) : cutComment keep s <+: s := by
  induction s with
  | nil => exact List.prefix_refl _
  | cons c s ih =>
    rw [cutComment]
    split_ifs
    · exact List.nil_prefix
    · exact List.cons_prefix_cons.mpr ⟨rfl, ih⟩

theorem isLine_of_mem_normLines {keep : Bool} {gcode l : Text} (h : l ∈ normLines keep gcode) :
    IsLine newline l := by
  obtain ⟨hm, hne⟩ := List.mem_filter.mp h
  obtain ⟨l', hl', rfl⟩ := List.mem_map.mp hm
  exact ⟨by simpa using hne, fun hn => notMem_of_mem_splitOn hl' ((cutComment_isPrefix _ _).subset hn)⟩

theorem properBucket_unlines {ls : List Text} (h : ∀ l ∈ ls, IsLine newline l) :
    ProperBucket (unlines newline ls) := by
  cases ls with
  | nil => exact .inl rfl
  | cons l ls =>
    obtain ⟨hne, hn⟩ := h l (List.mem_cons_self ..)
    refine .inr ⟨getLast?_unlines (by simp), ?_⟩
    obtain ⟨c, s, rfl⟩ := List.exists_cons_of_ne_nil hne
    have hc : c ≠ newline := fun hc => hn (hc ▸ List.mem_cons_self ..)
    simpa using hc

/-- `cleanupGCode` on a bucket `pre` with `gcode` appended. The buffer size is corrected
by the change of the length, except on the early return. -/
theorem cleanupGCode_eq (g : GCodeBuffer) {pre : Text} (hp : ProperBucket pre) (gcode : Text) :
    g.cleanupGCode (pre ++ gcode) pre.length =
      (if pre = [] ∧ BareComment g.keepGpxMacroComments (gcode.map crToNewline) then g
        else { g with bufferSize := i32 (g.bufferSize -
          ((gcode.length : ℤ) - (norm g.keepGpxMacroComments gcode).length)) },
        pre ++ norm g.keepGpxMacroComments gcode) := by
  have hcount : ((gcode.map crToNewline).count semicolon + 1) *
      ((gcode.map crToNewline).count semicolon + 1) ≤
      ((pre ++ gcode).length + 1) * ((pre ++ gcode).length + 1) := by
    have hle : (gcode.map crToNewline).count semicolon ≤ gcode.length := by
      simpa using List.count_le_length (a := semicolon) (l := gcode.map crToNewline)
    have hlen : (pre ++ gcode).length = pre.length + gcode.length := List.length_append
    apply Nat.mul_le_mul <;> omega
  have hloop := removeComments_eq g.keepGpxMacroComments pre (gcode.map crToNewline) _ hcount
  simp only [cleanupGCode, List.take_left, List.drop_left, hloop]
  by_cases hb : pre = [] ∧ BareComment g.keepGpxMacroComments (gcode.map crToNewline)
  · have hs : stripComments g.keepGpxMacroComments false (gcode.map crToNewline) = [] := by
      obtain ⟨h0, -⟩ := hb.2
      rw [← stripComments_eraseComment h0, (eraseComment_eq_nil h0).mpr hb.2]
      rfl
    simp only [hb, norm_eq, hs, tidy]
    rfl
  · rw [decide_eq_false hb, if_neg hb]
    simp only [tidyNewlines_eq hp, ← norm_eq, List.length_append]
    congr 3
    push_cast
    ring

/-- Whether cleanup leaves a text as it is but for the newline it puts behind it: no line of the
text is empty or has a comment, and the last one is not ended. -/
def Unterminated (keep : Bool) (gcode : Text) : Prop :=
  ∀ l ∈ (gcode.map crToNewline).splitOn newline, l ≠ [] ∧ cutComment keep l = l

instance (keep : Bool) (gcode : Text) : Decidable (Unterminated keep gcode) := by
  unfold Unterminated
  infer_instance

theorem cutComment_append {keep : Bool} {a : Text} (ha : semicolon ∉ a) (s : Text) :
    cutComment keep (a ++ s) = a ++ cutComment keep s := by
  induction a with
  | nil => rfl
  | cons c a ih =>
    rw [List.mem_cons, not_or] at ha
    rw [List.cons_append, cutComment, if_neg fun hc => ha.1 hc.1.symm, ih ha.2, List.cons_append]

theorem cutComment_of_notMem {keep : Bool} {l : Text} (h : semicolon ∉ l) : cutComment keep l = l := by
  have := @cutComment_append keep l h []
  rwa [List.append_nil, cutComment, List.append_nil] at this

theorem map_crToNewline {s : Text} (h : carriageReturn ∉ s) : s.map crToNewline = s := by
  conv_rhs => rw [← List.map_id s]
  refine List.map_congr_left fun c hc => ?_
  have hcr : c ≠ carriageReturn := fun hr => h (hr ▸ hc)
  rw [crToNewline, if_neg hcr, id_eq]

theorem unterminated_of_notMem {keep : Bool} {gcode : Text} (hne : gcode ≠ []) (hn : newline ∉ gcode)
    (hr : carriageReturn ∉ gcode) (hs : semicolon ∉ gcode) : Unterminated keep gcode := by
  unfold Unterminated
  rw [map_crToNewline hr, List.splitOn_eq_singleton hn]
  intro l hl
  rw [List.mem_singleton.mp hl]
  exact ⟨hne, cutComment_of_notMem hs⟩

private theorem norm_length (keep : Bool) (gcode : Text) :
    (norm keep gcode).length ≤ gcode.length + 1 ∧
      ((norm keep gcode).length = gcode.length + 1 ↔ Unterminated keep gcode) := by
  have hlen : (unlines newline ((gcode.map crToNewline).splitOn newline)).length = gcode.length + 1 := by
    rw [unlines_splitOn, List.length_append, List.length_map, List.length_singleton]
  rw [← hlen]
  exact length_unlines_filter fun l _ => cutComment_isPrefix keep l

theorem norm_length_le (keep : Bool) (gcode : Text) : (norm keep gcode).length ≤ gcode.length + 1 :=
  (norm_length keep gcode).1

theorem norm_length_eq (keep : Bool) (gcode : Text) :
    (norm keep gcode).length = gcode.length + 1 ↔ Unterminated keep gcode :=
  (norm_length keep gcode).2

theorem zero_notMem_of_mem_normLines {keep : Bool} {gcode l : Text} (h : 0 ∉ gcode)
    (hl : l ∈ normLines keep gcode) : 0 ∉ l := by
  intro h0
  obtain ⟨piece, hpiece, rfl⟩ := List.mem_map.mp (List.mem_of_mem_filter hl)
  have hcut := cutComment_isPrefix keep piece
  have hmem := (isInfix_of_mem_splitOn hpiece).subset (hcut.subset h0)
  obtain ⟨c, hc, hc0⟩ := List.mem_map.mp hmem
  unfold crToNewline at hc0
  split_ifs at hc0 with hcr
  · exact absurd hc0 (by decide)
  · exact h (hc0 ▸ hc)

end Print3D
