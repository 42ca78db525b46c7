import Print3D.Drivers.Buckets

/-! Reading and erasing at the front of the gcode buffer: both work on whole lines of
the first bucket. -/
namespace Print3D
open Lines

namespace GCodeBuffer

variable {g g' : GCodeBuffer} {s : LineStore}

theorem nextNewlines_eq (i : ℕ) {done todo : List Text} {p : ℕ} (counter : ℤ)
    (htodo : ∀ l ∈ todo, newline ∉ l) (hp : p + 1 = (unlines newline done).length) :
    (i ≤ todo.length ∧ ∃ q, q + 1 = (unlines newline (done ++ todo.take i)).length ∧
        nextNewlines (unlines newline (done ++ todo)) i (some p) counter = (some q, counter + i)) ∨
      (todo.length < i ∧ nextNewlines (unlines newline (done ++ todo)) i (some p) counter =
        (none, counter + todo.length)) := by
  induction i generalizing done todo p counter with
  | zero => exact .inl ⟨Nat.zero_le _, p, by simpa using hp, by simp [nextNewlines]⟩
  | succ i ih =>
    have hfind : find newline (p + 1) (unlines newline (done ++ todo)) =
        todo.head?.map fun l => p + 1 + l.length := by
      rw [hp]
      exact find_unlines_append htodo
    cases todo with
    | nil =>
      refine .inr ⟨Nat.succ_pos _, ?_⟩
      simp only [nextNewlines, hfind]
      simp
    | cons l todo =>
      have hnext : p + 1 + l.length + 1 = (unlines newline (done ++ [l])).length := by
        rw [hp, unlines_append]
        simp [Nat.add_assoc]
      have happ : done ++ l :: todo = done ++ [l] ++ todo := by simp
      have hrec := ih (counter + 1) (fun m hm => htodo m (List.mem_cons_of_mem _ hm)) hnext
      rw [← happ] at hrec
      simp only [nextNewlines, hfind, List.head?_cons, Option.map_some]
      rcases hrec with ⟨hle, q, hq, he⟩ | ⟨hlt, he⟩
      · refine .inl ⟨by simpa using hle, q, ?_, ?_⟩
        · rw [hq]
          simp
        · rw [he]
          congr 1
          push_cast
          ring
      · refine .inr ⟨by simpa using hlt, ?_⟩
        rw [he, List.length_cons]
        congr 1
        push_cast
        ring

/-- The lines a call for `amount` of them takes from a bucket with `n`. -/
def taken (amount n : ℕ) : ℕ := min (max amount 1) n

private theorem search_front {l : Text} {ls : List Text} (h : ∀ m ∈ l :: ls, IsLine newline m)
    {amount : ℕ} (hamount : 1 < amount) :
    (amount ≤ (l :: ls).length ∧ ∃ q, q + 1 = (unlines newline ((l :: ls).take amount)).length ∧
        nextNewlines (unlines newline (l :: ls)) (amount - 1) (some l.length) 1 = (some q, (amount : ℤ))) ∨
      ((l :: ls).length < amount ∧
        nextNewlines (unlines newline (l :: ls)) (amount - 1) (some l.length) 1 =
          (none, ((l :: ls).length : ℤ))) := by
  obtain ⟨i, rfl⟩ := Nat.exists_eq_add_of_lt hamount
  have hp : l.length + 1 = (unlines newline [l]).length := by simp
  have hls : ∀ m ∈ ls, newline ∉ m := fun m hm => (h m (List.mem_cons_of_mem _ hm)).2
  have hi : 1 + i + 1 - 1 = i + 1 := by omega
  rw [hi]
  rcases nextNewlines_eq (i + 1) 1 hls hp with ⟨hle, q, hq, he⟩ | ⟨hlt, he⟩
  · refine .inl ⟨by simp; omega, q, ?_, ?_⟩
    · rw [hq, show 1 + i + 1 = (i + 1) + 1 by omega, List.take_succ_cons]
      simp
    · rw [show [l] ++ ls = l :: ls from rfl] at he
      rw [he]
      push_cast
      ring_nf
  · refine .inr ⟨by simp; omega, ?_⟩
    rw [show [l] ++ ls = l :: ls from rfl] at he
    rw [he, List.length_cons]
    congr 1
    push_cast
    ring

private theorem find_front {l : Text} {ls : List Text} (h : ∀ m ∈ l :: ls, IsLine newline m) :
    find newline 0 (unlines newline (l :: ls)) = some l.length := by
  rw [unlines_cons]
  exact find_append_cons (h l (List.mem_cons_self ..)).2

private theorem exists_front (h : g.Stores s) (hf : s.front ≠ []) :
    ∃ l ls rest, s.front = l :: ls ∧ s.buckets = (l :: ls) :: rest ∧
      g.buckets = unlines newline (l :: ls) :: rest.map (unlines newline) ∧
      ∀ m ∈ l :: ls, IsLine newline m := by
  unfold LineStore.front at hf ⊢
  cases hb : s.buckets with
  | nil => exact absurd (by rw [hb]; rfl) hf
  | cons b rest =>
    rw [hb, List.headD_cons] at hf
    obtain ⟨l, ls, rfl⟩ := List.exists_cons_of_ne_nil hf
    exact ⟨l, ls, rest, rfl, rfl, by rw [h, hb, List.map_cons], s.isLine _ (by simp [hb])⟩

/-- What `getNextLine` returns: the number of lines, and their text without the last
newline, with it when more than the lines of the bucket were asked for. -/
theorem getNextLine_eq (h : g.Stores s) (hf : s.front ≠ []) (amount : ℕ) :
    g.getNextLine amount = ((taken amount s.front.length : ℤ), if amount ≤ s.front.length
      then (unlines newline (s.front.take (max amount 1))).dropLast else unlines newline s.front) := by
  obtain ⟨l, ls, rest, hfront, -, hg, hline⟩ := exists_front h hf
  have hne : (unlines newline (l :: ls)) ≠ [] := by simp
  rw [hfront, getNextLine, hg]
  simp only [find_front hline, ne_eq, reduceCtorEq, not_false_eq_true, if_true, and_true]
  by_cases hamount : 1 < amount
  · have hmax : max amount 1 = amount := by omega
    rw [if_pos hamount]
    rcases search_front hline hamount with ⟨hle, q, hq, he⟩ | ⟨hlt, he⟩
    · have hpre : (unlines newline (l :: ls)).take q =
          (unlines newline ((l :: ls).take amount)).dropLast := by
        rw [List.dropLast_eq_take, ← hq, Nat.add_sub_cancel]
        conv_lhs => rw [← List.take_append_drop amount (l :: ls), unlines_append]
        rw [List.take_append_of_le_length (by omega)]
      simp only [he, reduceCtorEq, false_and, if_false, hpre, if_pos hle, hmax, taken,
        min_eq_left hle]
    · have hlast : (unlines newline (l :: ls)).getLast? = some newline := getLast?_unlines (by simp)
      have hnle : ¬ amount ≤ (l :: ls).length := by omega
      simp only [he, hlast, not_true_eq_false, and_false, if_false, if_neg hnle, taken, hmax,
        min_eq_right hlt.le]
  · have hmax : max amount 1 = 1 := by omega
    have hle : amount ≤ (l :: ls).length := by
      rw [List.length_cons]
      omega
    rw [if_neg hamount, if_pos hle]
    simp [taken, hmax]

theorem getNextLine_of_nil (h : g.Stores s) (hf : s.front = []) (amount : ℕ) :
    g.getNextLine amount = (0, []) := by
  unfold LineStore.front at hf
  cases hb : s.buckets with
  | nil => rw [getNextLine, h, hb]; rfl
  | cons b rest =>
    rw [hb, List.headD_cons] at hf
    rw [getNextLine, h, hb, hf]
    simp [find]

theorem getNextLine_one (h : g.Stores s) {l : Text} {ls : List Text} (hl : s.lines = l :: ls) :
    g.getNextLine = (1, l) := by
  have hf : s.front ≠ [] := fun hf => by rw [s.lines_eq_nil_of_front hf] at hl; cases hl
  obtain ⟨m, ms, hm⟩ := List.exists_cons_of_ne_nil hf
  obtain ⟨r, hr⟩ := s.front_prefix
  have hml : m = l := by
    rw [hm, hl, List.cons_append, List.cons.injEq] at hr
    exact hr.1
  rw [getNextLine_eq h hf, hm, if_pos (by simp)]
  simp [taken, hml]

theorem getNextLine_pos (h : g.Stores s) (amount : ℕ) :
    0 < (g.getNextLine amount).1 ↔ s.front ≠ [] := by
  by_cases hf : s.front = []
  · simp [getNextLine_of_nil h hf, hf]
  · have hlen : 0 < s.front.length := List.length_pos_iff.mpr hf
    rw [getNextLine_eq h hf]
    simp only [taken, hf, ne_eq, not_false_eq_true, iff_true]
    omega

private theorem eraseEnd_eq {l : Text} {ls : List Text} (h : ∀ m ∈ l :: ls, IsLine newline m)
    (amount : ℕ) :
    ∃ pos, eraseEnd (unlines newline (l :: ls)) amount = some (pos, (taken amount (l :: ls).length : ℤ)) ∧
      eraseThrough (unlines newline (l :: ls)) pos =
        unlines newline ((l :: ls).drop (taken amount (l :: ls).length)) := by
  have herase : ∀ k q, q + 1 = (unlines newline ((l :: ls).take k)).length →
      erase 0 (q + 1) (unlines newline (l :: ls)) = unlines newline ((l :: ls).drop k) := by
    intro k q hq
    have hcut : unlines newline (l :: ls) =
        unlines newline ((l :: ls).take k) ++ unlines newline ((l :: ls).drop k) := by
      rw [← unlines_append, List.take_append_drop]
    rw [hq, hcut, erase, List.take_zero, List.nil_append, Nat.zero_add, List.drop_left]
  unfold eraseEnd
  simp only [find_front h]
  by_cases hamount : 1 < amount
  · rw [if_pos hamount]
    rcases search_front h hamount with ⟨hle, q, hq, he⟩ | ⟨hlt, he⟩
    · have hk : taken amount (l :: ls).length = amount := by
        rw [taken]
        omega
      rw [hk]
      exact ⟨some q, by simp only [he, reduceCtorEq, if_false], herase _ _ hq⟩
    · have hlast : (unlines newline (l :: ls)).getLast? = some newline := getLast?_unlines (by simp)
      have hk : taken amount (l :: ls).length = (l :: ls).length := by
        rw [taken]
        omega
      rw [hk]
      refine ⟨none, ?_, by simp [eraseThrough]⟩
      simp only [he, hlast, if_true, Option.map_some, ne_eq, not_true_eq_false, if_false]
  · have hk : taken amount (l :: ls).length = 1 := by
      rw [taken, List.length_cons]
      omega
    rw [hk, if_neg hamount]
    exact ⟨some l.length, rfl, herase _ _ (by simp)⟩

/-- On an empty bucket only a call for one line ends, and erases nothing. -/
theorem eraseEnd_nil (amount : ℕ) : eraseEnd [] amount = if amount > 1 then none else some (none, 1) := by
  unfold eraseEnd
  have hfind : ∀ start, find newline start ([] : Text) = none := fun start => by simp [find]
  by_cases hamount : amount > 1
  · obtain ⟨i, rfl⟩ := Nat.exists_eq_add_of_lt hamount
    have hi : 1 + i + 1 - 1 = i + 1 := by omega
    simp [hfind, hi, nextNewlines]
  · simp [hfind, hamount]

/-- `eraseLine` changes the buckets and the counters of the stored bytes and lines, nothing else. -/
theorem eraseLine_frame {amount : ℕ} {n : ℤ} (h : g.eraseLine amount = some (n, g')) :
    g' = { g with
      buckets := g'.buckets, bufferSize := g'.bufferSize, bufferedLines := g'.bufferedLines } := by
  unfold eraseLine at h
  split at h
  · cases h
    rfl
  · obtain ⟨⟨pos, counter⟩, -, he⟩ := Option.map_eq_some_iff.mp h
    cases he
    rfl

/-- `eraseLine` on a bucket with lines takes whole lines off it. -/
theorem eraseLine_eq (h : g.Stores s) (hf : s.front ≠ []) (amount : ℕ) :
    g.eraseLine amount = some ((taken amount s.front.length : ℤ),
      { g with
        buckets := (s.erase (taken amount s.front.length)).buckets.map (unlines newline)
        bufferSize := i32 (g.bufferSize -
          (unlines newline (s.front.take (taken amount s.front.length))).length)
        bufferedLines := i32 (g.bufferedLines - taken amount s.front.length) }) := by
  obtain ⟨l, ls, rest, hfront, hbs, hg, hline⟩ := exists_front h hf
  obtain ⟨pos, hend, herased⟩ := eraseEnd_eq hline amount
  rw [hfront, eraseLine, hg]
  simp only [hend, Option.map_some, herased]
  set k := taken amount (l :: ls).length
  have hbuckets : (if (unlines newline ((l :: ls).drop k)).length = 0 then rest.map (unlines newline)
      else unlines newline ((l :: ls).drop k) :: rest.map (unlines newline)) =
      (s.erase k).buckets.map (unlines newline) := by
    simp only [LineStore.erase, hbs, LineStore.dropFront, List.length_eq_zero_iff, unlines_eq_nil]
    split_ifs <;> simp
  have hsize : ((unlines newline (l :: ls)).length : ℤ) - (unlines newline ((l :: ls).drop k)).length =
      (unlines newline ((l :: ls).take k)).length := by
    conv_lhs => rw [← List.take_append_drop k (l :: ls), unlines_append, List.length_append]
    rw [List.take_append_drop]
    push_cast
    ring
  rw [hbuckets, hsize]

end GCodeBuffer
end Print3D
