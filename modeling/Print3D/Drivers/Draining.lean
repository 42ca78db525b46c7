import Print3D.Drivers.BufferRuns

/-! Taking the gcode buffer off in batches: `getNextLine` and `eraseLine` agree on what a batch
is, for every sequence of batch sizes. `getNextLine` is a `const` function: it returns no buffer. -/
namespace Print3D
open Lines

namespace GCodeBuffer

variable {g g' g'' : GCodeBuffer} {s : LineStore} {sent : List Text} {amounts : ℕ → ℕ} {amount i : ℕ}
  {ls : List Text} {lss : List (List Text)}

/-- One batch: `getNextLine` returns the text of the first lines, with or without the last newline,
and `eraseLine` takes just these lines off. -/
structure Delivers (g : GCodeBuffer) (amount : ℕ) (ls : List Text) (g' : GCodeBuffer) : Prop where
  pos : 1 ≤ ls.length
  le : ls.length ≤ amount
  reads : ∃ line, g.getNextLine amount = ((ls.length : ℤ), line) ∧
    (line = unlines newline ls ∨ line ++ [newline] = unlines newline ls)
  erases : g.eraseLine ls.length = some ((ls.length : ℤ), g')
  contents : g.buckets.flatten = unlines newline ls ++ g'.buckets.flatten

/-- Batches of at most `amounts i`, `amounts (i + 1)` and so on, until there is no next line. -/
inductive Drained (amounts : ℕ → ℕ) : ℕ → GCodeBuffer → List (List Text) → GCodeBuffer → Prop
  | done {i : ℕ} {g : GCodeBuffer} : (g.getNextLine (amounts i)).1 = 0 → Drained amounts i g [] g
  | next {i : ℕ} {g g' g'' : GCodeBuffer} {ls : List Text} {lss : List (List Text)} :
      g.Delivers (amounts i) ls g' → Drained amounts (i + 1) g' lss g'' → Drained amounts i g (ls :: lss) g''

theorem Tracks.delivers (h : g.Tracks s sent) (hf : s.front ≠ []) (hamount : 1 ≤ amount) :
    ∃ g', g.Delivers amount (s.front.take (taken amount s.front.length)) g' ∧
      g'.Tracks (s.erase (taken amount s.front.length)) sent := by
  have hlen : 0 < s.front.length := List.length_pos_iff.mpr hf
  have htaken : taken amount s.front.length = min amount s.front.length := by
    rw [taken, max_eq_left hamount]
  have hle : taken amount s.front.length ≤ s.front.length := min_le_right ..
  have hpos : 1 ≤ taken amount s.front.length := by omega
  have htake : (s.front.take (taken amount s.front.length)).length = taken amount s.front.length :=
    List.length_take_of_le hle
  have hagain : taken (taken amount s.front.length) s.front.length = taken amount s.front.length := by
    rw [taken, max_eq_left hpos, min_eq_left hle]
  obtain ⟨g', hg', h'⟩ := h.eraseLine hf (taken amount s.front.length)
  rw [hagain] at hg' h'
  refine ⟨g', ⟨?_, ?_, ?_, ?_, ?_⟩, h'⟩
  · rwa [htake]
  · rw [htake, htaken]
    exact min_le_left ..
  · rw [getNextLine_eq h.stores hf, htake]
    refine ⟨_, rfl, ?_⟩
    split_ifs with hfront
    · right
      rw [htaken, min_eq_left hfront, max_eq_left hamount]
      refine List.dropLast_append_getLast? _ (getLast?_unlines ?_)
      intro hnil
      rcases List.take_eq_nil_iff.mp hnil with h0 | h0
      · omega
      · exact hf h0
    · left
      rw [htaken, min_eq_right (by omega), List.take_length]
  · rw [htake]
    exact hg'
  · obtain ⟨r, hr⟩ := s.front_prefix
    rw [h.stores.flatten_buckets, h'.stores.flatten_buckets, s.lines_erase hle, ← unlines_append, ← hr,
      ← List.take_append_of_le_length hle, List.take_append_drop]

theorem Tracks.drained (hamounts : ∀ i, 1 ≤ amounts i) (n : ℕ) : ∀ {g : GCodeBuffer} {s : LineStore} {i : ℕ},
    g.Tracks s sent → s.lines.length = n →
    ∃ lss g', Drained amounts i g lss g' ∧ lss.flatten = s.lines ∧ g'.getBufferedLines = 0 ∧
      g'.buckets.flatten = [] := by
  induction n using Nat.strong_induction_on with
  | _ n ih =>
    intro g s i h hn
    by_cases hf : s.front = []
    · have hnil := s.lines_eq_nil_of_front hf
      refine ⟨[], g, .done ?_, hnil.symm, ?_, ?_⟩
      · rw [getNextLine_of_nil h.stores hf]
      · unfold getBufferedLines
        rw [h.buffered, hnil]
        exact i32_zero
      · rw [h.stores.flatten_buckets, hnil]
        rfl
    · obtain ⟨g', hdelivers, h'⟩ := h.delivers hf (hamounts i)
      have hle : taken (amounts i) s.front.length ≤ s.front.length := min_le_right ..
      have hlines := s.lines_erase hle
      have hpos := hdelivers.pos
      rw [List.length_take_of_le hle] at hpos
      have hlt : (s.erase (taken (amounts i) s.front.length)).lines.length < n := by
        have := hle.trans s.front_prefix.length_le
        rw [hlines, List.length_drop]
        omega
      obtain ⟨lss, g'', hdrained, hflatten, hend⟩ := ih _ hlt h' rfl
      refine ⟨_ :: lss, g'', .next hdelivers hdrained, ?_, hend⟩
      obtain ⟨r, hr⟩ := s.front_prefix
      rw [List.flatten_cons, hflatten, hlines]
      conv_rhs => rw [← List.take_append_drop (taken (amounts i) s.front.length) s.lines]
      rw [← hr, List.take_append_of_le_length hle]

end GCodeBuffer

namespace SentBuffer
open GCodeBuffer

/-- In every reachable state, and for every sequence of batch sizes, the batches are the stored
lines, each once and in order, and nothing is left behind them. -/
theorem drain_delivers {keep : Bool} {calls : List BufferCall} {t : SentBuffer}
    (hrun : Transition.Run Step (init keep) calls t) {amounts : ℕ → ℕ} (hamounts : ∀ i, 1 ≤ amounts i) :
    ∃ lss g', Drained amounts 0 t.buffer lss g' ∧ t.buffer.buckets.flatten = unlines newline lss.flatten ∧
      (∀ l ∈ lss.flatten, IsLine newline l) ∧ g'.getBufferedLines = 0 ∧ g'.buckets.flatten = [] := by
  obtain ⟨s, hs⟩ := tracked_run hrun
  obtain ⟨lss, g', hdrained, hflatten, hend⟩ := hs.drained hamounts _ (i := 0) rfl
  refine ⟨lss, g', hdrained, ?_, ?_, hend⟩
  · rw [hs.stores.flatten_buckets, hflatten]
  · rw [hflatten]
    exact fun l hl => s.isLine_of_mem_lines hl

theorem drain_delivers_mixed :
    ∃ lss g', Drained (fun i => i + 1) 0
        { buckets := [ascii "M1\nG2\n"], bufferedLines := 2, totalLinesSent := 2, bufferSize := 6 } lss g' ∧
      ascii "M1\nG2\n" = unlines newline lss.flatten ∧ (∀ l ∈ lss.flatten, IsLine newline l) ∧
      g'.getBufferedLines = 0 ∧ g'.buckets.flatten = [] := by
  let t : SentBuffer :=
    { buffer := { buckets := [ascii "M1\nG2\n"], bufferedLines := 2, totalLinesSent := 2, bufferSize := 6 }
      sent := [ascii "M1", ascii "G2"] }
  have hstep : (init false).Step (.append (ascii "M1;x\n;y\nG2") (-1) none) t := ⟨trivial, by decide, by decide⟩
  exact drain_delivers (.cons hstep (.nil t)) fun i => Nat.succ_pos i

end SentBuffer
end Print3D
