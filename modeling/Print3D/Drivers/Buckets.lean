import Print3D.Drivers.LineStore

/-! The operations of the gcode buffer on a store of lines: what each does to the lines
and to the counters. -/
namespace Print3D
open Lines

namespace GCodeBuffer

/-- The buckets of the buffer hold the lines of `s`. -/
def Stores (g : GCodeBuffer) (s : LineStore) : Prop := g.buckets = s.buckets.map (unlines newline)

def storedBytes (g : GCodeBuffer) : ℕ := (g.buckets.map List.length).sum

variable {g g' : GCodeBuffer} {s : LineStore}

theorem Stores.flatten_buckets (h : g.Stores s) : g.buckets.flatten = unlines newline s.lines := by
  rw [h, LineStore.lines, unlines_flatten]

theorem Stores.storedBytes_eq (h : g.Stores s) : g.storedBytes = s.size := by
  rw [storedBytes, ← List.length_flatten, h.flatten_buckets, LineStore.size]

theorem stores_clear (g : GCodeBuffer) : g.clear.Stores .empty := rfl

/-! ### Appending -/

theorem openBucket_map (bs : List (List Text)) :
    openBucket (bs.map (unlines newline)) =
      (LineStore.closed bs).map (unlines newline) ++ [unlines newline (LineStore.current bs)] := by
  rcases List.eq_nil_or_concat bs with rfl | ⟨bs, b, rfl⟩
  · rfl
  · rw [List.concat_eq_append]
    by_cases hf : maxBucketSize ≤ (unlines newline b).length <;>
      simp [openBucket, LineStore.closed, LineStore.current, LineStore.full, hf]

/-- By how much a chunk raises `bufferSize_` when it is appended to a bucket with lines `ls`. -/
def accounted (keep : Bool) (ls : List Text) (chunk : Text) : ℕ :=
  if ls = [] ∧ BareComment keep (chunk.map crToNewline) then chunk.length else (norm keep chunk).length

theorem norm_of_bareComment {keep : Bool} {chunk : Text}
    (h : BareComment keep (chunk.map crToNewline)) : norm keep chunk = [] := by
  rw [norm_eq, ← stripComments_eraseComment h.1, (eraseComment_eq_nil h.1).mpr h]
  rfl

/-- Cleanup and the size update of `appendChunk` together. -/
private theorem cleanupGCode_accounted (g : GCodeBuffer) {cur : List Text}
    (hcur : ∀ l ∈ cur, IsLine newline l) (chunk : Text) :
    ∃ g₁, g.cleanupGCode (unlines newline cur ++ chunk) (unlines newline cur).length =
        (g₁, unlines newline (cur ++ normLines g.keepGpxMacroComments chunk)) ∧
      ∀ bs, ({ g₁ with buckets := bs, bufferSize := i32 (g₁.bufferSize + chunk.length) } : GCodeBuffer) =
        { g with buckets := bs, bufferSize := i32 (g.bufferSize +
          accounted g.keepGpxMacroComments cur chunk) } := by
  have hclean := cleanupGCode_eq g (properBucket_unlines hcur) chunk
  simp only [norm, ← unlines_append, unlines_eq_nil] at hclean
  refine ⟨_, hclean, fun bs => ?_⟩
  unfold accounted
  by_cases hbare : cur = [] ∧ BareComment g.keepGpxMacroComments (chunk.map crToNewline)
  · simp only [if_pos hbare]
  · simp only [if_neg hbare, norm, i32_i32_add]
    congr 2
    ring

private theorem updateStats_unlines (g : GCodeBuffer) {cur ls : List Text}
    (hls : ∀ l ∈ ls, IsLine newline l) :
    g.updateStats (unlines newline (cur ++ ls)) (unlines newline cur).length =
      { g with
        bufferedLines := i32 (g.bufferedLines + ls.length)
        totalLinesSent := i32 (g.totalLinesSent + ls.length)
        currentLine := min g.currentLine (i32 (g.totalLinesSent + ls.length)) } := by
  have hcount : ((unlines newline (cur ++ ls)).drop (unlines newline cur).length).count newline =
      ls.length := by
    rw [unlines_append, List.drop_left]
    exact count_unlines fun l hl => (hls l hl).2
  have hend : ¬ ((unlines newline (cur ++ ls)).length > 0 ∧
      (unlines newline (cur ++ ls)).getLast? ≠ some newline) := by
    rintro ⟨hpos, hlast⟩
    apply hlast
    apply getLast?_unlines
    rintro hnil
    simp [hnil] at hpos
  simp only [updateStats, hcount, if_neg hend, min_def]
  congr 1
  split_ifs <;> omega

theorem appendChunk_eq (h : g.Stores s) (chunk : Text) :
    g.appendChunk chunk =
      { g with
        buckets := (s.put (normLines g.keepGpxMacroComments chunk)
          fun _ => isLine_of_mem_normLines).buckets.map (unlines newline)
        bufferSize := i32 (g.bufferSize +
          accounted g.keepGpxMacroComments (LineStore.current s.buckets) chunk)
        bufferedLines := i32 (g.bufferedLines + (normLines g.keepGpxMacroComments chunk).length)
        totalLinesSent := i32 (g.totalLinesSent + (normLines g.keepGpxMacroComments chunk).length)
        currentLine := min g.currentLine
          (i32 (g.totalLinesSent + (normLines g.keepGpxMacroComments chunk).length)) } := by
  have hcur : ∀ l ∈ LineStore.current s.buckets, IsLine newline l := fun l hl =>
    s.isLine_of_mem_lines (by
      rw [LineStore.lines, ← LineStore.closed_append_current]
      exact List.mem_append_right _ hl)
  have hopen := openBucket_map s.buckets
  rw [← h] at hopen
  obtain ⟨g₁, hclean, hsize⟩ := cleanupGCode_accounted g hcur chunk
  unfold appendChunk
  simp only [hopen, List.getLastD_concat, List.dropLast_concat, hclean, hsize]
  rw [updateStats_unlines _ fun _ => isLine_of_mem_normLines]
  simp [LineStore.put]

/-! ### Cutting the text into chunks -/

/-- Every chunk but the last ends with a newline. -/
def Chunked (cs : List Text) : Prop := ∀ c ∈ cs.dropLast, c.getLast? = some newline

private theorem mem_dropLast_cons {α : Type*} {a c : α} {cs : List α} (h : c ∈ (a :: cs).dropLast) :
    (c = a ∧ cs ≠ []) ∨ c ∈ cs.dropLast := by
  cases cs with
  | nil => simp at h
  | cons b cs =>
    rw [List.dropLast_cons_cons, List.mem_cons] at h
    exact h.imp_left fun h => ⟨h, by simp⟩

theorem Chunked.tail {c : Text} {cs : List Text} (h : Chunked (c :: cs)) : Chunked cs := by
  cases cs with
  | nil => simp [Chunked]
  | cons d cs => exact fun x hx => h x (by rw [List.dropLast_cons_cons]; exact List.mem_cons_of_mem _ hx)

theorem splitChunks_spec (fuel : ℕ) {gcode : Text} {start : ℕ} (hstart : start ≤ gcode.length)
    (hfuel : gcode.length - start ≤ fuel) :
    (splitChunks fuel gcode start).flatten = gcode.drop start ∧
      Chunked (splitChunks fuel gcode start) := by
  induction fuel generalizing start with
  | zero =>
    have h : start = gcode.length := by omega
    simp [splitChunks, h, Chunked]
  | succ f ih =>
    rw [splitChunks]
    by_cases hlt : start < gcode.length
    · rw [if_pos hlt]
      cases hn : find newline (start + bufferSplitSize) gcode with
      | none =>
        obtain ⟨ih1, -⟩ := ih (le_refl gcode.length) (by omega)
        have hend : start + (gcode.length - start) = gcode.length := by omega
        have hnil : splitChunks f gcode gcode.length = [] := by
          cases f <;> simp [splitChunks]
        simp [hend, hnil, Chunked]
      | some nl =>
        obtain ⟨hge, r, hr⟩ := drop_find hn
        have hlen : nl < gcode.length := by
          by_contra hge
          rw [List.drop_eq_nil_of_le (by omega)] at hr
          cases hr
        have hnext : start + (nl - start + 1) = nl + 1 := by omega
        obtain ⟨ih1, ih2⟩ := ih (show nl + 1 ≤ gcode.length by omega) (by omega)
        simp only [hnext, List.flatten_cons, ih1]
        have hdrop : (gcode.drop start).drop (nl - start + 1) = gcode.drop (nl + 1) := by
          rw [List.drop_drop, hnext]
        refine ⟨?_, fun c hc => ?_⟩
        · rw [← hdrop, List.take_append_drop]
        · rcases mem_dropLast_cons hc with ⟨rfl, -⟩ | hc
          · have hd : (gcode.drop start).drop (nl - start) = newline :: r := by
              rw [List.drop_drop, ← hr]
              congr 1
              omega
            rw [List.take_add, hd]
            simp
          · exact ih2 c hc
    · have h : start = gcode.length := by omega
      simp [h, Chunked]

theorem flatten_chunks (gcode : Text) : (chunks gcode).flatten = gcode := by
  simpa [chunks] using (splitChunks_spec gcode.length (Nat.zero_le gcode.length) le_rfl).1

theorem chunked_chunks (gcode : Text) : Chunked (chunks gcode) :=
  (splitChunks_spec gcode.length (Nat.zero_le gcode.length) le_rfl).2

/-- Chunks are cleaned independently. -/
theorem normLines_flatten (keep : Bool) {cs : List Text} (h : Chunked cs) :
    normLines keep cs.flatten = (cs.map (normLines keep)).flatten := by
  induction cs with
  | nil => simp [normLines, cutComment]
  | cons c cs ih =>
    rw [List.map_cons, List.flatten_cons, List.flatten_cons, ← ih h.tail]
    cases cs with
    | nil => simp [normLines, cutComment]
    | cons d cs =>
      obtain ⟨a, rfl⟩ := List.getLast?_eq_some_iff.mp (h c (by simp))
      rw [List.append_assoc, List.singleton_append, normLines_append]

end GCodeBuffer
end Print3D
