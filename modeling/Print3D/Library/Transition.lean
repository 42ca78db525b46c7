import Mathlib.Tactic

/-! Finite runs of a labelled transition relation and their induction rules. -/
namespace Transition

variable {σ ℓ γ : Type*}

/-- `Run step s ls t`: the labels `ls`, in this order, lead from `s` to `t`. -/
inductive Run (step : σ → ℓ → σ → Prop) : σ → List ℓ → σ → Prop
  | nil (s : σ) : Run step s [] s
  | cons {s t u : σ} {l : ℓ} {ls : List ℓ} :
      step s l t → Run step t ls u → Run step s (l :: ls) u

variable {step step' : σ → ℓ → σ → Prop} {s t u : σ} {l : ℓ} {ls ms : List ℓ}

theorem Run.append (h : Run step s ls t) (h' : Run step t ms u) : Run step s (ls ++ ms) u := by
  induction h with
  | nil => exact h'
  | cons hs _ ih => exact .cons hs (ih h')

/-- A run can be cut at any position of its label list. -/
theorem Run.split (h : Run step s (ls ++ ms) u) : ∃ t, Run step s ls t ∧ Run step t ms u := by
  induction ls generalizing s with
  | nil => exact ⟨s, .nil s, h⟩
  | cons l ls ih =>
    cases h with
    | cons hs hr =>
      obtain ⟨t, h1, h2⟩ := ih hr
      exact ⟨t, .cons hs h1, h2⟩

theorem Run.cons_inv (h : Run step s (l :: ls) u) : ∃ t, step s l t ∧ Run step t ls u := by
  cases h with
  | cons hs hr => exact ⟨_, hs, hr⟩

/-- A property of the state that every step keeps holds at the end of every run. -/
theorem Run.invariant (I : σ → Prop) (hstep : ∀ s l t, I s → step s l t → I t)
    (h : Run step s ls t) (hs : I s) : I t := by
  induction h with
  | nil => exact hs
  | cons hl _ ih => exact ih (hstep _ _ _ hs hl)

/-- The same with a value computed from the labels carried along. -/
theorem Run.invariant_fold (I : γ → σ → Prop) (upd : γ → ℓ → γ)
    (hstep : ∀ g s l t, I g s → step s l t → I (upd g l) t)
    (h : Run step s ls t) {g : γ} (hs : I g s) : I (ls.foldl upd g) t := by
  induction h generalizing g with
  | nil => exact hs
  | cons hl _ ih => exact ih (hstep _ _ _ _ hs hl)

/-- The same with the labels so far. -/
theorem Run.invariant_history (I : List ℓ → σ → Prop)
    (hstep : ∀ ls s l t, I ls s → step s l t → I (ls ++ [l]) t)
    (h : Run step s ls t) (hs : I [] s) : I ls t := by
  have hfold := h.invariant_fold I (fun ls l => ls ++ [l]) hstep hs
  rwa [List.foldl_append_eq_append, ← List.flatMap_def, List.flatMap_singleton', List.nil_append] at hfold

/-- Where each label, with what has come before it, leads on from every state that these have led to, all of
them lead to an end. -/
theorem exists_run_of_progress {P : List ℓ → ℓ → Prop}
    (hprogress : ∀ ls t l, Run step s ls t → (∀ pre m post, ls = pre ++ m :: post → P pre m) → P ls l →
      ∃ u, step t l u)
    (hls : ∀ pre m post, ls = pre ++ m :: post → P pre m) : ∃ t, Run step s ls t := by
  induction ls using List.reverseRecOn with
  | nil => exact ⟨s, .nil s⟩
  | append_singleton ls l ih =>
    have hbefore : ∀ pre m post, ls = pre ++ m :: post → P pre m := fun pre m post h =>
      hls pre m (post ++ [l]) (by rw [h, List.append_assoc, List.cons_append])
    obtain ⟨t, ht⟩ := ih hbefore
    obtain ⟨u, hu⟩ := hprogress ls t l ht hbefore (hls ls l [] rfl)
    exact ⟨u, ht.append (.cons hu (.nil u))⟩

/-- A property that holds at the end and not at the start has been brought about by some label, and since
then no label has come that ends it. -/
theorem Run.since {P : σ → Prop} {C K : ℓ → Prop} (hstep : ∀ s l t, step s l t → P t → C l ∨ P s ∧ ¬ K l)
    (h : Run step s ls t) (hs : ¬ P s) (ht : P t) :
    ∃ pre l post, ls = pre ++ l :: post ∧ C l ∧ ∀ m ∈ post, ¬ K m := by
  refine h.invariant_history (fun ls t => P t → ∃ pre l post, ls = pre ++ l :: post ∧ C l ∧ ∀ m ∈ post, ¬ K m)
    (fun ls s l t ih hl ht => ?_) (fun hP => absurd hP hs) ht
  rcases hstep s l t hl ht with hC | ⟨hP, hK⟩
  · exact ⟨ls, l, [], rfl, hC, by simp⟩
  · obtain ⟨pre, c, post, rfl, hC, hpost⟩ := ih hP
    refine ⟨pre, c, post ++ [l], by simp, hC, fun m hm => ?_⟩
    rcases List.mem_append.mp hm with hm | hm
    · exact hpost m hm
    · rw [List.mem_singleton.mp hm]
      exact hK

theorem Run.mono (hle : ∀ s l t, step s l t → step' s l t) (h : Run step s ls t) :
    Run step' s ls t := by
  induction h with
  | nil s => exact .nil s
  | cons hl _ ih => exact .cons (hle _ _ _ hl) ih

/-- A map that keeps the steps keeps the runs. -/
theorem Run.map {τ : Type*} {step' : τ → ℓ → τ → Prop} (f : σ → τ)
    (hstep : ∀ s l t, step s l t → step' (f s) l (f t)) (h : Run step s ls t) : Run step' (f s) ls (f t) := by
  induction h with
  | nil s => exact .nil (f s)
  | cons hl _ ih => exact .cons (hstep _ _ _ hl) ih

/-- A map of the labels that keeps the steps keeps the runs. -/
theorem Run.relabel {κ : Type*} {step' : σ → κ → σ → Prop} (f : ℓ → κ)
    (hstep : ∀ s l t, step s l t → step' s (f l) t) (h : Run step s ls t) : Run step' s (ls.map f) t := by
  induction h with
  | nil s => exact .nil s
  | cons hl _ ih => exact .cons (hstep _ _ _ hl) ih

/-- The runs of a function. -/
theorem run_of_foldlM {f : σ → ℓ → Option σ} (h : ls.foldlM f s = some t) :
    Run (fun s l t => f s l = some t) s ls t := by
  induction ls generalizing s with
  | nil =>
    cases h
    exact .nil _
  | cons l ls ih =>
    rw [List.foldlM_cons] at h
    obtain ⟨s₁, hs₁, h⟩ := Option.bind_eq_some_iff.mp h
    exact .cons hs₁ (ih h)

/-- Runs of a deterministic relation have one final state. -/
theorem Run.unique (hdet : ∀ s l t t', step s l t → step s l t' → t = t')
    (h : Run step s ls t) (h' : Run step s ls u) : t = u := by
  induction h with
  | nil => cases h'; rfl
  | cons hl _ ih =>
    obtain ⟨t', hl', hr'⟩ := h'.cons_inv
    exact ih (hdet _ _ _ _ hl hl' ▸ hr')

/-- If in a state with `P` a label does what `R` asks for and leads to `P` only, exactly when `Q` holds
of it, then `P` and `R` hold along all runs over a list of labels if and only if `Q` does. `I` may
depend on the labels to come. -/
theorem throughout_iff {P : σ → Prop} {R Q : σ → ℓ → Prop} (I : σ → List ℓ → Prop)
    (hI : ∀ s l ls t, I s (l :: ls) → P s → step s l t → I t ls)
    (hiff : ∀ s l ls, I s (l :: ls) → P s → ((R s l ∧ ∀ t, step s l t → P t) ↔ Q s l))
    (hs : I s ls) (hP : P s) :
    (∀ pre t, pre <+: ls → Run step s pre t → P t ∧ ∀ l, pre ++ [l] <+: ls → R t l) ↔
      ∀ pre l t, pre ++ [l] <+: ls → Run step s pre t → Q t l := by
  induction ls generalizing s with
  | nil =>
    constructor
    · intro _ pre l t hpre
      simp at hpre
    · intro _ pre t hpre ht
      rw [List.prefix_nil.mp hpre] at ht
      cases ht
      exact ⟨hP, fun l hl => by simp at hl⟩
  | cons l ls ih =>
    constructor
    · intro hall pre m v hpre hv
      have hnext : ∀ t, step s l t → P t := fun t hl => (hall [l] t (by simp) (.cons hl (.nil t))).1
      cases pre with
      | nil =>
        cases hv
        obtain rfl : m = l := by simpa using hpre
        exact (hiff _ _ _ hs hP).mp ⟨(hall [] s (by simp) (.nil s)).2 m (by simp), hnext⟩
      | cons k pre =>
        obtain ⟨rfl, htail⟩ := List.cons_prefix_cons.mp hpre
        obtain ⟨t, hl, hv⟩ := hv.cons_inv
        refine (ih (hI _ _ _ _ hs hP hl) (hnext t hl)).mp (fun pre' w hpre' hw => ?_) pre m v htail hv
        obtain ⟨hPw, hRw⟩ := hall (k :: pre') w (List.cons_prefix_cons.mpr ⟨rfl, hpre'⟩) (.cons hl hw)
        exact ⟨hPw, fun m hm => hRw m (List.cons_prefix_cons.mpr ⟨rfl, hm⟩)⟩
    · intro hall pre v hpre hv
      obtain ⟨hR, hnext⟩ := (hiff _ _ _ hs hP).mpr (hall [] l s (by simp) (.nil s))
      cases pre with
      | nil =>
        cases hv
        refine ⟨hP, fun m hm => ?_⟩
        obtain rfl : m = l := by simpa using hm
        exact hR
      | cons k pre =>
        obtain ⟨rfl, htail⟩ := List.cons_prefix_cons.mp hpre
        obtain ⟨t, hl, hv⟩ := hv.cons_inv
        obtain ⟨hPv, hRv⟩ := (ih (hI _ _ _ _ hs hP hl) (hnext t hl)).mpr (fun pre' m w hpre' hw =>
          hall (k :: pre') m w (List.cons_prefix_cons.mpr ⟨rfl, hpre'⟩) (.cons hl hw)) pre v htail hv
        exact ⟨hPv, fun m hm => hRv m (List.cons_prefix_cons.mp hm).2⟩

/-- The same for a property of states alone, along a run of a deterministic relation. -/
theorem Run.throughout_iff {P : σ → Prop} {Q : σ → ℓ → Prop} (I : σ → Prop)
    (hdet : ∀ s l t t', step s l t → step s l t' → t = t')
    (hI : ∀ s l t, I s → step s l t → I t)
    (hiff : ∀ s l t, I s → P s → step s l t → (P t ↔ Q s l))
    (h : Run step s ls u) (hs : I s) (hP : P s) :
    (∀ pre t, pre <+: ls → Run step s pre t → P t) ↔
      ∀ pre l t, pre ++ [l] <+: ls → Run step s pre t → Q t l := by
  have hI' : ∀ s l ls t, (I s ∧ Run step s (l :: ls) u) → P s → step s l t → I t ∧ Run step t ls u := by
    intro s l ls t hs _ hl
    obtain ⟨t', hl', hr⟩ := hs.2.cons_inv
    exact ⟨hI _ _ _ hs.1 hl, hdet _ _ _ _ hl' hl ▸ hr⟩
  have hiff' : ∀ s l ls, (I s ∧ Run step s (l :: ls) u) → P s →
      ((True ∧ ∀ t, step s l t → P t) ↔ Q s l) := by
    intro s l ls hs hP
    obtain ⟨t', hl', -⟩ := hs.2.cons_inv
    rw [← hiff _ _ _ hs.1 hP hl']
    exact ⟨fun h => h.2 t' hl', fun h => ⟨trivial, fun t hl => hdet _ _ _ _ hl' hl ▸ h⟩⟩
  simpa using Transition.throughout_iff (fun s ls => I s ∧ Run step s ls u) hI' hiff' ⟨hs, h⟩ hP

/-- The runs whose steps all have a property. -/
def RunWith (step P : σ → ℓ → σ → Prop) : σ → List ℓ → σ → Prop :=
  Run fun s l t => step s l t ∧ P s l t

/-- A property that all labels have is one of the steps. -/
theorem Run.with_labels {P : ℓ → Prop} (h : Run step s ls t) (hls : ∀ l ∈ ls, P l) :
    RunWith step (fun _ l _ => P l) s ls t := by
  induction h with
  | nil s => exact .nil s
  | cons hl _ ih =>
    obtain ⟨hP, hls⟩ := List.forall_mem_cons.mp hls
    exact .cons ⟨hl, hP⟩ (ih hls)

/-- Two properties of steps that agree wherever the first has held so far; `I` may depend on the
labels to come. -/
theorem runWith_iff {P Q : σ → ℓ → σ → Prop} (I : σ → List ℓ → Prop)
    (hiff : ∀ s l ls t, I s (l :: ls) → step s l t → (P s l t ↔ Q s l t))
    (hI : ∀ s l ls t, I s (l :: ls) → step s l t → P s l t → I t ls) (hs : I s ls) :
    RunWith step P s ls t ↔ RunWith step Q s ls t := by
  unfold RunWith
  constructor
  · intro h
    induction h with
    | nil s => exact .nil s
    | cons hl _ ih =>
      exact .cons ⟨hl.1, (hiff _ _ _ _ hs hl.1).mp hl.2⟩ (ih (hI _ _ _ _ hs hl.1 hl.2))
  · intro h
    induction h with
    | nil s => exact .nil s
    | cons hl _ ih =>
      have hP := (hiff _ _ _ _ hs hl.1).mpr hl.2
      exact .cons ⟨hl.1, hP⟩ (ih (hI _ _ _ _ hs hl.1 hP))

end Transition
