import Mathlib.Tactic

/-! What a stateful computation that can fail does to its state, when it returns. -/
namespace Effects

variable {σ α β : Type} {R : σ → σ → Prop}

theorem bind_eq_ok {ε α β : Type} {x : Except ε α} {f : α → Except ε β} {b : β} :
    (x >>= f) = .ok b ↔ ∃ a, x = .ok a ∧ f a = .ok b := by
  constructor
  · intro h
    cases x with
    | error e => cases h
    | ok a => exact ⟨a, rfl, h⟩
  · rintro ⟨a, rfl, h⟩
    exact h

theorem bind_ok {ε α β : Type} (a : α) (f : α → Except ε β) : (Except.ok a >>= f) = f a := rfl

theorem map_eq_ok {ε α β : Type} {x : Except ε α} {f : α → β} {b : β} :
    x.map f = .ok b ↔ ∃ a, x = .ok a ∧ f a = b := by
  cases x <;> simp [Except.map]

theorem map_eq_error {ε α β : Type} {x : Except ε α} {f : α → β} {e : ε} :
    x.map f = .error e ↔ x = .error e := by
  cases x <;> simp [Except.map]

theorem toOption_eq_some {ε α : Type} {x : Except ε α} {a : α} : x.toOption = some a ↔ x = .ok a := by
  cases x <;> simp [Except.toOption]

/-- Every state in which `m` can return is related to the one it has started in. -/
def Within (R : σ → σ → Prop) (m : StateT σ Option α) : Prop :=
  ∀ s a t, m.run s = some (a, t) → R s t

theorem Within.pure (hrefl : ∀ s, R s s) (a : α) : Within R (pure a : StateT σ Option α) := by
  intro s b t h
  cases h
  exact hrefl s

theorem Within.failure : Within R (failure : StateT σ Option α) := fun _ _ _ h => by cases h

theorem Within.lift (hrefl : ∀ s, R s s) (x : Option α) : Within R (liftM x : StateT σ Option α) := by
  intro s a t h
  cases x with
  | none => cases h
  | some x =>
    cases h
    exact hrefl s

theorem Within.get (hrefl : ∀ s, R s s) : Within R (get : StateT σ Option σ) := by
  intro s a t h
  cases h
  exact hrefl s

theorem Within.modify {f : σ → σ} (h : ∀ s, R s (f s)) : Within R (modify f : StateT σ Option PUnit) := by
  intro s a t hrun
  cases hrun
  exact h s

theorem run_lift_bind {x : Option α} {a : α} (h : x = some a) (f : α → StateT σ Option β) (s : σ) :
    (liftM x >>= f).run s = (f a).run s := by
  subst h
  rfl

theorem run_bind_of_eq_some {m : StateT σ Option α} {s t : σ} {a : α} (h : m.run s = some (a, t))
    (f : α → StateT σ Option β) : (m >>= f).run s = (f a).run t := by
  rw [StateT.run_bind, h]
  rfl

theorem run_bind_eq_some {m : StateT σ Option α} {f : α → StateT σ Option β} {s u : σ} {b : β}
    (h : (m >>= f).run s = some (b, u)) : ∃ a t, m.run s = some (a, t) ∧ (f a).run t = some (b, u) := by
  rw [StateT.run_bind] at h
  obtain ⟨⟨a, t⟩, hm, hf⟩ := Option.bind_eq_some_iff.mp h
  exact ⟨a, t, hm, hf⟩

theorem Within.comp {S T : σ → σ → Prop} (hcomp : ∀ s t u, R s t → S t u → T s u) {m : StateT σ Option α}
    {f : α → StateT σ Option β} (hm : Within R m) (hf : ∀ a, Within S (f a)) : Within T (m >>= f) := by
  intro s b u h
  obtain ⟨a, t, ha, hb⟩ := run_bind_eq_some h
  exact hcomp s t u (hm s a t ha) (hf a t b u hb)

theorem Within.bind (htrans : ∀ s t u, R s t → R t u → R s u) {m : StateT σ Option α}
    {f : α → StateT σ Option β} (hm : Within R m) (hf : ∀ a, Within R (f a)) : Within R (m >>= f) :=
  .comp htrans hm hf

theorem Within.mono {S : σ → σ → Prop} (hle : ∀ s t, R s t → S s t) {m : StateT σ Option α} (h : Within R m) :
    Within S m := fun s a t hrun => hle s t (h s a t hrun)

theorem Within.ite {c : Prop} [Decidable c] {m m' : StateT σ Option α} (h : c → Within R m)
    (h' : ¬ c → Within R m') : Within R (if c then m else m') := by
  split_ifs with hc
  · exact h hc
  · exact h' hc

theorem Within.forM (hrefl : ∀ s, R s s) (htrans : ∀ s t u, R s t → R t u → R s u) {l : List α}
    {f : α → StateT σ Option PUnit} (h : ∀ a ∈ l, Within R (f a)) : Within R (l.forM f) := by
  induction l with
  | nil => exact .pure hrefl _
  | cons a l ih =>
    exact .bind htrans (h a (List.mem_cons_self ..)) fun _ => ih fun b hb => h b (List.mem_cons_of_mem _ hb)

/-- A table that has no entry for a key does nothing. -/
theorem forM_of_notMem {κ : Type} [DecidableEq κ] {k : κ} {l : List (κ × StateT σ Option PUnit)}
    (h : k ∉ l.map (·.1)) : (l.forM fun p => if p.1 = k then p.2 else pure ⟨⟩) = pure ⟨⟩ := by
  induction l with
  | nil => rfl
  | cons p l ih =>
    rw [List.map_cons, List.mem_cons, not_or] at h
    rw [List.forM, if_neg fun hp => h.1 hp.symm, pure_bind]
    exact ih h.2

/-- A table with different keys runs the entry of a key once. -/
theorem forM_of_mem {κ : Type} [DecidableEq κ] {k : κ} {m : StateT σ Option PUnit}
    {l : List (κ × StateT σ Option PUnit)} (hl : (l.map (·.1)).Nodup) (h : (k, m) ∈ l) :
    (l.forM fun p => if p.1 = k then p.2 else pure ⟨⟩) = m := by
  induction l with
  | nil => cases h
  | cons p l ih =>
    rw [List.map_cons, List.nodup_cons] at hl
    rw [List.forM]
    rcases List.mem_cons.mp h with rfl | h
    · rw [if_pos rfl, forM_of_notMem hl.1, bind_pure]
    · rw [if_neg, pure_bind, ih hl.2 h]
      exact fun hp => hl.1 (List.mem_map.mpr ⟨_, h, hp.symm⟩)

end Effects
