import Mathlib.Tactic

/-!
Labelled transition systems.

* `Lts`, `Lts.ReachBy`: the states reached by runs all of whose steps are admitted.
* `Lts.ReachBy.invariant`: what holds initially and is preserved by admitted steps holds in
  every state reached.
* `Lts.Leads`: one state is later than another; `Lts.Leads.stable` for what is never undone.
* `Lts.ReachBy.projectBy`, `Lts.ReachBy.project`: a view of a system whose steps are steps of
  another system, or not seen, reaches only states of the other system.
* `Lts.observed`: a system with an observer, which restricts no run.
* `Lts.toward`: a system whose labels have the state that the step leads to, for conditions on both
  ends of a step.
-/

namespace Fernq

/-- A labelled transition system: its initial states and its steps. -/
structure Lts (σ α : Type*) where
  Init : σ → Prop
  Step : σ → α → σ → Prop

namespace Lts

variable {σ α τ β γ : Type*} {M : Lts σ α} {ok ok' : σ → α → Prop}

/-- The states reached by runs in which every step `a` is taken in a state `s` with
`ok s a`. -/
inductive ReachBy (M : Lts σ α) (ok : σ → α → Prop) : σ → Prop
  | init {s : σ} : M.Init s → ReachBy M ok s
  | step {s : σ} {a : α} {s' : σ} : ReachBy M ok s → ok s a → M.Step s a s' → ReachBy M ok s'

/-- The reachable states. -/
def Reach (M : Lts σ α) : σ → Prop := M.ReachBy fun _ _ => True

/-- A run leads from the first state to the second. -/
def Leads (M : Lts σ α) : σ → σ → Prop := Relation.ReflTransGen fun s s' => ∃ a, M.Step s a s'

lemma Reach.init {s : σ} (h : M.Init s) : M.Reach s := ReachBy.init h

lemma Reach.step {s : σ} {a : α} {s' : σ} (h : M.Reach s) (hs : M.Step s a s') : M.Reach s' :=
  ReachBy.step h trivial hs

/-- Fewer restrictions, more states. -/
lemma ReachBy.mono (hok : ∀ s a, ok s a → ok' s a) {s : σ} (h : M.ReachBy ok s) :
    M.ReachBy ok' s := by
  induction h with
  | init hs => exact .init hs
  | step _ ha hs ih => exact .step ih (hok _ _ ha) hs

lemma ReachBy.reach {s : σ} (h : M.ReachBy ok s) : M.Reach s := h.mono fun _ _ _ => trivial

/-- The invariant rule: the step may use that its source was reached. -/
theorem ReachBy.invariant {I : σ → Prop} (hinit : ∀ s, M.Init s → I s)
    (hstep : ∀ s a s', M.ReachBy ok s → I s → ok s a → M.Step s a s' → I s')
    {s : σ} (h : M.ReachBy ok s) : I s := by
  induction h with
  | init hs => exact hinit _ hs
  | step hr ha hs ih => exact hstep _ _ _ hr ih ha hs

/-- The invariant rule over all runs. -/
theorem Reach.invariant {I : σ → Prop} (hinit : ∀ s, M.Init s → I s)
    (hstep : ∀ s a s', M.Reach s → I s → M.Step s a s' → I s') {s : σ} (h : M.Reach s) : I s :=
  ReachBy.invariant hinit (fun s a s' hr hi _ hs => hstep s a s' hr hi hs) h

lemma Leads.refl (s : σ) : M.Leads s s := Relation.ReflTransGen.refl

lemma Leads.tail {s s' s'' : σ} {a : α} (h : M.Leads s s') (hs : M.Step s' a s'') :
    M.Leads s s'' := Relation.ReflTransGen.tail h ⟨a, hs⟩

/-- A run from a reachable state may stop where it starts. -/
lemma Reach.leads_self {s : σ} (_ : M.Reach s) : M.Leads s s := Leads.refl s

lemma Reach.leads {s s' : σ} (h : M.Reach s) (hl : M.Leads s s') : M.Reach s' := by
  induction hl with
  | refl => exact h
  | tail _ hs ih =>
      obtain ⟨a, hs⟩ := hs
      exact ih.step hs

/-- What a reachable state has and no step takes away, every later state has. -/
theorem Leads.stable {P : σ → Prop} (hstep : ∀ s a s', M.Reach s → P s → M.Step s a s' → P s')
    {s s' : σ} (hr : M.Reach s) (hl : M.Leads s s') (h : P s) : P s' := by
  induction hl with
  | refl => exact h
  | tail hl hs ih =>
      obtain ⟨a, hs⟩ := hs
      exact hstep _ a _ (hr.leads hl) ih hs

/-- A view under which every admitted step is an admitted step of `N` or is not seen. -/
theorem ReachBy.projectBy {N : Lts τ β} {okN : τ → β → Prop} (f : σ → τ)
    (hinit : ∀ s, M.Init s → N.Init (f s))
    (hstep : ∀ s a s', M.ReachBy ok s → ok s a → M.Step s a s' →
      f s' = f s ∨ ∃ b, okN (f s) b ∧ N.Step (f s) b (f s'))
    {s : σ} (h : M.ReachBy ok s) : N.ReachBy okN (f s) := by
  induction h with
  | init hs => exact .init (hinit _ hs)
  | step hr ha hs ih =>
      rcases hstep _ _ _ hr ha hs with heq | ⟨b, hok, hb⟩
      · rw [heq]
        exact ih
      · exact ih.step hok hb

/-- A view under which every step is a step of `N` or is not seen. -/
theorem ReachBy.project {N : Lts τ β} (f : σ → τ) (hinit : ∀ s, M.Init s → N.Init (f s))
    (hstep : ∀ s a s', M.ReachBy ok s → ok s a → M.Step s a s' →
      f s' = f s ∨ ∃ b, N.Step (f s) b (f s'))
    {s : σ} (h : M.ReachBy ok s) : N.Reach (f s) := by
  refine h.projectBy f hinit fun s a s' hr ha hs => ?_
  rcases hstep s a s' hr ha hs with heq | ⟨b, hb⟩
  · exact .inl heq
  · exact .inr ⟨b, trivial, hb⟩

/-! ### Observers -/

/-- The system with a value beside it that every step updates and no step depends on. -/
def observed (M : Lts σ α) (update : σ → α → σ → γ → γ) (start : γ) : Lts (σ × γ) α where
  Init x := M.Init x.1 ∧ x.2 = start
  Step x a y := M.Step x.1 a y.1 ∧ y.2 = update x.1 a y.1 x.2

section Observed

variable {update : σ → α → σ → γ → γ} {start : γ}

/-- Every run can be observed. -/
lemma ReachBy.observed {s : σ} (h : M.ReachBy ok s) :
    ∃ g, (M.observed update start).ReachBy (fun x a => ok x.1 a) (s, g) := by
  induction h with
  | init hs => exact ⟨start, .init ⟨hs, rfl⟩⟩
  | @step s a s' _ ha hs ih =>
      obtain ⟨g, hg⟩ := ih
      exact ⟨update s a s' g, hg.step ha ⟨hs, rfl⟩⟩

/-- What is observed is a run. -/
lemma ReachBy.unobserved {okO : σ × γ → α → Prop} {x : σ × γ}
    (h : (M.observed update start).ReachBy okO x) : M.Reach x.1 := by
  refine ReachBy.project (M := M.observed update start) (N := M) Prod.fst ?_ ?_ h
  · intro x hx
    exact hx.1
  · intro x a y _ _ hs
    exact .inr ⟨a, hs.1⟩

end Observed

/-! ### Both ends of a step -/

/-- The system with labels that have the state that the step leads to. -/
def toward (M : Lts σ α) : Lts σ (α × σ) where
  Init := M.Init
  Step s a s' := M.Step s a.1 s' ∧ a.2 = s'

/-- A run in which both ends of every step are admitted, in a weaker condition on the first. -/
lemma ReachBy.of_toward {okT : σ → α × σ → Prop} (hok : ∀ s a, okT s a → ok s a.1) {s : σ}
    (h : M.toward.ReachBy okT s) : M.ReachBy ok s := by
  induction h with
  | init hs => exact .init hs
  | step _ ha hs ih => exact ih.step (hok _ _ ha) hs.1

end Lts

end Fernq
