import Fernq.Base.Transition

/-!
Runs of labelled transition systems together with the labels of their steps.

* `Lts.Run`: a run from one state to another.
* `Lts.Run.simulate`: a system all of whose steps are matched by steps of another one.
* `Lts.Run.lockstep`: two runs of one system side by side.
-/

namespace Fernq

namespace Lts

variable {σ τ α β : Type*} {M : Lts σ α} {N : Lts τ β} {s s' : σ} {as bs : List α}

/-- A run from one state to another, with the labels of its steps. -/
inductive Run (M : Lts σ α) : σ → List α → σ → Prop
  | nil (s : σ) : Run M s [] s
  | cons {s : σ} {a : α} {s' : σ} {as : List α} {s'' : σ} :
      M.Step s a s' → Run M s' as s'' → Run M s (a :: as) s''

lemma Run.single {a : α} (h : M.Step s a s') : M.Run s [a] s' := .cons h (.nil s')

/-- The simulation rule: if each step from a related state is matched by a step of the other system
with a matching label, then so are runs. -/
theorem Run.simulate {R : σ → τ → Prop} {E : α → β → Prop}
    (hstep : ∀ s t a s', R s t → M.Step s a s' → ∃ b t', N.Step t b t' ∧ E a b ∧ R s' t')
    (h : M.Run s as s') {t : τ} (hr : R s t) :
    ∃ bs t', N.Run t bs t' ∧ List.Forall₂ E as bs ∧ R s' t' := by
  induction h generalizing t with
  | nil => exact ⟨[], t, .nil t, .nil, hr⟩
  | cons hs _ ih =>
      obtain ⟨b, t', ht, he, hr'⟩ := hstep _ _ _ _ hr hs
      obtain ⟨bs, t'', hts, hes, hr''⟩ := ih hr'
      exact ⟨b :: bs, t'', .cons ht hts, .cons he hes, hr''⟩

/-- The rule for two runs side by side: if steps from related states, with labels that agree in what
goes in, agree in what comes out and lead to related states, then so do runs. -/
theorem Run.lockstep {R : σ → σ → Prop} {Q E : α → α → Prop}
    (hstep : ∀ s t a b s' t', R s t → Q a b → M.Step s a s' → M.Step t b t' → E a b ∧ R s' t')
    (h : M.Run s as s') {t t' : σ} (h' : M.Run t bs t') (hq : List.Forall₂ Q as bs) (hr : R s t) :
    List.Forall₂ E as bs ∧ R s' t' := by
  induction h generalizing t bs with
  | nil =>
      cases hq
      cases h'
      exact ⟨.nil, hr⟩
  | cons hs _ ih =>
      cases hq with
      | cons hab hqs =>
        cases h' with
        | cons ht hts =>
          obtain ⟨he, hr'⟩ := hstep _ _ _ _ _ _ hr hab hs ht
          obtain ⟨hes, hr''⟩ := ih hts hqs hr'
          exact ⟨.cons he hes, hr''⟩

end Lts

end Fernq
