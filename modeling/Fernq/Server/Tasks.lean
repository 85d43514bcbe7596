import Mathlib.Tactic
import Fernq.Server.Calls

/-!
The tasks of a room and the lock of its `worker_set`.

* `closing_of_step`: who changes how far a call of `close` is.
* `TaskSet`: who holds the lock, that every running task is in the set, and that the set is empty
  when `close` clears the map; `taskSet_of_reach`.
-/

namespace Fernq

namespace Room

variable {C : Type} [DecidableEq C] {cfg : RoomConfig C} {s s' : Room cfg} {l : Label C} {c : C}

lemma closing_of_step (h : Step s l s') (i : ℕ) :
    s'.closing i = s.closing i ∨ l = .close i ∧ CloseStep s i s' := by
  cases h with
  | listener h => cases h <;> exact .inl rfl
  | worker h => cases h <;> exact .inl rfl
  | heartbeat h => cases h <;> exact .inl rfl
  | add h => cases h <;> exact .inl rfl
  | @close _ i' h =>
      by_cases hi : i = i'
      · subst hi
        exact .inr ⟨rfl, h⟩
      · refine .inl ?_
        cases h <;> first | exact Function.update_of_ne hi .. | rfl
  | call _ _ => exact .inl rfl
  | arrival _ => exact .inl rfl

/-- The lock and the set change in `add_conn` and in `close` only. -/
lemma taskSet_of_step (h : Step s l s') :
    ((∀ c, l ≠ .add c) ∧ s'.workerSet = s.workerSet ∧ s'.tasks = s.tasks ∧
      s'.adding = s.adding ∧ s'.closing = s.closing) ∨ (∃ c, l = .add c ∧ AddStep s c s') ∨
        ∃ i, l = .close i ∧ CloseStep s i s' := by
  cases h with
  | listener h => cases h <;> exact .inl ⟨nofun, rfl, rfl, rfl, rfl⟩
  | worker h => cases h <;> exact .inl ⟨nofun, rfl, rfl, rfl, rfl⟩
  | heartbeat h => cases h <;> exact .inl ⟨nofun, rfl, rfl, rfl, rfl⟩
  | @add _ c h => exact .inr (.inl ⟨c, rfl, h⟩)
  | @close _ i h => exact .inr (.inr ⟨i, rfl, h⟩)
  | call _ _ => exact .inl ⟨nofun, rfl, rfl, rfl, rfl⟩
  | arrival _ => exact .inl ⟨nofun, rfl, rfl, rfl, rfl⟩

/-- The task has been spawned and has not finished. -/
def Running (s : Room cfg) : RoomTask C → Prop
  | .heartbeat => s.heartbeat ≠ .ended
  | .worker w => s.worker w ≠ .ended
  | .listener c => s.listener c ≠ .absent ∧ ∀ how, s.listener c ≠ .ended how

/-- `add_conn` has the lock. -/
def AddStage.holds : AddStage → Bool
  | .locked | .spawning => true
  | _ => false

/-- The lock is held by the task that has it, every running task is in the set, and the set is
empty when the map is cleared. -/
structure TaskSet (s : Room cfg) : Prop where
  lock_add : ∀ c, (s.adding c).holds = true → s.workerSet = some (.add c)
  lock_close : ∀ i, s.closing i = .joining ∨ s.closing i = .clearing →
    s.workerSet = some (.close i)
  running : ∀ t, s.Running t → t ∈ s.tasks
  joined : ∀ i, s.closing i = .clearing → s.tasks = []

omit [DecidableEq C] in
lemma not_finished_of_running {t : RoomTask C} (h : s.Running t) : ¬ s.Finished t := by
  cases t with
  | heartbeat => exact h
  | worker w => exact h
  | listener c => exact fun ⟨how, hend⟩ => h.2 how hend

/-- A task that runs after a step ran before it, or is spawned by it. -/
lemma running_of_step {t : RoomTask C} (h : Step s l s') (ht : s'.Running t) :
    s.Running t ∨ ∃ c, l = .add c ∧ s.adding c = .spawning ∧ t = .listener c := by
  cases t with
  | heartbeat =>
      refine .inl ?_
      intro hend
      obtain heq | ⟨-, hstep⟩ := heartbeat_of_step h
      · exact ht (heq.trans hend)
      · cases hstep <;> simp_all
  | worker w =>
      refine .inl ?_
      intro hend
      obtain heq | ⟨-, hstep⟩ := worker_of_step h w
      · exact ht (heq.trans hend)
      · cases hstep <;> simp_all
  | listener c =>
      obtain heq | ⟨-, hstep⟩ | ⟨hl, hspawn, -⟩ := listener_of_step h c
      · rw [Running, heq] at ht
        exact .inl ht
      · refine .inl ?_
        rw [Running]
        cases hstep <;> simp_all
      · exact .inr ⟨c, hl, hspawn, rfl⟩

omit [DecidableEq C] in
/-- The lock and the set as they were, with no task further than before. -/
lemma TaskSet.of_eq (hi : TaskSet s) (hset : s'.workerSet = s.workerSet)
    (htasks : s'.tasks = s.tasks)
    (hadd : ∀ c, (s'.adding c).holds = true → (s.adding c).holds = true)
    (hclose : s'.closing = s.closing) (hrun : ∀ t, s'.Running t → s.Running t) : TaskSet s' := by
  refine ⟨?_, ?_, ?_, ?_⟩
  · intro c hc
    rw [hset, hi.lock_add c (hadd c hc)]
  · intro i hc
    rw [hclose] at hc
    rw [hset, hi.lock_close i hc]
  · intro t ht
    rw [htasks]
    exact hi.running t (hrun t ht)
  · intro i hc
    rw [hclose] at hc
    rw [htasks, hi.joined i hc]

omit [DecidableEq C] in
/-- `add_conn` frees the lock, with at most one more task in the set. -/
lemma TaskSet.release (hi : TaskSet s) (hholds : (s.adding c).holds = true)
    (hsub : ∀ t ∈ s.tasks, t ∈ s'.tasks)
    (hadd : ∀ d, (s'.adding d).holds = true → d ≠ c ∧ (s.adding d).holds = true)
    (hclose : s'.closing = s.closing) (hrun : ∀ t, s'.Running t → s.Running t ∨ t ∈ s'.tasks) :
    TaskSet s' := by
  have hheld := hi.lock_add c hholds
  have hno : ∀ i, ¬ (s.closing i = .joining ∨ s.closing i = .clearing) := fun i hc => by
    simp [hi.lock_close i hc] at hheld
  refine ⟨?_, ?_, ?_, ?_⟩
  · intro d hd
    obtain ⟨hne, hd⟩ := hadd d hd
    rw [hi.lock_add d hd] at hheld
    exact absurd (by simpa using hheld) hne
  · intro i hc
    rw [hclose] at hc
    exact absurd hc (hno i)
  · intro t ht
    obtain ht | ht := hrun t ht
    · exact hsub t (hi.running t ht)
    · exact ht
  · intro i hc
    rw [hclose] at hc
    exact absurd (.inr hc) (hno i)

lemma TaskSet.addStep (hi : TaskSet s) (h : AddStep s c s') : TaskSet s' := by
  have hs : Step s (.add c) s' := .add h
  have hother : ∀ d, d ≠ c → s'.adding d = s.adding d := by
    intro d hdc
    obtain heq | ⟨hl, -⟩ := adding_of_step hs d
    · exact heq
    · exact absurd (by simpa using hl.symm) hdc
  have hfreed : (s'.adding c).holds = false → ∀ d, (s'.adding d).holds = true →
      d ≠ c ∧ (s.adding d).holds = true := by
    intro hc d hd
    have hdc : d ≠ c := fun heq => by simp [heq, hc] at hd
    exact ⟨hdc, hother d hdc ▸ hd⟩
  have hrun : s.adding c ≠ .spawning → ∀ t, s'.Running t → s.Running t := by
    intro hc t ht
    obtain ht | ⟨d, hl, hspawn, -⟩ := running_of_step hs ht
    · exact ht
    · obtain rfl : c = d := by simpa using hl
      exact absurd hspawn hc
  cases h with
  | lock hc hfree =>
      refine ⟨?_, ?_, ?_, ?_⟩
      · intro d hd
        by_cases hdc : d = c
        · rw [hdc]
        · have hheld := hi.lock_add d (hother d hdc ▸ hd)
          simp [hfree] at hheld
      · intro i hc'
        have hheld := hi.lock_close i hc'
        simp [hfree] at hheld
      · intro t ht
        exact hi.running t (hrun (by simp [hc]) t ht)
      · intro i hc'
        exact hi.joined i hc'
  | passSecond hc _ =>
      refine hi.of_eq rfl rfl (fun d hd => ?_) rfl (hrun (by simp [hc]))
      by_cases hdc : d = c
      · simp [hdc, hc, AddStage.holds]
      · exact hother d hdc ▸ hd
  | rejectSecond n hc _ _ =>
      exact hi.release (by simp [hc, AddStage.holds]) (fun _ => id)
        (hfreed (by simp [AddStage.holds])) rfl fun t ht => .inl (by cases t <;> exact ht)
  | spawn hc =>
      refine hi.release (by simp [hc, AddStage.holds]) (fun t ht => List.mem_append_left _ ht)
        (hfreed (by simp [AddStage.holds])) rfl fun t ht => ?_
      obtain ht | ⟨d, hl, -, rfl⟩ := running_of_step hs ht
      · exact .inl ht
      · obtain rfl : c = d := by simpa using hl
        simp
  | _ =>
      exact hi.of_eq rfl rfl (fun d hd => (hfreed (by simp [AddStage.holds]) d hd).2) rfl
        (hrun (by simp [*]))

/-- The other calls of `close` stay where they are. -/
lemma closing_of_closeStep {i : ℕ} (h : CloseStep s i s') (j : ℕ) :
    j = i ∨ s'.closing j = s.closing j := by
  obtain heq | ⟨hl, -⟩ := closing_of_step (.close h) j
  · exact .inr heq
  · exact .inl (Label.close.inj hl).symm

lemma TaskSet.closeStep {i : ℕ} (hi : TaskSet s) (h : CloseStep s i s') : TaskSet s' := by
  have hclose := closing_of_closeStep h
  have hrun : ∀ t, s'.Running t → s.Running t := by
    intro t ht
    obtain ht | ⟨d, hl, -, -⟩ := running_of_step (.close h) ht
    · exact ht
    · cases hl
  cases h with
  | lock hc hfree =>
      -- nobody had the lock
      refine ⟨?_, ?_, fun t ht => hi.running t (hrun t ht), ?_⟩
      · intro d hd
        have hheld := hi.lock_add d hd
        simp [hfree] at hheld
      · intro j hj
        obtain rfl | heq := hclose j
        · rfl
        · rw [heq] at hj
          have hheld := hi.lock_close j hj
          simp [hfree] at hheld
      · intro j hj
        obtain rfl | heq := hclose j
        · simp at hj
        · exact hi.joined j (heq ▸ hj)
  | join t before after hc ht hf =>
      refine ⟨hi.lock_add, hi.lock_close, ?_, ?_⟩
      · intro t' ht'
        have hmem := hi.running t' (hrun t' ht')
        have hne : t' ≠ t := fun heq => not_finished_of_running (hrun t' ht') (heq ▸ hf)
        simpa [ht, hne] using hmem
      · intro j hj
        have hempty := hi.joined j hj
        simp [ht] at hempty
  | joined hc ht =>
      refine ⟨hi.lock_add, ?_, fun t' ht' => hi.running t' (hrun t' ht'), fun j hj => ht⟩
      intro j hj
      obtain rfl | heq := hclose j
      · exact hi.lock_close j (.inl hc)
      · exact hi.lock_close j (heq ▸ hj)
  | clear hc =>
      -- the call has the lock, so it is the only one
      have hheld := hi.lock_close i (.inr hc)
      have hother : ∀ j, s.closing j = .joining ∨ s.closing j = .clearing → j = i := by
        intro j hj
        rw [hi.lock_close j hj] at hheld
        simpa using hheld
      refine ⟨?_, ?_, fun t' ht' => hi.running t' (hrun t' ht'), ?_⟩
      · intro d hd
        rw [hi.lock_add d hd] at hheld
        cases hheld
      · intro j hj
        obtain rfl | heq := hclose j
        · simp at hj
        · obtain rfl := hother j (heq ▸ hj)
          simp at hj
      · intro j hj
        obtain rfl | heq := hclose j
        · simp at hj
        · obtain rfl := hother j (.inr (heq ▸ hj))
          simp at hj
  | _ =>
      refine ⟨hi.lock_add, ?_, fun t' ht' => hi.running t' (hrun t' ht'), ?_⟩
      · intro j hj
        obtain rfl | heq := hclose j
        · simp at hj
        · exact hi.lock_close j (heq ▸ hj)
      · intro j hj
        obtain rfl | heq := hclose j
        · simp at hj
        · exact hi.joined j (heq ▸ hj)

theorem taskSet_of_reach (h : (lts cfg).Reach s) : TaskSet s := by
  refine h.invariant ?_ ?_
  · intro s hs
    subst hs
    refine ⟨by simp [opened, AddStage.holds], by simp [opened], fun t ht => ?_, by simp [opened]⟩
    cases t with
    | heartbeat => simp [opened]
    | worker w =>
        have hw : w < cfg.workerNumber := by
          by_contra hw
          exact ht (if_neg hw)
        simp [opened, hw]
    | listener c => exact absurd rfl ht.1
  · intro s l s' hr hi hs
    obtain ⟨hl, hset, htasks, hadd, hclose⟩ | ⟨c, rfl, hstep⟩ | ⟨i, rfl, hstep⟩ :=
      taskSet_of_step hs
    · refine hi.of_eq hset htasks (fun c hc => hadd ▸ hc) hclose fun t ht => ?_
      obtain ht | ⟨c, hc, -, -⟩ := running_of_step hs ht
      · exact ht
      · exact absurd hc (hl c)
    · exact hi.addStep hstep
    · exact hi.closeStep hstep

end Room

end Fernq
