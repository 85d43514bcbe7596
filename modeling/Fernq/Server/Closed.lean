import Mathlib.Tactic
import Fernq.Server.Registry

/-!
A room after `Room::close` (`fernqd/src/server/room.rs`): what is left of it, and what becomes of
the calls of `add_conn` that go on.

* `CloseStage.stored`, `isClosed_of_reach`: a call of `close` that has stored the flag.
* `Shut`: the flag is set, no task is left, the map is empty, and no `add_conn` is about to spawn;
  `Shut.step`, `shut_of_reach`.
* `Rejected`: an `add_conn` that has returned without a listener has closed its connection.
* `closed_room_stays_closed`: what holds from the return of a call of `close` on.
-/

namespace Fernq

namespace Room

open TcpConn

variable {C : Type} [DecidableEq C] {cfg : RoomConfig C} {s s' : Room cfg} {l : Label C} {c : C}

/-! ### The flag -/

/-- The call of `close` has stored the flag. -/
def CloseStage.stored : CloseStage → Bool
  | .absent | .storing => false
  | _ => true

lemma isClosed_of_step (h : Step s l s') (hc : s.isClosed = true) : s'.isClosed = true := by
  cases h with
  | listener h => cases h <;> exact hc
  | worker h => cases h <;> exact hc
  | heartbeat h => cases h <;> exact hc
  | add h => cases h <;> exact hc
  | close h => cases h <;> first | exact hc | rfl
  | call _ _ => exact hc
  | arrival _ => exact hc

/-- A call of `close` past the store has left the flag set. -/
lemma isClosed_of_reach (h : (lts cfg).Reach s) {i : ℕ} (hi : (s.closing i).stored = true) :
    s.isClosed = true := by
  revert hi
  refine h.invariant (I := fun s => (s.closing i).stored = true → s.isClosed = true)
    (fun s hs hi => ?_) fun s l s' _ ih hs hi => ?_
  · subst hs
    cases hi
  · obtain heq | ⟨-, hstep⟩ := closing_of_step hs i
    · exact isClosed_of_step hs (ih (heq ▸ hi))
    · by_cases hold : (s.closing i).stored = true
      · exact isClosed_of_step hs (ih hold)
      · cases hstep with
        | store _ => rfl
        | _ => simp_all [CloseStage.stored]

/-! ### What is left of the room -/

/-- The room is closed for good: the flag is set, no task is left, the map is empty, and no
`add_conn` has passed its second look at the flag. -/
structure Shut (s : Room cfg) : Prop where
  isClosed : s.isClosed = true
  tasks : s.tasks = []
  conns : ∀ name, s.conns name = none
  adding : ∀ c, s.adding c ≠ .spawning

omit [DecidableEq C] in
lemma Shut.not_running (h : Shut s) (hi : TaskSet s) (t : RoomTask C) : ¬ s.Running t := by
  intro ht
  have hmem := hi.running t ht
  simp [h.tasks] at hmem

/-- No step opens the room again. -/
lemma Shut.step (h : Shut s) (hr : (lts cfg).Reach s) (hs : Step s l s') : Shut s' := by
  have hidle := h.not_running (taskSet_of_reach hr)
  refine ⟨isClosed_of_step hs h.isClosed, ?_, ?_, ?_⟩
  · obtain ⟨-, -, htasks, -, -⟩ | ⟨c, -, hstep⟩ | ⟨i, -, hstep⟩ := taskSet_of_step hs
    · rw [htasks, h.tasks]
    · cases hstep with
      | spawn hc => exact absurd hc (h.adding c)
      | _ => exact h.tasks
    · cases hstep with
      | join t before after _ ht _ => simp [h.tasks] at ht
      | _ => exact h.tasks
  · intro name
    by_contra hsome
    obtain ⟨c, hc⟩ := Option.ne_none_iff_exists'.mp hsome
    obtain hold | ⟨-, hreg, -⟩ := conns_of_step_eq_some hs hc
    · simp [h.conns name] at hold
    · exact hidle (.listener c) ⟨by simp [hreg], by simp [hreg]⟩
  · intro c hc
    obtain heq | ⟨-, hstep⟩ := adding_of_step hs c
    · exact h.adding c (heq ▸ hc)
    · cases hstep with
      | passSecond _ hopen => simp [h.isClosed] at hopen
      | _ => simp_all

/-- The last step of `close` leaves the room closed: all tasks have been joined under the lock that
an `add_conn` needs to spawn another. -/
lemma shut_of_clear {i : ℕ} (hr : (lts cfg).Reach s) (hi : s.closing i = .clearing)
    (hs : CloseStep s i s') : Shut s' := by
  have htasks := taskSet_of_reach hr
  have hheld := htasks.lock_close i (.inr hi)
  have hflag := isClosed_of_reach hr (i := i) (by rw [hi]; rfl)
  cases hs with
  | clear _ =>
      refine ⟨hflag, htasks.joined i hi, fun _ => rfl, ?_⟩
      intro c hc
      have hadd := htasks.lock_add c (by rw [show s.adding c = .spawning from hc]; rfl)
      simp [hheld] at hadd
  | _ => simp_all

theorem shut_of_reach (h : (lts cfg).Reach s) {i : ℕ} (hi : s.closing i = .returned) :
    Shut s := by
  revert hi
  refine h.invariant (I := fun s => s.closing i = .returned → Shut s) (fun s hs hi => ?_)
    fun s l s' hr ih hs hi => ?_
  · subst hs
    cases hi
  · obtain heq | ⟨-, hstep⟩ := closing_of_step hs i
    · exact (ih (heq ▸ hi)).step hr hs
    · have hclearing : s.closing i = .clearing := by
        cases hstep <;> simp_all
      exact shut_of_clear hr hclearing hstep

/-! ### Calls of `add_conn` -/

/-- An `add_conn` that has returned without a listener has closed its connection. -/
def Rejected (s : Room cfg) (c : C) : Prop :=
  s.adding c = .returned → s.listener c ≠ .absent ∨ ∃ n r, s.Returned c .reject n r

lemma rejected_of_reach (h : (lts cfg).Reach s) (c : C) : s.Rejected c := by
  refine h.invariant (I := fun s => s.Rejected c) (fun s hs hc => ?_) fun s l s' _ ih hs hc => ?_
  · subst hs
    cases hc
  · have hkept : s.adding c = .returned →
        s'.listener c ≠ .absent ∨ ∃ n r, s'.Returned c .reject n r := fun hold => by
      obtain hne | ⟨n, r, hret⟩ := ih hold
      · exact .inl (ne_absent_of_step hs hne)
      · exact .inr ⟨n, r, returned_of_step hs hret⟩
    obtain heq | ⟨-, hstep⟩ := adding_of_step hs c
    · exact hkept (heq ▸ hc)
    · cases hstep with
      | spawn _ => exact .inl (by simp)
      | rejected n r _ hret => exact .inr ⟨n, r, hret⟩
      | _ => simp_all

/-- In a closed room no listener is spawned. -/
lemma absent_of_step (h : Shut s) (hs : Step s l s') (hc : s.listener c = .absent) :
    s'.listener c = .absent := by
  obtain heq | ⟨-, hstep⟩ | ⟨-, hspawn, -⟩ := listener_of_step hs c
  · rw [heq, hc]
  · cases hstep <;> simp_all
  · exact absurd hspawn (h.adding c)

/-- In a closed room an `add_conn` that looks at the flag starts to close its connection. -/
lemma rejecting_of_step (h : Shut s) (hs : Step s (.add c) s')
    (hc : s.adding c = .checking ∨ s.adding c = .locked) :
    ∃ n, s'.adding c = .rejecting n ∧
      (s'.link c).calls ⟨.reject, n⟩ = some (.close .start) := by
  have hflag := h.isClosed
  cases hs with
  | add hs =>
      cases hs with
      | rejectFirst n _ _ _ => exact ⟨n, by simp, by simp [calling_self]⟩
      | rejectSecond n _ _ _ => exact ⟨n, by simp, by simp [calling_self]⟩
      | _ => simp_all

/-- **A closed room stays closed.**  From the return of a call of `close` on, the map is empty and
no task of the room runs.  An `add_conn` that had not returned by then spawns no listener: at its
look at the flag it starts to close its connection, and when it returns it has closed it. -/
theorem closed_room_stays_closed (h : (lts cfg).Reach s) {i : ℕ} (hi : s.closing i = .returned)
    (hl : (lts cfg).Leads s s') :
    (∀ name, s'.conns name = none) ∧ (∀ t, ¬ s'.Running t) ∧
    ∀ c, s.adding c ≠ .returned → s'.listener c = .absent ∧
      (∀ s'', Step s' (.add c) s'' → s'.adding c = .checking ∨ s'.adding c = .locked →
        ∃ n, s''.adding c = .rejecting n ∧
          (s''.link c).calls ⟨.reject, n⟩ = some (.close .start)) ∧
      (s'.adding c = .returned → (s'.link c).conn.closed = true ∧
        ∃ n r, (s'.link c).calls ⟨.reject, n⟩ = some (.close (.returned r))) := by
  have hr' := h.leads hl
  have hshut' : Shut s' :=
    Lts.Leads.stable (fun s l s' hr hshut hs => hshut.step hr hs) h hl (shut_of_reach h hi)
  refine ⟨hshut'.conns, hshut'.not_running (taskSet_of_reach hr'), ?_⟩
  intro c hc
  have habsent : s.listener c = .absent := by
    by_contra hne
    exact hc (adding_of_listener h hne)
  have habsent' : s'.listener c = .absent := by
    refine (Lts.Leads.stable (P := fun s => Shut s ∧ s.listener c = .absent) ?_ h hl
      ⟨shut_of_reach h hi, habsent⟩).2
    intro s l s' hr ⟨hshut, habsent⟩ hs
    exact ⟨hshut.step hr hs, absent_of_step hshut hs habsent⟩
  refine ⟨habsent', fun s'' hs hlook => rejecting_of_step hshut' hs hlook, fun hret => ?_⟩
  obtain hne | ⟨n, r, hreturned⟩ := rejected_of_reach hr' c hret
  · exact absurd habsent' hne
  · have hcall := calls_of_returned hr' (.inr rfl) hreturned
    refine ⟨(SharedConn.closing_of_reach (link_of_reach hr' c)).flag ⟨.reject, n⟩ ?_, n, r, hcall⟩
    rw [SharedConn.on_eq hcall]
    rfl

/-- An `add_conn` waits for the lock while `close` runs, and then closes its connection. -/
theorem closed_room_stays_closed_waiting : ∃ s s' : Room pair, s.closing 0 = .returned ∧
    s.adding 0 = .waiting ∧ (lts pair).Leads s s' ∧ s'.adding 0 = .rejecting 0 ∧
    s'.listener 0 = .absent := by
  have h : (lts pair).Reach (opened pair) := .init rfl
  have h := h.step (.add (c := 0) (.call rfl))
  have h := h.step (.add (c := 0) (.passFirst rfl rfl))
  have h := h.step (.close (i := 0) (.call rfl))
  have h := h.step (.close (i := 0) (.store rfl))
  have h := h.step (.close (i := 0) (.cancel rfl))
  have h := h.step (.heartbeat (.cancelled rfl rfl))
  have h := h.step (.worker (w := 0) (.cancelled rfl rfl))
  have h := h.step (.close (i := 0) (.lock rfl rfl))
  have h := h.step (.close (i := 0) (.join .heartbeat [] [.worker 0] rfl rfl rfl))
  have h := h.step (.close (i := 0) (.join (.worker 0) [] [] rfl rfl rfl))
  have h := h.step (.close (i := 0) (.joined rfl rfl))
  have h := h.step (.close (i := 0) (.clear rfl))
  have hl := h.leads_self.tail (.add (c := 0) (.lock rfl rfl))
  have hl := hl.tail (.add (c := 0) (.rejectSecond 0 rfl rfl rfl))
  exact ⟨_, _, rfl, rfl, hl, rfl,
    ((closed_room_stays_closed (i := 0) h rfl hl).2.2 0 (by simp)).1⟩

end Room

end Fernq
