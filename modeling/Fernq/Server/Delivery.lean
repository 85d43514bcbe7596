import Mathlib.Tactic
import Fernq.Server.Queues
import Fernq.Server.Registry
import Fernq.Server.Runs

/-!
What becomes of the frames that listeners send to workers.

* `forwards`: the frames whose write got a writer lock, in this order; `forwards_of_step`.
* `channel_order`: the frames of a channel from one connection to one name are written in the
  order in which they were enqueued, and all of them where nothing fails.
-/

namespace Fernq

namespace Room

open TcpConn

variable {C : Type} [DecidableEq C] {cfg : RoomConfig C} {s s' : Room cfg} {l : Label C} {c : C}

/-! ### The writes -/

/-- The item a call forwards. -/
def Caller.item : Caller C → Option (Item C)
  | .forward item => some item
  | _ => none

omit [DecidableEq C] in
lemma Caller.item_eq_some {caller : Caller C} {item : Item C} (h : caller.item = some item) :
    caller = .forward item := by
  cases caller with
  | forward item' => rw [← Option.some_injective _ h]
  | _ => cases h

/-- The frames whose write got the writer lock, in this order, with the connection. -/
def forwards (s : Room cfg) : List (C × Item C) :=
  s.log.acquired.filterMap fun x => x.2.caller.item.map (Prod.mk x.1)

/-- The frames whose write returned `Ok`, in the order in which they got the writer lock. -/
def written (s : Room cfg) : List (C × Item C) :=
  (s.log.acquired.filter fun x => (s.link x.1).on Call.wroteOk x.2).filterMap
    fun x => x.2.caller.item.map (Prod.mk x.1)

omit [DecidableEq C] in
lemma written_sublist (s : Room cfg) : s.written.Sublist s.forwards :=
  List.filter_sublist.filterMap _

/-- A step logs the write that gets its lock in it, if there is one. -/
lemma acquired_of_step (h : Step s l s') :
    (s'.log.acquired = s.log.acquired ∧
      ∀ c, (s'.link c).conn.acquired = (s.link c).conn.acquired) ∨
    ∃ c k data, l = .call c k ∧ (s.link c).calls k = some (.write data .waiting) ∧
      s'.log.acquired = s.log.acquired ++ [(c, k)] ∧
      (s'.link c).conn.acquired = (s.link c).conn.acquired ++ [k] ∧
      ∀ d, d ≠ c → s'.link d = s.link d := by
  have hcalling : ∀ (d : C) caller n call c,
      (s.calling d caller n call c).conn.acquired = (s.link c).conn.acquired := by
    intro d caller n call c
    rw [conn_calling]
  cases h with
  | @listener _ c' h =>
      cases h with
      | reset _ =>
          refine .inl ⟨rfl, ?_⟩
          intro c
          by_cases hc : c = c' <;> simp [hc, TcpConn.resetHeartbeats]
      | replace old n _ _ _ _ => exact .inl ⟨rfl, hcalling _ _ _ _⟩
      | remove n _ _ _ => exact .inl ⟨rfl, hcalling _ _ _ _⟩
      | _ => exact .inl ⟨rfl, fun _ => rfl⟩
  | worker h =>
      cases h with
      | found item d n _ _ _ _ => exact .inl ⟨rfl, hcalling _ _ _ _⟩
      | reply item d n res _ _ _ _ _ => exact .inl ⟨rfl, hcalling _ _ _ _⟩
      | _ => exact .inl ⟨rfl, fun _ => rfl⟩
  | heartbeat h =>
      cases h with
      | expired d conns n _ _ _ => exact .inl ⟨rfl, hcalling _ _ _ _⟩
      | ping d conns n _ _ _ => exact .inl ⟨rfl, hcalling _ _ _ _⟩
      | pingErr d conns n m e _ _ _ => exact .inl ⟨rfl, hcalling _ _ _ _⟩
      | increment d conns _ =>
          refine .inl ⟨rfl, ?_⟩
          intro c
          by_cases hc : c = d <;> simp [hc, TcpConn.incrementHeartbeats]
      | _ => exact .inl ⟨rfl, fun _ => rfl⟩
  | add h =>
      cases h with
      | rejectFirst n _ _ _ => exact .inl ⟨rfl, hcalling _ _ _ _⟩
      | rejectSecond n _ _ _ => exact .inl ⟨rfl, hcalling _ _ _ _⟩
      | _ => exact .inl ⟨rfl, fun _ => rfl⟩
  | close h => cases h <;> exact .inl ⟨rfl, fun _ => rfl⟩
  | @call c k conn call call' hk hs =>
      obtain heq | ⟨heq, data, rfl⟩ := acquired_of_callStep hs
      · refine .inl ⟨by simp [heq], ?_⟩
        intro d
        by_cases hd : d = c <;> simp [hd, heq]
      · refine .inr ⟨c, k, data, rfl, hk, by simp [heq], by simp [heq], fun d hd => ?_⟩
        exact Function.update_of_ne hd ..
  | arrival _ => exact .inl ⟨rfl, fun _ => rfl⟩

/-- The log has the writes of each connection in the order of its writer lock. -/
lemma acquired_of_reach (h : (lts cfg).Reach s) (c : C) :
    (s.log.acquired.filter (·.1 = c)).map Prod.snd = (s.link c).conn.acquired := by
  refine h.invariant (I := fun s => (s.log.acquired.filter (·.1 = c)).map Prod.snd =
    (s.link c).conn.acquired) (fun s hs => ?_) fun s l s' _ hi hs => ?_
  · subst hs
    rfl
  · obtain ⟨hlog, hlink⟩ | ⟨d, k, data, -, -, hlog, hlink, hother⟩ := acquired_of_step hs
    · rw [hlog, hlink, hi]
    · by_cases hd : c = d
      · subst hd
        simp [hlog, hlink, hi]
      · simp [hlog, hother c hd, Ne.symm hd, hi]

/-- The frame that worker `w` is writing, once its write has had the writer lock. -/
def current (s : Room cfg) (w : ℕ) : List (Item C) :=
  match s.worker w with
  | .forwarding item c n => if ⟨.forward item, n⟩ ∈ (s.link c).conn.acquired then [item] else []
  | _ => []

/-- The frames of worker `w` whose write got the writer lock. -/
def forwardsOf (s : Room cfg) (w : ℕ) : List (Item C) :=
  (s.forwards.map Prod.snd).filter (cfg.route · = some w)

/-- The items that worker `w` has finished. -/
def finishedOf (s : Room cfg) (w : ℕ) : List (Item C) :=
  (s.log.items.finished.map Prod.fst).filter (cfg.route · = some w)

/-- The items that worker `w` has finished, with what became of them. -/
def doneBy (s : Room cfg) (w : ℕ) : List (Item C × Fate C) :=
  s.log.items.finished.filter (cfg.route ·.1 = some w)

omit [DecidableEq C] in
lemma map_fst_doneBy (s : Room cfg) (w : ℕ) : (s.doneBy w).map Prod.fst = s.finishedOf w := by
  rw [doneBy, finishedOf, List.filter_map]
  rfl

/-- What a step does to the frames of worker `w`: nothing, its write gets the writer lock, or the
worker finishes an item. -/
inductive DeliveryChange (s s' : Room cfg) (w : ℕ) : Prop
  | same : s'.forwardsOf w = s.forwardsOf w → s'.finishedOf w = s.finishedOf w →
      s'.current w = s.current w → DeliveryChange s s' w
  | acquired (item : Item C) : s'.forwardsOf w = s.forwardsOf w ++ [item] →
      s'.finishedOf w = s.finishedOf w → s.current w = [] → s'.current w = [item] →
      DeliveryChange s s' w
  | finished (item : Item C) (fate : Fate C) : s.Concludes w item fate →
      s'.forwardsOf w = s.forwardsOf w → s'.finishedOf w = s.finishedOf w ++ [item] →
      s'.current w = [] → DeliveryChange s s' w

/-- A call that has not been made, or a write that waits, has not had the writer lock. -/
lemma not_acquired (hr : (lts cfg).Reach s) {k : CallId C}
    (hk : (s.link c).on Call.tookTurn k = false) : k ∉ (s.link c).conn.acquired := by
  intro hmem
  have htook := (SharedConn.turns_of_reach (link_of_reach hr c)).took k hmem
  simp [hk] at htook

lemma current_of_idle {w : ℕ} (hw : s.worker w = .idle) : s.current w = [] := by
  rw [current, hw]

omit [DecidableEq C] in
/-- The items of a worker once one of its items is finished. -/
lemma doneBy_finish {v : ℕ} {item : Item C} {fate : Fate C} (hi : Queued s)
    (hend : s.Concludes v item fate) (heq : s'.log.items = s.log.items.finish (some v) fate)
    (w : ℕ) : s'.doneBy w = s.doneBy w ++ if v = w then [(item, fate)] else [] := by
  have hroute := route_of_inflight hi hend.inflight
  rw [doneBy, heq, Lanes.finished_finish _ _ (lane_eq_cons hi rfl hend.inflight)]
  split_ifs with hw
  · simp [doneBy, hroute, hw]
  · simp [doneBy, hroute, hw]

/-- What worker `w` has finished: no more than before, or one item more. -/
lemma doneBy_of_step (hi : Queued s) (h : Step s l s') (w : ℕ) :
    s'.doneBy w = s.doneBy w ∧
        (s'.worker w = s.worker w ∨ WorkerStep s w s' ∧ s'.worker w ≠ .idle) ∨
      ∃ item fate, s.Concludes w item fate ∧ s'.worker w = .idle ∧
        s'.doneBy w = s.doneBy w ++ [(item, fate)] := by
  obtain hstage | ⟨-, hstep⟩ := worker_of_step h w
  · refine .inl ⟨?_, .inl hstage⟩
    cases itemsChange_of_step h with
    | same heq => rw [doneBy, heq, doneBy]
    | sent c v task _ heq => rw [doneBy, heq, Lanes.finished_push, doneBy]
    | finished v item fate hend hidle heq =>
        have hv : v ≠ w := by
          rintro rfl
          have hbusy := hend.inflight
          rw [← hstage, hidle] at hbusy
          cases hbusy
        rw [doneBy_finish hi hend heq, if_neg hv, List.append_nil]
  · obtain ⟨heq, hbusy⟩ | ⟨item, fate, hend, hidle, heq⟩ := items_of_workerStep hstep
    · exact .inl ⟨by rw [doneBy, heq, doneBy], .inr ⟨hstep, hbusy⟩⟩
    · refine .inr ⟨item, fate, hend, hidle, ?_⟩
      rw [doneBy_finish hi hend heq, if_pos rfl]

/-- The items that worker `w` has finished: no more than before, or one more. -/
lemma finishedOf_of_step (hi : Queued s) (h : Step s l s') (w : ℕ) :
    s'.finishedOf w = s.finishedOf w ∧
        (s'.worker w = s.worker w ∨ WorkerStep s w s' ∧ s'.worker w ≠ .idle) ∨
      ∃ item fate, s.Concludes w item fate ∧ s'.worker w = .idle ∧
        s'.finishedOf w = s.finishedOf w ++ [item] := by
  rw [← map_fst_doneBy, ← map_fst_doneBy]
  obtain ⟨hdone, hstage⟩ | ⟨item, fate, hend, hidle, hdone⟩ := doneBy_of_step hi h w
  · exact .inl ⟨by rw [hdone], hstage⟩
  · exact .inr ⟨item, fate, hend, hidle, by rw [hdone, List.map_append, List.map_singleton]⟩

/-- A worker whose stage does not change has its write as it was, unless a write gets its lock. -/
lemma current_of_worker {w : ℕ} (hstage : s'.worker w = s.worker w)
    (hlink : ∀ c, (s'.link c).conn.acquired = (s.link c).conn.acquired) :
    s'.current w = s.current w := by
  rw [current, hstage, current]
  cases s.worker w with
  | forwarding item c n => simp only [hlink]
  | _ => rfl

/-- A worker that goes on and finishes nothing has no write that has had the lock. -/
lemma current_of_workerStep {w : ℕ} (hr : (lts cfg).Reach s) (h : WorkerStep s w s')
    (hidle : s'.worker w ≠ .idle) : s'.current w = s.current w := by
  cases h with
  | found item d n hc _ _ hfresh =>
      have hnot := not_acquired hr (SharedConn.on_of_none hfresh)
      have hnone : ⟨.forward item, n⟩ ∉
          (s.calling d (.forward item) n (.write item.task.payload .start) d).conn.acquired := by
        rw [calling_self]
        exact hnot
      simp [current, hc, hnone]
  | _ => simp_all [current]

/-- The frame of a write that waits for its lock is the one its worker is busy with. -/
lemma forwarding_of_waiting {k : CallId C} {item : Item C} {data : List UInt8}
    (hr : (lts cfg).Reach s) (hk : (s.link c).calls k = some (.write data .waiting))
    (hcaller : k.caller = .forward item) :
    ∃ w, s.worker w = .forwarding item c k.serial ∧ cfg.route item = some w := by
  have hwaits := (called_of_reach hr).waits c k _ hk fun r => by simp [Returned, hk]
  simp only [Waits, hcaller] at hwaits
  obtain ⟨w, hw⟩ := hwaits
  exact ⟨w, hw, route_of_inflight (queued_of_reach hr) (by rw [hw]; rfl)⟩

theorem deliveryChange_of_step (hr : (lts cfg).Reach s) (h : Step s l s') (w : ℕ) :
    DeliveryChange s s' w := by
  have hi := queued_of_reach hr
  obtain ⟨hlog, hlink⟩ | ⟨c, k, data, rfl, hk, hlog, hlink, hother⟩ := acquired_of_step h
  · have hforwards : s'.forwardsOf w = s.forwardsOf w := by
      rw [forwardsOf, forwards, hlog, forwardsOf, forwards]
    obtain ⟨hfin, hstage | ⟨hstep, hidle⟩⟩ | ⟨item, fate, hend, hidle, hfin⟩ :=
      finishedOf_of_step hi h w
    · exact .same hforwards hfin (current_of_worker hstage hlink)
    · exact .same hforwards hfin (current_of_workerStep hr hstep hidle)
    · exact .finished item fate hend hforwards hfin (current_of_idle hidle)
  · -- a write gets its lock, and the workers stay where they are
    have hfin : s'.finishedOf w = s.finishedOf w := by cases h; rfl
    have hstage : s'.worker w = s.worker w := by cases h; rfl
    have hforwards : s'.forwards = s.forwards ++ (k.caller.item.map (Prod.mk c)).toList := by
      cases hitem : k.caller.item <;> simp [forwards, hlog, hitem]
    -- only the worker that makes call `k` sees the difference
    have hcurrent : (∀ item n, s.worker w = .forwarding item c n → k ≠ ⟨.forward item, n⟩) →
        s'.current w = s.current w := by
      intro hne
      rw [current, hstage, current]
      cases hw : s.worker w with
      | forwarding item d n =>
          by_cases hd : d = c
          · subst hd
            simp [hlink, (hne item n hw).symm]
          · simp only [hother d hd]
      | _ => rfl
    obtain ⟨caller, n⟩ := k
    cases caller with
    | forward item =>
        obtain ⟨v, hv, hroute⟩ := forwarding_of_waiting hr hk rfl
        have hnew : s'.forwards = s.forwards ++ [(c, item)] := hforwards
        by_cases hw : v = w
        · subst hw
          have hnot := not_acquired hr (k := ⟨.forward item, n⟩) (SharedConn.on_eq hk)
          refine .acquired item ?_ hfin ?_ ?_
          · simp [forwardsOf, hnew, hroute]
          · simp [current, hv, hnot]
          · simp [current, hstage, hv, hlink]
        · refine .same ?_ hfin (hcurrent ?_)
          · simp [forwardsOf, hnew, hroute, hw]
          · intro item' n' hw' heq
            cases heq
            have hroute' := route_of_inflight hi (w := w) (by rw [hw']; rfl)
            exact hw (by simpa [hroute] using hroute')
    | _ =>
        refine .same ?_ hfin (hcurrent fun _ _ _ heq => by cases heq)
        have hnew : s'.forwards = s.forwards ++ [] := hforwards
        rw [forwardsOf, hnew, List.append_nil, forwardsOf]

/-! ### The order of the writes -/

/-- Only the item a worker is busy with is being written. -/
lemma current_sublist (s : Room cfg) (w : ℕ) :
    (s.current w).Sublist (s.worker w).inflight := by
  rw [current]
  split
  · rename_i hw
    rw [hw]
    split_ifs
    · exact List.Sublist.refl _
    · exact List.nil_sublist _
  · exact List.nil_sublist _

/-- The frames of a worker get their locks in the order in which it takes them from the queue. -/
theorem forwardsOf_sublist (h : (lts cfg).Reach s) (w : ℕ) :
    (s.forwardsOf w).Sublist (s.finishedOf w ++ s.current w) := by
  refine h.invariant (I := fun s => (s.forwardsOf w).Sublist (s.finishedOf w ++ s.current w))
    (fun s hs => ?_) fun s l s' hr hi hs => ?_
  · subst hs
    exact List.nil_sublist _
  · cases deliveryChange_of_step hr hs w with
    | same hforwards hfin hcurrent => rwa [hforwards, hfin, hcurrent]
    | acquired item hforwards hfin hnone hcurrent =>
        rw [hnone, List.append_nil] at hi
        rw [hforwards, hfin, hcurrent]
        exact hi.append (List.Sublist.refl _)
    | finished item fate hend hforwards hfin hnone =>
        have hone : (s.current w).Sublist [item] := hend.inflight ▸ s.current_sublist w
        rw [hforwards, hfin, hnone, List.append_nil]
        exact hi.trans ((List.Sublist.refl _).append hone)

/-- Frames of one worker get their locks in the order in which they were sent to it. -/
lemma forwardsOf_sublist_accepted (h : (lts cfg).Reach s) (w : ℕ) :
    (s.forwardsOf w).Sublist (s.log.items.accepted.filter (cfg.route · = some w)) := by
  have hlane : (s.current w).Sublist (s.log.items.lane (some w)) := by
    by_cases hend : s.worker w = .ended
    · rw [current, hend]
      exact List.nil_sublist _
    · rw [(queued_of_reach h).lane w hend]
      exact (s.current_sublist w).trans (List.sublist_append_left _ _)
  rw [s.log.items.fifo]
  exact (forwardsOf_sublist h w).trans ((List.Sublist.refl _).append hlane)

/-- Frames that share a worker get their locks in the order in which they were sent to it. -/
lemma forwards_filter_sublist (h : (lts cfg).Reach s) {p : Item C → Bool} {w : ℕ}
    (hp : ∀ item, p item = true → cfg.route item = some w) :
    ((s.forwards.map Prod.snd).filter p).Sublist (s.log.items.accepted.filter p) := by
  rw [← Lanes.filter_filter_route hp, ← Lanes.filter_filter_route hp s.log.items.accepted]
  exact (forwardsOf_sublist_accepted h w).filter p

/-! ### The targets of the writes -/

/-- The listener has registered its connection, now or before. -/
def ListenerStage.joined : ListenerStage C → Bool
  | .absent | .spawned | .registering | .ended .dropped => false
  | _ => true

omit [DecidableEq C] in
lemma ListenerStage.mapped.joined {stage : ListenerStage C} (h : stage.mapped) :
    stage.joined = true := by
  obtain h | rfl := h
  · cases stage <;> simp_all [ListenerStage.registered, ListenerStage.joined]
  · rfl

lemma joined_of_step (hr : (lts cfg).Reach s) (h : Step s l s')
    (hc : (s.listener c).joined = true) : (s'.listener c).joined = true := by
  obtain heq | ⟨-, hstep⟩ | ⟨-, hspawn, -⟩ := listener_of_step h c
  · rwa [heq]
  · by_cases hremove : s.listener c = .removing
    · cases hstep <;> simp_all [ListenerStage.joined]
    · cases hstep with
      | readHeader head rest _ _ _ =>
          simpa using (afterHeader_mapped head).joined
      | readPayload head t f len body rest _ _ _ =>
          simpa using (afterPayload_mapped cfg.workerNumber t f head body).joined
      | _ => simp_all [ListenerStage.joined]
  · have habsent : s.listener c ≠ .absent := by
      intro heq
      simp [heq, ListenerStage.joined] at hc
    simp [adding_of_listener hr habsent] at hspawn

/-- A connection that frames for `t` are written to: it has this name and has registered. -/
def Target (s : Room cfg) (d : C) (t : String) : Prop :=
  cfg.name d = t ∧ (s.listener d).joined = true

lemma Target.step {d : C} {t : String} (ht : s.Target d t) (hr : (lts cfg).Reach s)
    (h : Step s l s') : s'.Target d t :=
  ⟨ht.1, joined_of_step hr h ht.2⟩

/-- The frames that are written are sent to workers, and each is written to a connection that has
registered under the name of its target. -/
structure Forwarded (s : Room cfg) : Prop where
  working : ∀ w item d n, s.worker w = .forwarding item d n → s.Target d item.task.toName
  target : ∀ d item, (d, item) ∈ s.forwards → s.Target d item.task.toName
  accepted : ∀ d item, (d, item) ∈ s.forwards → item ∈ s.log.items.accepted

/-- A frame whose write gets its lock is the one a worker is busy with. -/
lemma forwards_of_step (hr : (lts cfg).Reach s) (h : Step s l s') :
    s'.forwards = s.forwards ∨
      ∃ w item d n, s.worker w = .forwarding item d n ∧
        s'.forwards = s.forwards ++ [(d, item)] := by
  obtain ⟨hlog, -⟩ | ⟨d, k, data, -, hk, hlog, -, -⟩ := acquired_of_step h
  · exact .inl (by rw [forwards, hlog, forwards])
  · obtain ⟨caller, n⟩ := k
    cases caller with
    | forward item =>
        obtain ⟨w, hw, -⟩ := forwarding_of_waiting hr hk rfl
        exact .inr ⟨w, item, d, n, hw, by simp [forwards, hlog, Caller.item]⟩
    | _ => exact .inl (by simp [forwards, hlog, Caller.item])

/-- A worker forwards to the connection its lookup has found. -/
lemma forwarding_of_step {w n : ℕ} {item : Item C} {d : C} (h : Step s l s')
    (hw : s'.worker w = .forwarding item d n) :
    s.worker w = .forwarding item d n ∨
      s.worker w = .lookup item ∧ s.conns item.task.toName = some d := by
  obtain heq | ⟨-, hstep⟩ := worker_of_step h w
  · exact .inl (heq ▸ hw)
  · cases hstep with
    | found item' d' n' hc _ hconns _ =>
        obtain ⟨rfl, rfl, -⟩ : item' = item ∧ d' = d ∧ n' = n := by simpa using hw
        exact .inr ⟨hc, hconns⟩
    | _ => simp_all

theorem forwarded_of_reach (h : (lts cfg).Reach s) : Forwarded s := by
  refine h.invariant ?_ ?_
  · intro s hs
    subst hs
    refine ⟨fun w item d n hw => ?_, by simp [opened, forwards], by simp [opened, forwards]⟩
    obtain heq | heq := worker_opened cfg w <;> simp [heq] at hw
  · intro s l s' hr hi hs
    have hforwards : ∀ d item, (d, item) ∈ s'.forwards →
        (d, item) ∈ s.forwards ∨ ∃ w n, s.worker w = .forwarding item d n := by
      intro d item hmem
      obtain heq | ⟨w, item', d', n, hw, heq⟩ := forwards_of_step hr hs
      · exact .inl (heq ▸ hmem)
      · obtain hold | hnew : (d, item) ∈ s.forwards ∨ (d, item) = (d', item') := by
          simpa [heq] using hmem
        · exact .inl hold
        · cases hnew
          exact .inr ⟨w, n, hw⟩
    refine ⟨?_, ?_, ?_⟩
    · intro w item d n hw
      obtain hold | ⟨-, hconns⟩ := forwarding_of_step hs hw
      · exact (hi.working w item d n hold).step hr hs
      · have hmapped := mapped_of_reach hr
        have htarget : s.Target d item.task.toName :=
          ⟨hmapped.name _ _ hconns, (hmapped.stage _ _ hconns).joined⟩
        exact htarget.step hr hs
    · intro d item hmem
      obtain hold | ⟨w, n, hw⟩ := hforwards d item hmem
      · exact (hi.target d item hold).step hr hs
      · exact (hi.working w item d n hw).step hr hs
    · intro d item hmem
      obtain hold | ⟨w, n, hw⟩ := hforwards d item hmem
      · exact accepted_mono hs (hi.accepted d item hold)
      · exact accepted_mono hs (accepted_of_inflight (queued_of_reach hr) (by rw [hw]; rfl))

/-! ### A target that stays -/

/-- The room is not cancelled, every lookup of `t` finds `d`, and no write to `d` has failed. -/
structure Served (t : String) (d : C) (s : Room cfg) : Prop where
  running : s.cancelToken = false
  registered : ∀ w item, s.worker w = .lookup item → item.task.toName = t → s.conns t = some d
  writes : ∀ k data e, (s.link d).calls k ≠ some (.write data (.returned (.error e)))

/-- The item is for `t`. -/
def isFor (t : String) (item : Item C) : Bool := item.task.toName = t

/-- Every frame for `t` is written to `d`, and no such frame is passed over. -/
structure Steady (t : String) (d : C) (s : Room cfg) : Prop where
  working : ∀ w item d' n, s.worker w = .forwarding item d' n → item.task.toName = t → d' = d
  answering : ∀ w item,
    (s.worker w = .replyLookup item ∨ ∃ d' n, s.worker w = .replying item d' n) →
      item.task.toName ≠ t
  target : ∀ d' item, (d', item) ∈ s.forwards → item.task.toName = t → d' = d
  all : ∀ w, (s.forwardsOf w).filter (isFor t) = (s.finishedOf w ++ s.current w).filter (isFor t)

/-- A call that forwards an item and has returned is a write of its frame that has returned. -/
lemma calls_of_forwarded {d : C} {item : Item C} {n : ℕ} {r : IoResult} (hr : (lts cfg).Reach s)
    (hret : s.Returned d (.forward item) n r) :
    (s.link d).calls ⟨.forward item, n⟩ = some (.write item.task.payload (.returned r)) := by
  obtain hk | ⟨data, hk⟩ := hret
  · obtain ⟨stage, hmakes⟩ := (called_of_reach hr).makes d _ _ hk
    cases hmakes
  · obtain ⟨stage, hmakes⟩ := (called_of_reach hr).makes d _ _ hk
    cases hmakes
    exact hk

/-- A worker that finishes an item for `t` has written it. -/
lemma current_of_concludes {t : String} {d : C} {w : ℕ} {item : Item C} {fate : Fate C}
    (hr : (lts cfg).Reach s) (hs : Served t d s) (hi : Steady t d s)
    (hend : s.Concludes w item fate) (ht : item.task.toName = t) : s.current w = [item] := by
  cases hend with
  | forwarded d' n r hc hret =>
      obtain rfl := hi.working w item d' n hc ht
      have hk := calls_of_forwarded hr hret
      cases r with
      | error e => exact absurd hk (hs.writes _ _ _)
      | ok u =>
          have hmem := (SharedConn.turns_of_reach (link_of_reach hr d')).owns _
            ((SharedConn.on_eq hk).trans rfl)
          simp [current, hc, hmem]
  | skipped hc hconns _ => simp [ht, hs.registered w item hc ht] at hconns
  | senderMissing hc _ => exact absurd ht (hi.answering w item (.inl hc))
  | replyErr e hc _ => exact absurd ht (hi.answering w item (.inl hc))
  | replied d' n r hc _ => exact absurd ht (hi.answering w item (.inr ⟨d', n, hc⟩))

/-- A worker that answers an item has looked up the target of the last frame of a request in
vain. -/
lemma answering_of_step {w : ℕ} {item : Item C} (h : Step s l s')
    (hw : s'.worker w = .replyLookup item ∨ ∃ d n, s'.worker w = .replying item d n) :
    (s.worker w = .replyLookup item ∨ ∃ d n, s.worker w = .replying item d n) ∨
      s.worker w = .lookup item ∧ s.conns item.task.toName = none ∧
        item.task.closesRequest = true := by
  obtain heq | ⟨-, hstep⟩ := worker_of_step h w
  · exact .inl (heq ▸ hw)
  · cases hstep <;> simp_all

theorem steady_of_reach {t : String} {d : C} (h : (lts cfg).ReachBy (fun s _ => Served t d s) s) :
    Steady t d s := by
  refine h.invariant ?_ ?_
  · intro s hs
    subst hs
    refine ⟨fun w item d' n hw => ?_, fun w item hw => ?_, by simp [opened, forwards],
      fun w => ?_⟩
    · obtain heq | heq := worker_opened cfg w <;> simp [heq] at hw
    · obtain heq | heq := worker_opened cfg w <;> simp [heq] at hw
    · have hnone : (opened cfg).current w = [] := by
        obtain heq | heq := worker_opened cfg w <;> rw [current, heq]
      rw [hnone]
      rfl
  · intro s l s' hr hi hok hs
    refine ⟨?_, ?_, ?_, ?_⟩
    · intro w item d' n hw ht
      obtain hold | ⟨hlookup, hconns⟩ := forwarding_of_step hs hw
      · exact hi.working w item d' n hold ht
      · simpa [ht, hok.registered w item hlookup ht, eq_comm] using hconns
    · intro w item hw ht
      obtain hold | ⟨hlookup, hconns, -⟩ := answering_of_step hs hw
      · exact hi.answering w item hold ht
      · simp [ht, hok.registered w item hlookup ht] at hconns
    · intro d' item hmem ht
      obtain heq | ⟨w, item', d'', n, hw, heq⟩ := forwards_of_step hr.reach hs
      · exact hi.target d' item (heq ▸ hmem) ht
      · obtain hold | hnew : (d', item) ∈ s.forwards ∨ (d', item) = (d'', item') := by
          simpa [heq] using hmem
        · exact hi.target d' item hold ht
        · cases hnew
          exact hi.working w item d' n hw ht
    · intro w
      cases deliveryChange_of_step hr.reach hs w with
      | same hforwards hfin hcurrent => rw [hforwards, hfin, hcurrent, hi.all w]
      | acquired item hforwards hfin hnone hcurrent =>
          have hall := hi.all w
          rw [hnone, List.append_nil] at hall
          rw [hforwards, hfin, hcurrent, List.filter_append, hall, List.filter_append]
      | finished item fate hend hforwards hfin hnone =>
          have hone : (s.current w).filter (isFor t) = [item].filter (isFor t) := by
            by_cases ht : item.task.toName = t
            · rw [current_of_concludes hr.reach hok hi hend ht]
            · have hsub := (hend.inflight ▸ s.current_sublist w).filter (isFor t)
              rw [List.filter_singleton] at hsub ⊢
              simpa [isFor, ht] using hsub
          rw [hforwards, hfin, hnone, List.append_nil, hi.all w, List.filter_append, hone,
            List.filter_append]

omit [DecidableEq C] in
/-- Where the writes of some frames have returned `Ok`, these frames are written. -/
lemma written_filter {p : Item C → Bool}
    (h : ∀ d k item, (d, k) ∈ s.log.acquired → k.caller = .forward item → p item = true →
      (s.link d).on Call.wroteOk k = true) :
    (s.written.map Prod.snd).filter p = (s.forwards.map Prod.snd).filter p := by
  rw [written, forwards]
  generalize s.log.acquired = xs at h ⊢
  induction xs with
  | nil => rfl
  | cons x xs ih =>
      obtain ⟨d, caller, n⟩ := x
      have hrest := ih fun d k item hmem => h d k item (List.mem_cons_of_mem _ hmem)
      rw [List.filter_cons]
      cases hitem : caller.item with
      | none => split_ifs <;> simp [hitem, hrest]
      | some item =>
          have hok := h d ⟨caller, n⟩ item List.mem_cons_self (Caller.item_eq_some hitem)
          by_cases hp : p item = true
          · simp [hok hp, hitem, hp, hrest]
          · split_ifs <;> simp [hitem, hp, hrest]

/-- When no worker is busy, the writes for `t` have returned `Ok`. -/
lemma wroteOk_of_idle {t : String} {d d' : C} {k : CallId C} {item : Item C}
    (hr : (lts cfg).Reach s) (hs : Served t d s) (hi : Steady t d s)
    (hidle : ∀ w, (s.worker w).inflight = []) (hmem : (d', k) ∈ s.log.acquired)
    (hcaller : k.caller = .forward item) (ht : item.task.toName = t) :
    (s.link d').on Call.wroteOk k = true := by
  obtain ⟨caller, n⟩ := k
  obtain rfl : caller = .forward item := hcaller
  have hforward : (d', item) ∈ s.forwards :=
    List.mem_filterMap.mpr ⟨_, hmem, rfl⟩
  obtain rfl := hi.target d' item hforward ht
  have hturn : ⟨.forward item, n⟩ ∈ (s.link d').conn.acquired := by
    rw [← acquired_of_reach hr d']
    exact List.mem_map.mpr ⟨_, List.mem_filter.mpr ⟨hmem, by simp⟩, rfl⟩
  obtain ⟨call, hk, -⟩ := SharedConn.exists_of_on
    ((SharedConn.turns_of_reach (link_of_reach hr d')).took _ hturn)
  have hret : ∃ r, s.Returned d' (.forward item) n r := by
    by_contra hnot
    obtain ⟨w, hw⟩ := (called_of_reach hr).waits d' _ call hk (not_exists.mp hnot)
    simpa [hw, WorkerStage.inflight] using hidle w
  obtain ⟨r, hret⟩ := hret
  have hreturned := calls_of_forwarded hr hret
  cases r with
  | error e => exact absurd hreturned (hs.writes _ _ _)
  | ok u => exact (SharedConn.on_eq hreturned).trans rfl

/-! ### Channels -/

/-- The item is a frame of channel `id` from `c` to `t`. -/
def onChannel (c : C) (t : String) (id : ChannelId) (item : Item C) : Bool :=
  item.source = c ∧ item.task.toName = t ∧ getChannelId item.task.payload = .ok id

section Channel

variable {t : String} {id : ChannelId} {item : Item C}

lemma route_of_onChannel {w : ℕ} (hw : id.assignTargetFast cfg.workerNumber = .ok w)
    (h : onChannel c t id item = true) : cfg.route item = some w := by
  obtain ⟨-, -, hid⟩ : _ ∧ _ ∧ getChannelId item.task.payload = .ok id := by
    simpa [onChannel] using h
  rw [RoomConfig.route, hid]
  simp only [hw]

/-- Items are accepted only where their channels have workers. -/
lemma exists_worker_of_accepted (hi : Queued s) (hmem : item ∈ s.log.items.accepted)
    (h : onChannel c t id item = true) : ∃ w, id.assignTargetFast cfg.workerNumber = .ok w := by
  obtain ⟨w, hframe⟩ := hi.accepted item hmem
  obtain ⟨id', hid', hw⟩ := hframe.worker
  obtain ⟨-, -, hid⟩ : _ ∧ _ ∧ getChannelId item.task.payload = .ok id := by
    simpa [onChannel] using h
  obtain rfl : id' = id := by simpa [hid] using hid'.symm
  exact ⟨w, hw⟩

/-- The frames of a channel get their locks in the order in which they were sent. -/
lemma forwards_onChannel (h : (lts cfg).Reach s) (c : C) (t : String) (id : ChannelId) :
    ((s.forwards.map Prod.snd).filter (onChannel c t id)).Sublist
      (s.log.items.accepted.filter (onChannel c t id)) := by
  by_cases hw : ∃ w, id.assignTargetFast cfg.workerNumber = .ok w
  · obtain ⟨w, hw⟩ := hw
    exact forwards_filter_sublist h fun item hitem => route_of_onChannel hw hitem
  · have hnone : (s.forwards.map Prod.snd).filter (onChannel c t id) = [] := by
      refine List.filter_eq_nil_iff.mpr fun item hmem hitem => hw ?_
      obtain ⟨⟨d, item⟩, hforward, rfl⟩ := List.mem_map.mp hmem
      exact exists_worker_of_accepted (queued_of_reach h)
        ((forwarded_of_reach h).accepted d item hforward) hitem
    rw [hnone]
    exact List.nil_sublist _

/-- When no worker is busy and the queues are empty, all frames of a channel have been written. -/
lemma written_onChannel {d : C} (h : (lts cfg).ReachBy (fun s _ => Served t d s) s)
    (hs : Served t d s) (hidle : ∀ w, s.queue w = [] ∧ (s.worker w).inflight = []) (c : C)
    (id : ChannelId) :
    (s.written.map Prod.snd).filter (onChannel c t id) =
      s.log.items.accepted.filter (onChannel c t id) := by
  have hi := steady_of_reach h
  have hq := queued_of_reach h.reach
  have hfor : ∀ item, onChannel c t id item = true → isFor t item = true := fun item hitem => by
    simp only [onChannel, decide_eq_true_eq] at hitem
    simp [isFor, hitem.2.1]
  have hwritten := written_filter (s := s) (p := onChannel c t id)
    fun d' k item hmem hcaller hitem => wroteOk_of_idle h.reach hs hi (fun w => (hidle w).2) hmem
      hcaller (by simpa [isFor] using hfor item hitem)
  rw [hwritten]
  by_cases hw : ∃ w, id.assignTargetFast cfg.workerNumber = .ok w
  · obtain ⟨w, hw⟩ := hw
    have hlt := ChannelId.assignTargetFast_lt hw
    have hroute : ∀ item, onChannel c t id item = true → cfg.route item = some w :=
      fun item hitem => route_of_onChannel hw hitem
    have hcurrent : s.current w = [] :=
      List.sublist_nil.mp ((hidle w).2 ▸ s.current_sublist w)
    have hlane : s.log.items.lane (some w) = [] := by
      have hrun : s.worker w ≠ .ended := fun hend => by
        simpa [hs.running] using hq.ended w hlt hend
      rw [hq.lane w hrun, (hidle w).1, (hidle w).2]
      rfl
    calc (s.forwards.map Prod.snd).filter (onChannel c t id)
        = ((s.forwardsOf w).filter (isFor t)).filter (onChannel c t id) := by
          rw [Lanes.filter_filter_of_imp hfor, forwardsOf, Lanes.filter_filter_route hroute]
      _ = ((s.finishedOf w).filter (isFor t)).filter (onChannel c t id) := by
          rw [hi.all w, hcurrent, List.append_nil]
      _ = s.log.items.accepted.filter (onChannel c t id) := by
          rw [Lanes.filter_filter_of_imp hfor, s.log.items.accepted_filter hroute, hlane,
            finishedOf, Lanes.filter_filter_route hroute, List.filter_nil, List.append_nil]
  · have hnone : s.log.items.accepted.filter (onChannel c t id) = [] :=
      List.filter_eq_nil_iff.mpr fun item hmem hitem =>
        hw (exists_worker_of_accepted hq hmem hitem)
    rw [hnone]
    exact List.sublist_nil.mp (hnone ▸ forwards_onChannel h.reach c t id)

end Channel

/-- **A channel keeps its order.**  For a connection `c`, a name `t` and a channel `id`, over all
runs: the frames of this channel from `c` to `t` whose write got a writer lock, and so those whose
write returned `Ok`, are in this order among those that the listener of `c` sent to the workers,
each at most once, and these are in this order among the frames that the listener cut from the
bytes of `c`; each is written as it is, to a connection that has registered under `t`, and the
writes of a connection are in the order of its writer lock.  If the room is not cancelled, every
lookup of `t` finds the same connection and no write to it fails, then with empty queues and idle
workers all frames sent have been written, in order. -/
theorem channel_order (cfg : RoomConfig C) (c : C) (t : String) (id : ChannelId) :
    (∀ s : Room cfg, (lts cfg).Reach s →
      ((s.forwards.map Prod.snd).filter (onChannel c t id)).Sublist
        (s.log.items.accepted.filter (onChannel c t id)) ∧
      s.written.Sublist s.forwards ∧
      (∃ frames rest, s.log.received c = frames.flatten ++ rest ∧
        ((s.acceptedFrom c).map (·.task.payload)).Sublist frames) ∧
      (∀ d item, (d, item) ∈ s.forwards → s.Target d item.task.toName) ∧
      (∀ d k item, (d, k) ∈ s.log.acquired → k.caller = .forward item →
        (s.link d).dataOf k = item.task.payload) ∧
      ∀ d, (s.log.acquired.filter (·.1 = d)).map Prod.snd = (s.link d).conn.acquired) ∧
    ∀ (d : C) (s : Room cfg), (lts cfg).ReachBy (fun s _ => Served t d s) s → Served t d s →
      (∀ w, s.queue w = [] ∧ (s.worker w).inflight = []) →
      (s.written.map Prod.snd).filter (onChannel c t id) =
        s.log.items.accepted.filter (onChannel c t id) := by
  refine ⟨fun s hs => ⟨forwards_onChannel hs c t id, s.written_sublist, ?_,
    (forwarded_of_reach hs).target, fun d k item hmem hcaller => ?_, acquired_of_reach hs⟩,
    fun d s hs hserved hidle => written_onChannel hs hserved hidle c id⟩
  · obtain ⟨frames, rest, hread, -⟩ := readFrames_of_reach hs c
    exact ⟨frames, rest, hread.received, (List.sublist_append_left _ _).trans hread.sent⟩
  · have hturn : k ∈ (s.link d).conn.acquired := by
      rw [← acquired_of_reach hs d]
      exact List.mem_map.mpr ⟨_, List.mem_filter.mpr ⟨hmem, by simp⟩, rfl⟩
    obtain ⟨call, hk, -⟩ := SharedConn.exists_of_on
      ((SharedConn.turns_of_reach (link_of_reach hs d)).took k hturn)
    have hmakes := (called_of_reach hs).makes d k call hk
    rw [hcaller] at hmakes
    obtain ⟨stage, rfl⟩ := hmakes
    exact SharedConn.dataOf_eq hk

/-! ### A frame that is delivered -/

omit [DecidableEq C] in
lemma Served.of_quiet {t : String} {d : C} (h : Quiet s) : Served t d s := by
  refine ⟨h.running, ?_, ?_⟩
  · intro w item hw
    simpa [hw, WorkerStage.inflight] using h.idle w
  · intro k data e hk
    simp [h.calls d k] at hk

section Served

variable {t : String} {d : C} {k : CallId C} {conn : TcpConn (CallId C)} {data : List UInt8}
  {stage : WriteStage}

omit [DecidableEq C] in
lemma Served.alike (h : Served t d s) (ha : s.Alike s') : Served t d s' :=
  ⟨ha.cancelToken ▸ h.running, by rw [ha.worker, ha.conns]; exact h.registered,
    by rw [ha.link]; exact h.writes⟩

omit [DecidableEq C] in
/-- A worker takes the next item. -/
lemma Served.working (h : Served t d s) (hd : s.conns t = some d) (worker : ℕ → WorkerStage C)
    (queue : ℕ → List (Item C)) : Served t d { s with worker := worker, queue := queue } :=
  ⟨h.running, fun _ _ _ _ => hd, h.writes⟩

/-- No write to a connection has failed while another one goes on or has returned `Ok`. -/
lemma calls_set_ne_error {k' : CallId C} {data' : List UInt8} {e : IoError} (h : Served t d s)
    (hstage : ∀ e, stage ≠ .returned (.error e)) :
    ((s.link d).set k conn (.write data stage)).calls k' ≠
      some (.write data' (.returned (.error e))) := by
  intro hk
  obtain ⟨-, hcall⟩ | ⟨-, hold⟩ := SharedConn.calls_set_eq_some hk
  · cases hcall
    exact hstage e rfl
  · exact h.writes k' data' e hold

lemma Served.inCall {acquired : List (C × CallId C)} (h : Served t d s)
    (hstage : ∀ e, stage ≠ .returned (.error e)) :
    Served t d (s.inCall d k conn (.write data stage) acquired) :=
  ⟨h.running, h.registered, fun k' data' e => by
    rw [link_inCall]
    exact calls_set_ne_error h hstage⟩

lemma Served.served (h : Served t d s) (w : ℕ) (rest : List (Item C)) (caller : Caller C) (n : ℕ)
    (data : List UInt8) (fate : Fate C) :
    Served t d (s.served w rest d caller n data fate) := by
  refine ⟨h.running, ?_, ?_⟩
  · intro v item hv
    by_cases hvw : v = w
    · simp [Room.served, hvw] at hv
    · exact h.registered v item (by simpa [Room.served, hvw] using hv)
  · intro k' data' e
    rw [Room.served]
    simp only [Function.update_self]
    exact calls_set_ne_error h (by simp)

/-- A worker forwards an item to the connection that stays. -/
lemma Served.reach_forwarded {w n : ℕ} {item : Item C} {rest : List (Item C)}
    (h : (lts cfg).ReachBy (fun s _ => Served t d s) s) (hs : Served t d s)
    (hidle : s.worker w = .idle) (hqueue : s.queue w = item :: rest)
    (hentry : Entryless s.listener) (hto : item.task.toName = t) (hconns : s.conns t = some d)
    (hfresh : s.Fresh d (.forward item) n) (hopen : (s.link d).conn.cancelToken = false)
    (hfree : (s.link d).conn.writer = none) (hbroken : (s.link d).conn.broken = false) :
    (lts cfg).ReachBy (fun s _ => Served t d s)
        (s.served w rest d (.forward item) n item.task.payload (.forwarded d n)) ∧
      Served t d (s.served w rest d (.forward item) n item.task.payload (.forwarded d n)) := by
  subst hto
  exact ⟨Room.reach_forwarded h hs hidle hqueue (hentry.shardFree _) hconns hfresh hopen hfree
    hbroken (hs.working hconns ..) fun _ _ _ hstage => (hs.working hconns ..).inCall hstage,
    hs.served ..⟩

end Served

section Parcel

/-- Frame `i` of a message from `a` to `b`. -/
def parcelTask (data : List UInt8) (i : ℕ) : MessageTask :=
  streamTask .body true false pairChannel "a" "b" data i

/-- A channel of the same worker. -/
def noteChannel : ChannelId := ⟨⟨List.replicate 16 15, rfl⟩⟩

/-- The only frame of a message from `a` to `b` on that channel. -/
def noteTask : MessageTask := streamTask .body true false noteChannel "a" "b" [7] 0

/-- The frames of a message of two frames, with a frame of another channel between them. -/
def parcelBytes (data : List UInt8) : List UInt8 :=
  (parcelTask data 0).payload ++ (noteTask.payload ++ ((parcelTask data 1).payload ++ []))

/-- The room `pair` when connection 0, which is `a`, has sent the first of them. -/
def parcelFirst (data : List UInt8) : Room pair :=
  (listening (parcelBytes data)).sent 0 (noteTask.payload ++ ((parcelTask data 1).payload ++ []))
    0 (parcelTask data 0)

/-- It has sent the first two. -/
def parcelSecond (data : List UInt8) : Room pair :=
  (parcelFirst data).sent 0 ((parcelTask data 1).payload ++ []) 0 noteTask

/-- It has sent all three. -/
def parcelSent (data : List UInt8) : Room pair :=
  (parcelSecond data).sent 0 [] 0 (parcelTask data 1)

/-- Connection 1, which is `b`, has registered too. -/
def parcelWaiting (data : List UInt8) : Room pair :=
  { parcelSent data with
    adding := Function.update (parcelSent data).adding 1 .returned
    listener := Function.update (parcelSent data).listener 1 .header
    tasks := (parcelSent data).tasks ++ [.listener 1]
    conns := Function.update (parcelSent data).conns "b" (some 1) }

/-- The worker has forwarded the frames. -/
def parcelForwarded (data : List UInt8) : Room pair :=
  (((parcelWaiting data).served 0 [⟨0, noteTask⟩, ⟨0, parcelTask data 1⟩] 1
      (.forward ⟨0, parcelTask data 0⟩) 0 (parcelTask data 0).payload (.forwarded 1 0)).served 0
      [⟨0, parcelTask data 1⟩] 1 (.forward ⟨0, noteTask⟩) 1 noteTask.payload
      (.forwarded 1 1)).served 0 [] 1 (.forward ⟨0, parcelTask data 1⟩) 2
      (parcelTask data 1).payload (.forwarded 1 2)

variable {data : List UInt8}

lemma reach_parcelWaiting (henc : Encodable "a" "b" data) (hcount : frameCount "a" "b" data = 2) :
    (lts pair).ReachBy (fun s _ => Served "b" 1 s) (parcelWaiting data) := by
  have hassign : pairChannel.assignTargetFast pair.workerNumber = .ok 0 := by decide
  have hnote : noteChannel.assignTargetFast pair.workerNumber = .ok 0 := by decide
  have hworker : (listening []).worker 0 ≠ .ended := by simp [listening, opened, pair]
  have hstart : Quiet (listening (parcelBytes data)) := quiet_listening _
  have hfirst : Quiet (parcelFirst data) := hstart.sent ..
  have hsecond : Quiet (parcelSecond data) := hfirst.sent ..
  have hquiet : Quiet (parcelSent data) := hsecond.sent ..
  have h : (lts pair).ReachBy (fun s _ => Served "b" 1 s) (parcelFirst data) :=
    reach_streamFrame (reach_listening (fun _ hs => .of_quiet hs) _)
      (fun _ ha => .of_quiet (hstart.alike ha)) rfl rfl henc (by omega) (by decide) hassign hworker
      (Nat.zero_lt_succ 1023)
  have h : (lts pair).ReachBy (fun s _ => Served "b" 1 s) (parcelSecond data) :=
    reach_streamFrame h (fun _ ha => .of_quiet (hfirst.alike ha)) rfl rfl
      (by constructor <;> decide) (by decide) (by decide) hnote hworker
      (Nat.succ_lt_succ (Nat.zero_lt_succ 1022))
  have h : (lts pair).ReachBy (fun s _ => Served "b" 1 s) (parcelSent data) :=
    reach_streamFrame h (fun _ ha => .of_quiet (hsecond.alike ha)) rfl rfl henc (by omega)
      (by decide) hassign hworker (Nat.succ_lt_succ (Nat.succ_lt_succ (Nat.zero_lt_succ 1021)))
  have hfree : Entryless (parcelSent data).listener :=
    (((entryless_absent.update 0 .header (by simp)).update 0 .header (by simp)).update 0 .header
      (by simp)).update 0 .header (by simp)
  have h := reach_spawned (c := 1) h (fun _ ha => .of_quiet (hquiet.alike ha)) rfl rfl rfl
  have hfree := hfree.update 1 .spawned (by simp)
  have h := reach_registered (c := 1) h
    (fun _ ha => .of_quiet ⟨ha.cancelToken, ha.worker ▸ hquiet.idle, ha.link ▸ hquiet.calls⟩) rfl
    rfl (hfree.shardFree 0) rfl
  rw [Function.update_idem] at h
  exact h

lemma entryless_parcelWaiting (data : List UInt8) : Entryless (parcelWaiting data).listener :=
  ((((entryless_absent.update 0 .header (by simp)).update 0 .header (by simp)).update 0 .header
    (by simp)).update 0 .header (by simp)).update 1 .header (by simp)

/-- The frames are forwarded in rooms in which every lookup of `b` finds connection 1. -/
lemma reach_parcelForwarded (henc : Encodable "a" "b" data)
    (hcount : frameCount "a" "b" data = 2) :
    (lts pair).ReachBy (fun s _ => Served "b" 1 s) (parcelForwarded data) ∧
      Served "b" 1 (parcelForwarded data) := by
  have h := reach_parcelWaiting henc hcount
  have hquiet : Quiet (parcelSent data) :=
    (((quiet_listening (parcelBytes data)).sent ..).sent ..).sent ..
  have hs : Served "b" 1 (parcelWaiting data) :=
    .of_quiet ⟨hquiet.running, hquiet.idle, hquiet.calls⟩
  have hfree := entryless_parcelWaiting data
  -- every call on connection 1 has a number of its own
  obtain ⟨h, hs⟩ := hs.reach_forwarded (w := 0) (n := 0) h rfl rfl hfree rfl rfl
    (hquiet.calls 1 _) rfl rfl rfl
  obtain ⟨h, hs⟩ := hs.reach_forwarded (w := 0) (n := 1) h rfl rfl hfree rfl rfl
    ((calls_served_of_ne (by simp)).trans (hquiet.calls 1 _)) rfl rfl rfl
  exact hs.reach_forwarded (w := 0) (n := 2) h rfl rfl hfree rfl rfl
    ((calls_served_of_ne (by simp)).trans ((calls_served_of_ne (by simp)).trans
      (hquiet.calls 1 _))) rfl rfl rfl

/-- Connection `a` sends a message of two frames to `b`, and a frame of another channel between
them. -/
theorem channel_order_pair : ∃ s : Room pair,
    s.log.items.accepted =
      [⟨0, parcelTask longData 0⟩, ⟨0, noteTask⟩, ⟨0, parcelTask longData 1⟩] ∧
    (s.written.map Prod.snd).filter (onChannel 0 "b" pairChannel) =
      [⟨0, parcelTask longData 0⟩, ⟨0, parcelTask longData 1⟩] := by
  obtain ⟨h, hs⟩ := reach_parcelForwarded encodable_longData frameCount_longData
  have haccepted : (parcelForwarded longData).log.items.accepted =
      [⟨0, parcelTask longData 0⟩, ⟨0, noteTask⟩, ⟨0, parcelTask longData 1⟩] := by
    simp [parcelForwarded, served, parcelWaiting, parcelSent, parcelSecond, parcelFirst, sent,
      listening, opened, Lanes.empty]
  have hon (i : ℕ) : onChannel 0 "b" pairChannel ⟨0, parcelTask longData i⟩ = true :=
    decide_eq_true ⟨rfl, rfl, getChannelId_messageFrame ..⟩
  have hnote : onChannel 0 "b" pairChannel ⟨0, noteTask⟩ = false := by
    have hchannel : getChannelId noteTask.payload = .ok noteChannel := getChannelId_messageFrame ..
    refine decide_eq_false fun hon => ?_
    have heq : noteChannel = pairChannel := Outcome.ok.inj (hchannel.symm.trans hon.2.2)
    exact absurd heq (by decide)
  have hworker (w : ℕ) : (parcelForwarded longData).queue w = [] ∧
      ((parcelForwarded longData).worker w).inflight = [] := by
    refine ⟨?_, ?_⟩
    · simp [parcelForwarded, served, parcelWaiting, parcelSent, parcelSecond, parcelFirst, sent,
        listening, opened]
    · have hidle : ((parcelWaiting longData).worker w).inflight = [] := quiet_opened.idle w
      by_cases hw : w = 0
      · subst hw
        rfl
      · simpa [parcelForwarded, served, hw] using hidle
  refine ⟨_, haccepted, ?_⟩
  rw [(channel_order pair 0 "b" pairChannel).2 1 _ h hs hworker, haccepted]
  simp [hon, hnote]

end Parcel

end Room

end Fernq
