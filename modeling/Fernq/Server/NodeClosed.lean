import Mathlib.Tactic
import Fernq.Server.Node

/-!
What is left of a node once `ServerNode::close` has returned (`fernqd/src/server/node.rs`).

* `Covered`: every task that runs is in the `worker_set`.
* `Visited`: the rooms that `close` has still to visit, and that the others are closed.
* `Down`: the node is cancelled and empty, and no task runs; `down_of_reach`, `Down.step`.
* `closed_node_stays_closed`: from then on nothing happens but arrivals at the socket.
-/

namespace Fernq

namespace ServerNode

variable {R C : Type} [DecidableEq R] [DecidableEq C] {s s' : ServerNode R C} {l : Label} {c : C}
  {rooms : List R}

/-! ### The tasks -/

/-- The task of the connection has been spawned and has not finished. -/
def ConnStage.running : ConnStage R → Bool
  | .absent | .queued | .done => false
  | _ => true

/-- Every task that runs is in the `worker_set`. -/
structure Covered (s : ServerNode R C) : Prop where
  listen : s.listen ≠ .done → .listen ∈ s.tasks
  conn : ∀ c, (s.conns c).running = true → .conn c ∈ s.tasks

omit [DecidableEq C] in
lemma Covered.stepClose (h : Covered s) (hs : StepClose s l s') : Covered s' := by
  cases hs with
  | join t before after _ htasks hfin =>
      -- what is joined does not run
      have hother : ∀ t' ∈ s.tasks, t' ≠ t → t' ∈ before ++ after := by
        intro t' hmem hne
        rw [htasks] at hmem
        simpa [hne] using hmem
      refine ⟨fun hl => hother _ (h.listen hl) ?_, fun c hc => hother _ (h.conn c hc) ?_⟩
      · rintro rfl
        exact hl hfin
      · rintro rfl
        have hdone : s.conns c = .done := hfin
        have hrun : (s.conns c).running = true := hc
        rw [hdone] at hrun
        cases hrun
  | _ => exact ⟨h.listen, h.conn⟩

omit [DecidableEq R] in
lemma Covered.stepListen (h : Covered s) (hs : StepListen s l s') : Covered s' := by
  cases hs with
  | spawn c hc =>
      refine ⟨fun _ => List.mem_append_left _ (h.listen (by simp [hc])), fun d hd => ?_⟩
      by_cases hdc : d = c
      · subst hdc
        exact List.mem_append_right _ (List.mem_singleton_self _)
      · exact List.mem_append_left _ (h.conn d (by simpa [hdc] using hd))
  | _ => exact ⟨fun _ => h.listen (by simp [*]), h.conn⟩

lemma Covered.stepConn (h : Covered s) (hs : StepConn s c s') : Covered s' := by
  -- the task ran before its step
  have hold : (s.conns c).running = true := by
    cases hs <;> simp [*, ConnStage.running]
  have hsame : s'.listen = s.listen ∧ s'.tasks = s.tasks ∧ ∀ d, d ≠ c → s'.conns d = s.conns d := by
    cases hs <;> exact ⟨rfl, rfl, fun d hd => by simp [hd]⟩
  obtain ⟨hlisten, htasks, hconns⟩ := hsame
  refine ⟨fun hl => htasks ▸ h.listen (hlisten ▸ hl), fun d hd => ?_⟩
  rw [htasks]
  by_cases hdc : d = c
  · exact hdc ▸ h.conn c hold
  · exact h.conn d (hconns d hdc ▸ hd)

lemma covered_of_reach (h : (lts R C).Reach s) : Covered s := by
  refine h.invariant ?_ ?_
  · rintro s ⟨rooms, rfl⟩
    exact ⟨fun _ => List.mem_singleton_self _, nofun⟩
  · intro s l s' _ hi hs
    cases hs with
    | close hs => exact hi.stepClose hs
    | listen hs => exact hi.stepListen hs
    | conn hs => exact hi.stepConn hs
    | call _ => exact ⟨hi.listen, hi.conn⟩
    | arrival c hc =>
        refine ⟨hi.listen, fun d hd => hi.conn d ?_⟩
        by_cases hdc : d = c
        · simp [hdc, ConnStage.running] at hd
        · simpa [hdc] using hd
    | arrivalErr k => exact ⟨hi.listen, hi.conn⟩

/-! ### The rooms -/

/-- The rooms that `close` has not flagged yet, while it visits them. -/
def CloseStage.unvisited : CloseStage R → List R
  | .iterating todo | .roomWaiting _ todo | .roomJoining _ todo => todo
  | .closingRoom r todo => r :: todo
  | _ => []

/-- `close` visits all rooms of the node, and then the map is cleared. -/
structure Visited (rooms : List R) (s : ServerNode R C) : Prop where
  before : s.close = .idle ∨ s.close = .cancelling → s.rooms = rooms
  closed : s.close ≠ .idle → s.close ≠ .cancelling →
    ∀ r ∈ rooms, r ∈ s.close.unvisited ∨ s.roomClosed r = true
  cleared : s.close = .waiting ∨ s.close = .joining ∨ s.close = .returned → s.rooms = []

omit [DecidableEq R] [DecidableEq C] in
/-- `close` goes on, with the rooms it has to visit and the flags of the others as they were. -/
lemma Visited.go_on (h : Visited rooms s) (hs : s.close ≠ .idle ∧ s.close ≠ .cancelling)
    (hs' : s'.close ≠ .idle ∧ s'.close ≠ .cancelling)
    (hsub : s.close.unvisited ⊆ s'.close.unvisited) (hclosed : s'.roomClosed = s.roomClosed)
    (hcleared : s'.close = .waiting ∨ s'.close = .joining ∨ s'.close = .returned →
      s'.rooms = []) : Visited rooms s' := by
  refine ⟨fun hc => ?_, fun _ _ r hr => ?_, hcleared⟩
  · exact absurd hc (by simp [hs'])
  · rw [hclosed]
    exact (h.closed hs.1 hs.2 r hr).imp_left fun hmem => hsub hmem

omit [DecidableEq C] in
lemma Visited.stepClose (h : Visited rooms s) (hs : StepClose s l s') : Visited rooms s' := by
  cases hs with
  | cancel hc =>
      refine ⟨by simp, fun _ _ r hr => .inl ?_, by simp⟩
      rw [← h.before (.inr hc)] at hr
      exact hr
  | flagRoom r todo hc =>
      refine ⟨by simp, fun _ _ r' hr' => ?_, by simp⟩
      by_cases heq : r' = r
      · exact .inr (by simp [heq])
      · have hold := h.closed (by simp [hc]) (by simp [hc]) r' hr'
        simpa [hc, CloseStage.unvisited, heq] using hold
  | clear hc _ =>
      exact h.go_on (by simp [hc]) (by simp) (by simp [hc, CloseStage.unvisited]) rfl fun _ => rfl
  | lock hc _ =>
      exact h.go_on (by simp [hc]) (by simp) (by simp [hc, CloseStage.unvisited]) rfl
        fun _ => h.cleared (.inl hc)
  | ret hc _ =>
      exact h.go_on (by simp [hc]) (by simp) (by simp [hc, CloseStage.unvisited]) rfl
        fun _ => h.cleared (.inr (.inl hc))
  | join t before after hc _ _ => exact ⟨h.before, h.closed, h.cleared⟩
  | nextRoom r todo hc =>
      exact h.go_on (by simp [hc]) (by simp) (by simp [hc, CloseStage.unvisited]) rfl (by simp)
  | lastRoom hc =>
      exact h.go_on (by simp [hc]) (by simp) (by simp [hc, CloseStage.unvisited]) rfl (by simp)
  | lockRoom r todo hc _ =>
      exact h.go_on (by simp [hc]) (by simp) (by simp [hc, CloseStage.unvisited]) rfl (by simp)
  | joinRoom r todo hc =>
      exact h.go_on (by simp [hc]) (by simp) (by simp [hc, CloseStage.unvisited]) rfl (by simp)

/-- A run from the start reaches what it reaches. -/
lemma reach_of_leads (h : (lts R C).Leads (started rooms) s) : (lts R C).Reach s :=
  Lts.Reach.leads (Lts.Reach.init ⟨rooms, rfl⟩) h

/-- In a run from the start with `rooms`. -/
lemma visited_of_leads (h : (lts R C).Leads (started rooms) s) : Visited rooms s := by
  refine h.stable ?_ (reach_of_leads (.refl _))
    ⟨fun _ => rfl, by simp [started], by simp [started]⟩
  intro s l s' _ hi hs
  obtain ⟨hbefore, hclosed, hcleared⟩ := id hi
  cases hs with
  | close hs => exact hi.stepClose hs
  | listen hs => cases hs <;> exact ⟨hbefore, hclosed, hcleared⟩
  | conn hs => cases hs <;> exact ⟨hbefore, hclosed, hcleared⟩
  | call hc => exact ⟨fun _ => hbefore (.inl hc), by simp, by simp⟩
  | arrival c hc => exact ⟨hbefore, hclosed, hcleared⟩
  | arrivalErr k => exact ⟨hbefore, hclosed, hcleared⟩

/-! ### After the return of `close` -/

/-- The node is cancelled and empty, and none of its tasks runs. -/
structure Down (rooms : List R) (s : ServerNode R C) : Prop where
  returned : s.close = .returned
  token : s.cancelToken = true
  empty : s.rooms = []
  tasks : s.tasks = []
  listen : s.listen = .done
  conns : ∀ c, s.conns c = .absent ∨ s.conns c = .queued ∨ s.conns c = .done
  closed : ∀ r ∈ rooms, s.roomClosed r = true

/-- Once the set is empty, no task runs. -/
lemma Down.of_ret (hr : (lts R C).Reach s) (hv : Visited rooms s) (hc : s.close = .joining)
    (htasks : s.tasks = []) : Down rooms { s with workerSet := none, close := .returned } := by
  have hcovered := covered_of_reach hr
  refine ⟨rfl, (inv_of_reach hr).token (by simp [hc]) (by simp [hc]),
    hv.cleared (.inr (.inl hc)), htasks, ?_, fun c => ?_, fun r hr => ?_⟩
  · by_contra hl
    have hmem := hcovered.listen hl
    rw [htasks] at hmem
    cases hmem
  · have hidle : (s.conns c).running = false := by
      rw [← Bool.not_eq_true]
      intro hrun
      have hmem := hcovered.conn c hrun
      rw [htasks] at hmem
      cases hmem
    cases hstage : s.conns c with
    | absent => exact .inl rfl
    | queued => exact .inr (.inl rfl)
    | done => exact .inr (.inr rfl)
    | _ => rw [hstage] at hidle; cases hidle
  · simpa [hc, CloseStage.unvisited] using hv.closed (by simp [hc]) (by simp [hc]) r hr

/-- Nothing of the node moves any more. -/
lemma Down.arrival_of_step (h : Down rooms s) (hs : Step s l s') : l = .arrival := by
  cases hs with
  | close hs => cases hs <;> simp_all [h.returned]
  | listen hs => cases hs <;> simp_all [h.listen]
  | @conn _ c hs =>
      have hstage := h.conns c
      cases hs <;> simp_all
  | call hc => rw [h.returned] at hc; cases hc
  | arrival c hc => rfl
  | arrivalErr k => rfl

lemma Down.step (h : Down rooms s) (hs : Step s l s') : Down rooms s' := by
  obtain rfl := h.arrival_of_step hs
  cases hs with
  | close hs => cases hs
  | listen hs => cases hs
  | arrival c hc =>
      refine ⟨h.returned, h.token, h.empty, h.tasks, h.listen, fun d => ?_, h.closed⟩
      by_cases hdc : d = c
      · simp [hdc]
      · simpa [hdc] using h.conns d
  | arrivalErr k =>
      exact ⟨h.returned, h.token, h.empty, h.tasks, h.listen, h.conns, h.closed⟩

/-- In a run from the start with `rooms`, a node whose `close` has returned is down. -/
lemma down_of_leads (h : (lts R C).Leads (started rooms) s) (hc : s.close = .returned) :
    Down rooms s := by
  induction h with
  | refl => cases hc
  | @tail s₁ s₂ hl hs ih =>
      obtain ⟨l, hs⟩ := hs
      have hr := reach_of_leads hl
      by_cases hold : s₁.close = .returned
      · exact (ih hold).step hs
      cases hs with
      | close hs =>
          cases hs with
          | ret hj htasks => exact .of_ret hr (visited_of_leads hl) hj htasks
          | join t before after hj _ _ => rw [hj] at hc; cases hc
          | _ => cases hc
      | listen hs => cases hs <;> exact absurd hc hold
      | conn hs => cases hs <;> exact absurd hc hold
      | call _ => cases hc
      | arrival c _ => exact absurd hc hold
      | arrivalErr k => exact absurd hc hold

/-- **A closed node stays closed.**  Once `close` has returned in a run from the start with any
rooms, then at that moment and ever after the token is cancelled, the map of rooms is empty, every
room has been flagged as closed, the accept loop and every connection task that was spawned have
ended, and the only steps left are arrivals at the socket: no connection is accepted or spawned. -/
theorem closed_node_stays_closed (h : (lts R C).Leads (started rooms) s)
    (hc : s.close = .returned) (hl : (lts R C).Leads s s') :
    s'.cancelToken = true ∧ s'.rooms = [] ∧ (∀ r ∈ rooms, s'.roomClosed r = true) ∧
      s'.listen = .done ∧
      (∀ c, s'.conns c = .absent ∨ s'.conns c = .queued ∨ s'.conns c = .done) ∧
      ∀ l s'', Step s' l s'' → l = .arrival := by
  have hdown : Down rooms s' := hl.stable (fun _ _ _ _ hd hs => hd.step hs)
    (reach_of_leads h) (down_of_leads h hc)
  exact ⟨hdown.token, hdown.empty, hdown.closed, hdown.listen, hdown.conns,
    fun l s'' hs => hdown.arrival_of_step hs⟩

/-- The node has been started with one room, in which it has put a connection, and it is closed. -/
lemma exists_closed_served : ∃ s : ServerNode ℕ ℕ, (lts ℕ ℕ).Leads (started [7]) s ∧
    s.close = .returned ∧ s.conns 0 = .done ∧ s.conns 1 = .absent ∧ s.backlog = [] := by
  have h : (lts ℕ ℕ).Leads (started [7]) (started [7]) := .refl _
  have h := h.tail (.listen (.bindOk rfl))
  have h := h.tail (.listen (.store rfl))
  have h := h.tail (.listen (.storeAddr rfl))
  dsimp only at h
  -- a connection is accepted and put in the room
  have h := h.tail (.arrival 0 rfl)
  have h := h.tail (.listen (.accept 0 [] rfl rfl))
  have h := h.tail (.listen (.lock 0 rfl rfl))
  have h := h.tail (.listen (.spawn 0 rfl))
  simp only [setConn, Function.update_idem] at h
  have h := h.tail (.conn (c := 0) (.verified 7 rfl))
  have h := h.tail (.conn (c := 0) (.found 7 rfl List.mem_cons_self))
  have h := h.tail (.conn (c := 0) (.openFirst 7 rfl rfl))
  simp only [setConn, Function.update_idem] at h
  have h := h.tail (.conn (c := 0) (.lock 7 rfl rfl))
  have h := h.tail (.conn (c := 0) (.spawn 7 rfl rfl))
  simp only [setConn, setRoomSet, Function.update_idem] at h
  -- the node is closed
  have h := h.tail (.call rfl)
  have h := h.tail (.close (.cancel rfl))
  have h := h.tail (.close (.nextRoom 7 [] rfl))
  have h := h.tail (.close (.flagRoom 7 [] rfl))
  dsimp only at h
  have h := h.tail (.close (.lockRoom 7 [] rfl rfl))
  have h := h.tail (.close (.joinRoom 7 [] rfl))
  have h := h.tail (.close (.lastRoom rfl))
  simp only [setRoomSet, Function.update_idem] at h
  have h := h.tail (.close (.clear rfl fun c => by
    rcases eq_or_ne c 0 with rfl | hc
    · rfl
    · simp [hc, started, ConnStage.guards]))
  have h := h.tail (.listen (.cancelled rfl rfl))
  have h := h.tail (.listen (.readAddr rfl))
  have h := h.tail (.listen (.cleanup rfl))
  dsimp only at h
  have h := h.tail (.close (.lock rfl rfl))
  have h := h.tail (.close (.join .listen [] [.conn 0] rfl rfl rfl))
  have h := h.tail (.close (.join (.conn 0) [] [] rfl rfl rfl))
  have h := h.tail (.close (.ret rfl rfl))
  dsimp only at h
  exact ⟨_, h, rfl, rfl, rfl, rfl⟩

/-- A node that has put a connection in its room and is closed, and another connection arrives after
that. -/
theorem closed_node_stays_closed_served : ∃ s s' : ServerNode ℕ ℕ,
    s.close = .returned ∧ s.conns 0 = .done ∧ (lts ℕ ℕ).Leads s s' ∧ s'.conns 1 = .queued ∧
      s'.backlog = [.ok 1] ∧ s'.cancelToken = true ∧ s'.rooms = [] ∧
      (∀ r ∈ [7], s'.roomClosed r = true) ∧ s'.listen = .done ∧
      (∀ c, s'.conns c = .absent ∨ s'.conns c = .queued ∨ s'.conns c = .done) ∧
      ∀ l s'', Step s' l s'' → l = .arrival := by
  obtain ⟨s, h, hclose, hdone, habsent, hbacklog⟩ := exists_closed_served
  have hl : (lts ℕ ℕ).Leads s { s.setConn 1 .queued with backlog := s.backlog ++ [.ok 1] } :=
    (Lts.Leads.refl s).tail (.arrival 1 habsent)
  exact ⟨s, _, hclose, hdone, hl, by simp [setConn], by simp [hbacklog],
    closed_node_stays_closed h hclose hl⟩

end ServerNode

end Fernq
