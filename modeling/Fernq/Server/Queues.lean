import Mathlib.Tactic
import Fernq.Server.Calls

/-!
The way of a frame from the socket to the worker of its channel.

* `Queued`: every queue is the lane of its worker, without the item the worker is busy with;
  `queued_of_reach`.
* `Concludes`: how a worker comes to finish an item; `itemsChange_of_step`: an item is sent by a
  listener or finished by a worker.
* `ReadFrames`: the bytes a listener has read, cut into frames; `readFrames_of_reach`: what it
  has sent to the workers are some of these frames, in this order.
-/

namespace Fernq

namespace Room

open TcpConn

variable {C : Type} [DecidableEq C] {cfg : RoomConfig C} {s s' : Room cfg} {l : Label C} {c : C}

/-! ### The queues -/

/-- What a listener reads and sends comes from a frame, the lane of a worker that runs is the item
it is busy with and its queue, and workers end when the room is cancelled. -/
structure Queued (s : Room cfg) : Prop where
  reading : ∀ c head t f len, s.listener c = .payload head t f len →
    head.length = fixedHeaderLen ∧ listenHeader head = .read t f len
  sending : ∀ c w task, s.listener c = .sending w task → task.FromFrame cfg.workerNumber w
  accepted : ∀ item ∈ s.log.items.accepted, ∃ w, item.task.FromFrame cfg.workerNumber w
  lane : ∀ w, s.worker w ≠ .ended →
    s.log.items.lane (some w) = (s.worker w).inflight ++ s.queue w
  ended : ∀ w, w < cfg.workerNumber → s.worker w = .ended → s.cancelToken = true

omit [DecidableEq C] in
lemma route_of_fromFrame {w : ℕ} {item : Item C} (h : item.task.FromFrame cfg.workerNumber w) :
    cfg.route item = some w := by
  obtain ⟨id, hid, hw⟩ := h.worker
  rw [RoomConfig.route, hid]
  simp only [hw]

/-- The fixed header a listener has read is one it accepts. -/
lemma reading_of_step {head : List UInt8} {t : MessageType} {f : MessageFlags} {len : ℕ}
    (h : Step s l s') (hc : s'.listener c = .payload head t f len) :
    s.listener c = .payload head t f len ∨
      head.length = fixedHeaderLen ∧ listenHeader head = .read t f len := by
  obtain heq | ⟨-, hstep⟩ | ⟨-, -, heq⟩ := listener_of_step h c
  · exact .inl (heq ▸ hc)
  · cases hstep with
    | readHeader head' rest _ _ hlen =>
        simp only [Function.update_self, afterHeader] at hc
        split at hc
        · cases hc
        · cases hc
        · rename_i hread
          cases hc
          exact .inr ⟨hlen, hread⟩
    | readPayload head' t' f' len' body rest _ _ _ =>
        simp only [Function.update_self, afterPayload] at hc
        split at hc <;> cases hc
    | _ => simp_all
  · simp [heq] at hc

/-- What a listener is about to send comes from a frame. -/
lemma sending_of_step {w : ℕ} {task : MessageTask} (hi : Queued s) (h : Step s l s')
    (hc : s'.listener c = .sending w task) :
    s.listener c = .sending w task ∨ task.FromFrame cfg.workerNumber w := by
  obtain heq | ⟨-, hstep⟩ | ⟨-, -, heq⟩ := listener_of_step h c
  · exact .inl (heq ▸ hc)
  · cases hstep with
    | readHeader head rest _ _ _ =>
        simp only [Function.update_self, afterHeader] at hc
        split at hc <;> cases hc
    | readPayload head t f len body rest hstage _ hlen =>
        obtain ⟨hhead, hread⟩ := hi.reading c head t f len hstage
        simp only [Function.update_self, afterPayload] at hc
        split at hc
        · cases hc
        · rename_i hsend
          cases hc
          exact .inr (listenFrame_eq_send hhead (hlen ▸ hread) hsend)
        · cases hc
        · cases hc
    | _ => simp_all
  · simp [heq] at hc

lemma cancelToken_of_step (h : Step s l s') (hc : s.cancelToken = true) :
    s'.cancelToken = true := by
  cases h with
  | listener h => cases h <;> exact hc
  | worker h => cases h <;> exact hc
  | heartbeat h => cases h <;> exact hc
  | add h => cases h <;> exact hc
  | close h => cases h <;> first | exact hc | rfl
  | call _ _ => exact hc
  | arrival _ => exact hc

/-- A worker that ends has seen the token. -/
lemma ended_of_step {w : ℕ} (h : Step s l s') (hw : s'.worker w = .ended) :
    s.worker w = .ended ∨ s.cancelToken = true := by
  obtain heq | ⟨-, hstep⟩ := worker_of_step h w
  · exact .inl (heq ▸ hw)
  · cases hstep with
    | cancelled _ hcancel => exact .inr hcancel
    | _ => simp_all

/-- How worker `w` comes to finish an item. -/
inductive Concludes (s : Room cfg) (w : ℕ) (item : Item C) : Fate C → Prop
  | forwarded (d : C) (n : ℕ) (r : IoResult) : s.worker w = .forwarding item d n →
      s.Returned d (.forward item) n r → Concludes s w item (.forwarded d n)
  | skipped : s.worker w = .lookup item → s.conns item.task.toName = none →
      item.task.closesRequest = false → Concludes s w item .skipped
  | senderMissing : s.worker w = .replyLookup item → s.conns item.task.fromName = none →
      Concludes s w item .unanswered
  | replyErr (e : ProtocolError) : s.worker w = .replyLookup item →
      notFoundReply cfg.toVec item.task = .err e → Concludes s w item .unanswered
  | replied (d : C) (n : ℕ) (r : IoResult) : s.worker w = .replying item d n →
      s.Returned d (.reply item) n r → Concludes s w item (.replied d n)

omit [DecidableEq C] in
lemma Concludes.inflight {w : ℕ} {item : Item C} {fate : Fate C} (h : s.Concludes w item fate) :
    (s.worker w).inflight = [item] := by
  cases h <;> simp_all [WorkerStage.inflight]

/-- A worker that becomes idle finishes the item it was busy with. -/
lemma items_of_workerStep {w : ℕ} (h : WorkerStep s w s') :
    (s'.log.items = s.log.items ∧ s'.worker w ≠ .idle) ∨
      ∃ item fate, s.Concludes w item fate ∧ s'.worker w = .idle ∧
        s'.log.items = s.log.items.finish (some w) fate := by
  cases h with
  | forwarded item d n r hc hret => exact .inr ⟨item, _, .forwarded d n r hc hret, by simp, rfl⟩
  | skip item hc _ hconns hlast => exact .inr ⟨item, _, .skipped hc hconns hlast, by simp, rfl⟩
  | senderMissing item hc _ hconns => exact .inr ⟨item, _, .senderMissing hc hconns, by simp, rfl⟩
  | replyErr item d e hc _ _ herr => exact .inr ⟨item, _, .replyErr e hc herr, by simp, rfl⟩
  | replied item d n r hc hret => exact .inr ⟨item, _, .replied d n r hc hret, by simp, rfl⟩
  | _ => exact .inl ⟨rfl, by simp⟩

/-- What a step does to the items: nothing, a listener sends one, or a worker finishes one. -/
inductive ItemsChange (s s' : Room cfg) : Prop
  | same : s'.log.items = s.log.items → ItemsChange s s'
  | sent (c : C) (w : ℕ) (task : MessageTask) : s.listener c = .sending w task →
      s'.log.items = s.log.items.push ⟨c, task⟩ → ItemsChange s s'
  | finished (w : ℕ) (item : Item C) (fate : Fate C) : s.Concludes w item fate →
      s'.worker w = .idle → s'.log.items = s.log.items.finish (some w) fate → ItemsChange s s'

lemma itemsChange_of_step (h : Step s l s') : ItemsChange s s' := by
  cases h with
  | @listener _ c h =>
      cases h with
      | send w task hc _ _ => exact .sent c w task hc rfl
      | _ => exact .same rfl
  | @worker _ w h =>
      obtain ⟨heq, -⟩ | ⟨item, fate, hend, hidle, heq⟩ := items_of_workerStep h
      · exact .same heq
      · exact .finished w item fate hend hidle heq
  | heartbeat h => cases h <;> exact .same rfl
  | add h => cases h <;> exact .same rfl
  | close h => cases h <;> exact .same rfl
  | call _ _ => exact .same rfl
  | arrival _ => exact .same rfl

/-- An item that was accepted was about to be sent. -/
lemma accepted_of_step {item : Item C} (h : Step s l s') (hmem : item ∈ s'.log.items.accepted) :
    item ∈ s.log.items.accepted ∨ ∃ w, s.listener item.source = .sending w item.task := by
  cases itemsChange_of_step h with
  | same heq => exact .inl (heq ▸ hmem)
  | sent c w task hc heq =>
      obtain hold | rfl : item ∈ s.log.items.accepted ∨ item = ⟨c, task⟩ := by
        simpa [heq] using hmem
      · exact .inl hold
      · exact .inr ⟨w, hc⟩
  | finished w item' fate _ _ heq => exact .inl (by simpa [heq] using hmem)

/-- What has been accepted stays. -/
lemma accepted_mono {item : Item C} (h : Step s l s') (hmem : item ∈ s.log.items.accepted) :
    item ∈ s'.log.items.accepted := by
  cases itemsChange_of_step h with
  | same heq => rwa [heq]
  | sent c w task _ heq => simp [heq, hmem]
  | finished w item' fate _ _ heq => simpa [heq] using hmem

/-- The lane of worker `w`, its queue and its stage: no change, an item sent to it, or a step of the
worker. -/
lemma lane_of_step (hi : Queued s) (h : Step s l s') (w : ℕ) :
    (s'.log.items.lane (some w) = s.log.items.lane (some w) ∧ s'.queue w = s.queue w ∧
      s'.worker w = s.worker w) ∨
    (∃ item, s'.log.items.lane (some w) = s.log.items.lane (some w) ++ [item] ∧
      s'.queue w = s.queue w ++ [item] ∧ s'.worker w = s.worker w) ∨
    l = .worker w ∧ WorkerStep s w s' := by
  cases h with
  | @listener _ c h =>
      cases h with
      | send w' task hc _ _ =>
          have hroute : cfg.route ⟨c, task⟩ = some w' :=
            route_of_fromFrame (hi.sending c w' task hc)
          by_cases hw : w = w'
          · subst hw
            refine .inr (.inl ⟨⟨c, task⟩, ?_, Function.update_self .., rfl⟩)
            rw [Lanes.lane_push, if_pos hroute.symm]
          · refine .inl ⟨?_, Function.update_of_ne hw .., rfl⟩
            rw [Lanes.lane_push, if_neg (by simp [hroute, hw]), List.append_nil]
      | _ => exact .inl ⟨rfl, rfl, rfl⟩
  | @worker _ w' h =>
      by_cases hw : w = w'
      · subst hw
        exact .inr (.inr ⟨rfl, h⟩)
      · refine .inl ?_
        have hlane : ∀ b, (s.log.items.finish (some w') b).lane (some w) =
            s.log.items.lane (some w) := fun b => Lanes.lane_finish_of_ne _ _ (by simp [hw])
        cases h <;> simp [hw, hlane]
  | heartbeat h => cases h <;> exact .inl ⟨rfl, rfl, rfl⟩
  | add h => cases h <;> exact .inl ⟨rfl, rfl, rfl⟩
  | close h => cases h <;> exact .inl ⟨rfl, rfl, rfl⟩
  | call _ _ => exact .inl ⟨rfl, rfl, rfl⟩
  | arrival _ => exact .inl ⟨rfl, rfl, rfl⟩

omit [DecidableEq C] in
/-- A worker is at the front of its lane. -/
lemma lane_eq_cons {w : ℕ} {item : Item C} {stage : WorkerStage C} (hi : Queued s)
    (hw : s.worker w = stage) (hstage : stage.inflight = [item]) :
    s.log.items.lane (some w) = item :: s.queue w := by
  have hne : s.worker w ≠ .ended := fun hend => by
    rw [← hw, hend] at hstage
    cases hstage
  rw [hi.lane w hne, hw, hstage]
  rfl

/-- The lane of a worker after a step of the worker. -/
lemma Queued.workerStep {w : ℕ} (hi : Queued s) (h : WorkerStep s w s')
    (hend : s'.worker w ≠ .ended) :
    s'.log.items.lane (some w) = (s'.worker w).inflight ++ s'.queue w := by
  cases h with
  | cancelled _ _ => simp at hend
  | recv item rest hc hq =>
      have hlane := hi.lane w (by simp [hc])
      simpa [hc, hq, WorkerStage.inflight] using hlane
  | found item d n hc _ _ _ => simpa [WorkerStage.inflight] using lane_eq_cons hi hc rfl
  | notFound item hc _ _ _ => simpa [WorkerStage.inflight] using lane_eq_cons hi hc rfl
  | reply item d n res hc _ _ _ _ => simpa [WorkerStage.inflight] using lane_eq_cons hi hc rfl
  | forwarded item d n r hc _ =>
      simpa [WorkerStage.inflight] using Lanes.lane_finish_self _ _ (lane_eq_cons hi hc rfl)
  | skip item hc _ _ _ =>
      simpa [WorkerStage.inflight] using Lanes.lane_finish_self _ _ (lane_eq_cons hi hc rfl)
  | senderMissing item hc _ _ =>
      simpa [WorkerStage.inflight] using Lanes.lane_finish_self _ _ (lane_eq_cons hi hc rfl)
  | replyErr item d e hc _ _ _ =>
      simpa [WorkerStage.inflight] using Lanes.lane_finish_self _ _ (lane_eq_cons hi hc rfl)
  | replied item d n r hc _ =>
      simpa [WorkerStage.inflight] using Lanes.lane_finish_self _ _ (lane_eq_cons hi hc rfl)

theorem queued_of_reach (h : (lts cfg).Reach s) : Queued s := by
  refine h.invariant ?_ ?_
  · intro s hs
    subst hs
    refine ⟨by simp [opened], by simp [opened], by simp [opened, Lanes.empty], fun w hw => ?_,
      fun w hw hend => by simp [opened, hw] at hend⟩
    obtain heq | heq := worker_opened cfg w
    · rw [heq]
      rfl
    · exact absurd heq hw
  · intro s l s' _ hi hs
    refine ⟨?_, ?_, ?_, ?_, ?_⟩
    · intro c head t f len hc
      obtain hold | hnew := reading_of_step hs hc
      · exact hi.reading c head t f len hold
      · exact hnew
    · intro c w task hc
      obtain hold | hnew := sending_of_step hi hs hc
      · exact hi.sending c w task hold
      · exact hnew
    · intro item hmem
      obtain hold | ⟨w, hc⟩ := accepted_of_step hs hmem
      · exact hi.accepted item hold
      · exact ⟨w, hi.sending _ w _ hc⟩
    · intro w hw
      obtain ⟨hlane, hqueue, hstage⟩ | ⟨item, hlane, hqueue, hstage⟩ | ⟨-, hstep⟩ :=
        lane_of_step hi hs w
      · rw [hstage] at hw
        rw [hlane, hqueue, hstage, hi.lane w hw]
      · rw [hstage] at hw
        rw [hlane, hqueue, hstage, hi.lane w hw, List.append_assoc]
      · exact hi.workerStep hstep hw
    · intro w hlt hw
      obtain hold | hcancel := ended_of_step hs hw
      · exact cancelToken_of_step hs (hi.ended w hlt hold)
      · exact cancelToken_of_step hs hcancel

omit [DecidableEq C] in
/-- The route of the item a worker is busy with. -/
lemma route_of_inflight {w : ℕ} {item : Item C} (hi : Queued s)
    (hw : (s.worker w).inflight = [item]) : cfg.route item = some w :=
  s.log.items.route_of_mem_lane (by rw [lane_eq_cons hi rfl hw]; exact List.mem_cons_self)

omit [DecidableEq C] in
/-- A worker is busy with an item that was accepted. -/
lemma accepted_of_inflight {w : ℕ} {item : Item C} (hi : Queued s)
    (hw : (s.worker w).inflight = [item]) : item ∈ s.log.items.accepted := by
  have hmem : item ∈ s.log.items.accepted.filter (cfg.route · = some w) := by
    rw [s.log.items.fifo, lane_eq_cons hi rfl hw]
    exact List.mem_append_right _ List.mem_cons_self
  exact (List.mem_filter.mp hmem).1

/-- A worker that has not ended has a number below that of the workers. -/
lemma worker_lt (h : (lts cfg).Reach s) (hw : s.worker w ≠ .ended) : w < cfg.workerNumber := by
  by_contra hge
  refine hw (h.invariant (I := fun s => s.worker w = .ended) (fun s hs => ?_)
    fun s l s' _ hi hs => ?_)
  · subst hs
    exact if_neg hge
  · obtain heq | ⟨-, hstep⟩ := worker_of_step hs w
    · exact heq.trans hi
    · cases hstep <;> simp_all

/-! ### The frames a listener reads -/

/-- The fixed header of the frame a listener is reading. -/
def ListenerStage.pending : ListenerStage C → List UInt8
  | .payload head _ _ _ => head
  | _ => []

/-- The frame a listener is sending to a worker. -/
def ListenerStage.outgoing : ListenerStage C → List (List UInt8)
  | .sending _ task => [task.payload]
  | _ => []

/-- The listener has not left its loop. -/
def ListenerStage.looping : ListenerStage C → Bool
  | .removing | .closing _ | .ended _ => false
  | _ => true

/-- The items that have come from `c`. -/
def acceptedFrom (s : Room cfg) (c : C) : List (Item C) :=
  s.log.items.accepted.filter (·.source = c)

/-- The bytes from `c` are `frames` and `rest`: some of the frames were sent to the workers, in
this order, and `rest` is what the listener has not made a frame of. -/
structure ReadFrames (s : Room cfg) (c : C) (frames : List (List UInt8)) (rest : List UInt8) :
    Prop where
  received : s.log.received c = frames.flatten ++ rest
  sent : ((s.acceptedFrom c).map (·.task.payload) ++ (s.listener c).outgoing).Sublist frames
  unread : (s.listener c).looping = true → rest = (s.listener c).pending ++ s.unread c

/-- A fixed header that a listener accepts, and the bytes it announces. -/
def WholeFrame (frame : List UInt8) : Prop :=
  ∃ head body t f, frame = head ++ body ∧ head.length = fixedHeaderLen ∧
    listenHeader head = .read t f body.length

/-- A frame that `c` can send to keep its listener reading. -/
def PassedFrame (frame : List UInt8) : Prop :=
  ∃ head body t, frame = head ++ body ∧ Passes head body t

lemma PassedFrame.whole {frame : List UInt8} (h : PassedFrame frame) : WholeFrame frame := by
  obtain ⟨head, body, t, hcut, hpass⟩ := h
  obtain ⟨f, hdec⟩ := hpass.decoded
  exact ⟨head, body, t, f, hcut, hpass.length, listenHeader_eq_read_iff.mpr ⟨hdec, hpass.body_le⟩⟩

variable {frames : List (List UInt8)} {rest : List UInt8}

lemma ReadFrames.congr (h : ReadFrames s c frames rest)
    (hreceived : s'.log.received c = s.log.received c)
    (haccepted : s'.acceptedFrom c = s.acceptedFrom c) (hstage : s'.listener c = s.listener c)
    (hunread : s'.unread c = s.unread c) : ReadFrames s' c frames rest :=
  ⟨hreceived ▸ h.received, by rw [haccepted, hstage]; exact h.sent,
    by rw [hstage, hunread]; exact h.unread⟩

/-- A listener that leaves its loop, or goes on without a frame. -/
lemma ReadFrames.stage (h : ReadFrames s c frames rest) {stage : ListenerStage C}
    (hreceived : s'.log.received c = s.log.received c)
    (haccepted : s'.acceptedFrom c = s.acceptedFrom c) (hstage : s'.listener c = stage)
    (hout : stage.outgoing = [])
    (hunread : stage.looping = true →
      (s.listener c).looping = true ∧
        stage.pending ++ s'.unread c = (s.listener c).pending ++ s.unread c) :
    ReadFrames s' c frames rest := by
  refine ⟨hreceived ▸ h.received, ?_, ?_⟩
  · rw [haccepted, hstage, hout, List.append_nil]
    exact (List.sublist_append_left _ _).trans h.sent
  · intro hloop
    rw [hstage] at hloop ⊢
    obtain ⟨hold, heq⟩ := hunread hloop
    rw [heq]
    exact h.unread hold

omit [DecidableEq C] in
/-- A frame that a listener has read is what it sends, if it sends something, and if it goes on at
all. -/
lemma outgoing_afterPayload (n : ℕ) (t : MessageType) (f : MessageFlags)
    (head body : List UInt8) :
    (afterPayload n t f head body : ListenerStage C).outgoing.Sublist [head ++ body] ∧
      (afterPayload n t f head body : ListenerStage C).pending = [] ∧
      (afterPayload n t f head body : ListenerStage C).looping
        = (listenFrame n t f head body).goesOn ∧
      ((listenFrame n t f head body).goesOn = false →
        (afterPayload n t f head body : ListenerStage C).outgoing = []) := by
  rw [afterPayload]
  cases haction : listenFrame n t f head body with
  | reset => exact ⟨List.nil_sublist _, rfl, rfl, fun _ => rfl⟩
  | send w task =>
      refine ⟨?_, rfl, rfl, fun hgoes => by cases hgoes⟩
      rw [← payload_of_listenFrame haction]
      exact List.Sublist.refl _
  | leave => exact ⟨List.nil_sublist _, rfl, rfl, fun _ => rfl⟩
  | aborted => exact ⟨List.nil_sublist _, rfl, rfl, fun _ => rfl⟩

omit [DecidableEq C] in
/-- After a fixed header the listener waits for the rest of the frame, if it goes on. -/
lemma pending_afterHeader (head : List UInt8) :
    (afterHeader head : ListenerStage C).outgoing = [] ∧
      ((afterHeader head : ListenerStage C).looping = true →
        (afterHeader head : ListenerStage C).pending = head) := by
  rw [afterHeader]
  split
  · exact ⟨rfl, nofun⟩
  · exact ⟨rfl, nofun⟩
  · exact ⟨rfl, fun _ => rfl⟩

/-- What a step of the listener makes of the frames it has read. -/
lemma readFrames_of_listenerStep (hi : Queued s) (h : ReadFrames s c frames rest)
    (hpassed : ∀ frame ∈ frames, PassedFrame frame) (hs : ListenerStep s c s') :
    ∃ frames' rest', ReadFrames s' c frames' rest' ∧ ∀ frame ∈ frames', PassedFrame frame := by
  cases hs with
  | readHeader head rest' hc hunread hlen =>
      obtain ⟨hout, hpending⟩ := pending_afterHeader (C := C) head
      refine ⟨frames, rest, h.stage rfl rfl (Function.update_self ..) hout ?_, hpassed⟩
      intro hloop
      rw [hpending hloop]
      simp [hc, hunread, ListenerStage.looping, ListenerStage.pending]
  | readPayload head t f len body rest' hc hunread hlen =>
      obtain ⟨hout, hpending, hloops, hleaves⟩ :=
        outgoing_afterPayload (C := C) cfg.workerNumber t f head body
      obtain ⟨hhead, hread⟩ := hi.reading c head t f len hc
      by_cases hgoes : (listenFrame cfg.workerNumber t f head body).goesOn = true
      · have hrest : rest = head ++ (body ++ rest') := by
          rw [← hunread]
          simpa [hc, ListenerStage.looping, ListenerStage.pending] using h.unread
        have hnew : PassedFrame (head ++ body) :=
          ⟨head, body, t, rfl, passes_of_goesOn hhead (hlen ▸ hread) hgoes⟩
        refine ⟨frames ++ [head ++ body], rest', ⟨?_, ?_, ?_⟩, ?_⟩
        · simp [h.received, hrest]
        · simp only [Function.update_self]
          exact ((List.sublist_append_left _ _).trans h.sent).append hout
        · intro _
          simp [hpending]
        · simpa [or_imp, forall_and] using ⟨hpassed, hnew⟩
      · -- the listener leaves its loop, and the frame stays in what it has not handled
        rw [Bool.not_eq_true] at hgoes
        refine ⟨frames, rest, h.stage rfl rfl (Function.update_self ..) (hleaves hgoes) ?_, hpassed⟩
        intro hloop
        rw [hloops, hgoes] at hloop
        cases hloop
  | send w task hc _ _ =>
      refine ⟨frames, rest, ⟨h.received, ?_, ?_⟩, hpassed⟩
      · simpa [acceptedFrom, hc, ListenerStage.outgoing] using h.sent
      · intro _
        simpa [hc, ListenerStage.looping, ListenerStage.pending] using h.unread
  | _ =>
      refine ⟨frames, rest, h.stage rfl rfl (Function.update_self ..) rfl ?_, hpassed⟩
      simp_all [ListenerStage.looping, ListenerStage.pending]

/-- What a listener has sent to the workers are frames it has read one after another, and after
which it has read on. -/
theorem passedFrames_of_reach (h : (lts cfg).Reach s) (c : C) :
    ∃ frames rest, ReadFrames s c frames rest ∧ ∀ frame ∈ frames, PassedFrame frame := by
  refine h.invariant (I := fun s => ∃ frames rest, ReadFrames s c frames rest ∧
    ∀ frame ∈ frames, PassedFrame frame) (fun s hs => ?_) fun s l s' hr hi hs => ?_
  · subst hs
    exact ⟨[], [], ⟨rfl, List.nil_sublist _, fun _ => rfl⟩, by simp⟩
  · obtain ⟨frames, rest, hi, hpassed⟩ := hi
    have hother : s'.log.received c = s.log.received c → s'.acceptedFrom c = s.acceptedFrom c →
        s'.listener c = s.listener c → s'.unread c = s.unread c →
        ∃ frames' rest', ReadFrames s' c frames' rest' ∧ ∀ frame ∈ frames', PassedFrame frame :=
      fun h1 h2 h3 h4 => ⟨frames, rest, hi.congr h1 h2 h3 h4, hpassed⟩
    cases hs with
    | @listener _ d h =>
        by_cases hd : c = d
        · subst hd
          exact readFrames_of_listenerStep (queued_of_reach hr) hi hpassed h
        · have hsent : s'.acceptedFrom c = s.acceptedFrom c := by
            cases h <;> simp [acceptedFrom, Ne.symm hd]
          cases h <;> exact hother rfl hsent (by simp [hd]) (by simp [hd])
    | worker h => cases h <;> exact hother rfl (by simp [acceptedFrom]) rfl rfl
    | heartbeat h => cases h <;> exact hother rfl rfl rfl rfl
    | @add _ d h =>
        cases h with
        | spawn hadd =>
            by_cases hd : c = d
            · subst hd
              have habsent : s.listener c = .absent := by
                by_contra hne
                simp [adding_of_listener hr hne] at hadd
              refine ⟨frames, rest, hi.stage rfl rfl (Function.update_self ..) rfl ?_, hpassed⟩
              intro _
              simp [habsent, ListenerStage.looping, ListenerStage.pending]
            · exact hother rfl rfl (Function.update_of_ne hd ..) rfl
        | _ => exact hother rfl rfl rfl rfl
    | close h => cases h <;> exact hother rfl rfl rfl rfl
    | call _ _ => exact hother rfl rfl rfl rfl
    | @arrival d bytes =>
        by_cases hd : c = d
        · subst hd
          refine ⟨frames, rest ++ bytes, ⟨?_, hi.sent, ?_⟩, hpassed⟩
          · simp [hi.received]
          · intro hloop
            simp [hi.unread hloop]
        · exact hother (by simp [hd]) rfl rfl (by simp [hd])

/-- What a listener has sent to the workers are whole frames it has read one after another. -/
theorem readFrames_of_reach (h : (lts cfg).Reach s) (c : C) :
    ∃ frames rest, ReadFrames s c frames rest ∧ ∀ frame ∈ frames, WholeFrame frame := by
  obtain ⟨frames, rest, hread, hpassed⟩ := passedFrames_of_reach h c
  exact ⟨frames, rest, hread, fun frame hframe => (hpassed frame hframe).whole⟩

end Room

end Fernq
