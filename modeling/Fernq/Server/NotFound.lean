import Mathlib.Tactic
import Fernq.Server.Delivery
import Fernq.Server.Runs

/-!
What a worker does with a frame whose target is not there.

* `Handled`: what holds of the items that workers have finished; `handled_of_reach`.
* `Answered`: where the sender stays registered, the last frame of a request is forwarded or
  answered; `answered_of_reach`.
* `last_frame_answered`: the 404 response to a request of the encoder.
* `request_cut`: a request whose first frame is dropped and whose last frame is forwarded.
-/

namespace Fernq

namespace Room

open TcpConn

variable {C : Type} [DecidableEq C] {cfg : RoomConfig C} {s s' : Room cfg} {l : Label C} {c : C}

/-! ### The ends of the items -/

/-- A call that answers an item and has returned is a write of the 404 response that has
returned. -/
lemma calls_of_replied {d : C} {item : Item C} {n : ℕ} {r : IoResult} (hr : (lts cfg).Reach s)
    (hret : s.Returned d (.reply item) n r) :
    ∃ res, notFoundReply cfg.toVec item.task = .ok res ∧
      (s.link d).calls ⟨.reply item, n⟩ = some (.write res (.returned r)) := by
  obtain hk | ⟨data, hk⟩ := hret
  · obtain ⟨res, stage, -, hmakes⟩ := (called_of_reach hr).makes d _ _ hk
    cases hmakes
  · obtain ⟨res, stage, hres, hmakes⟩ := (called_of_reach hr).makes d _ _ hk
    cases hmakes
    exact ⟨data, hres, hk⟩

/-- The writes for the items that were finished have returned, forwarded ones to their targets,
and only the last frame of a request is answered. -/
structure Handled (s : Room cfg) : Prop where
  answering : ∀ w item,
    (s.worker w = .replyLookup item ∨ ∃ d n, s.worker w = .replying item d n) →
      item.task.closesRequest = true
  forwarded : ∀ item d n, (item, .forwarded d n) ∈ s.log.items.finished →
    s.Target d item.task.toName ∧ ∃ r, s.Returned d (.forward item) n r
  skipped : ∀ item, (item, .skipped) ∈ s.log.items.finished → item.task.closesRequest = false
  replied : ∀ item d n, (item, .replied d n) ∈ s.log.items.finished →
    item.task.closesRequest = true ∧ ∃ r, s.Returned d (.reply item) n r

/-- An item that has been finished was finished before, or is finished by the step. -/
lemma concludes_of_step {item : Item C} {fate : Fate C} (hi : Queued s) (h : Step s l s')
    (hmem : (item, fate) ∈ s'.log.items.finished) :
    (item, fate) ∈ s.log.items.finished ∨ ∃ w, s.Concludes w item fate := by
  cases itemsChange_of_step h with
  | same heq => exact .inl (heq ▸ hmem)
  | sent c w task _ heq => exact .inl (by simpa [heq] using hmem)
  | finished w item' fate' hend _ heq =>
      rw [heq, Lanes.finished_finish _ _ (lane_eq_cons hi rfl hend.inflight)] at hmem
      obtain hold | hnew := List.mem_append.mp hmem
      · exact .inl hold
      · cases List.mem_singleton.mp hnew
        exact .inr ⟨w, hend⟩

theorem handled_of_reach (h : (lts cfg).Reach s) : Handled s := by
  refine h.invariant ?_ ?_
  · intro s hs
    subst hs
    refine ⟨fun w item hw => ?_, by simp [opened, Lanes.empty], by simp [opened, Lanes.empty],
      by simp [opened, Lanes.empty]⟩
    obtain heq | heq := worker_opened cfg w <;> simp [heq] at hw
  · intro s l s' hr hi hs
    have hq := queued_of_reach hr
    refine ⟨?_, ?_, ?_, ?_⟩
    · intro w item hw
      obtain hold | ⟨-, -, hlast⟩ := answering_of_step hs hw
      · exact hi.answering w item hold
      · exact hlast
    · intro item d n hmem
      obtain hold | ⟨w, hend⟩ := concludes_of_step hq hs hmem
      · obtain ⟨htarget, r, hret⟩ := hi.forwarded item d n hold
        exact ⟨htarget.step hr hs, r, returned_of_step hs hret⟩
      · cases hend with
        | forwarded _ _ r hc hret =>
            have htarget := (forwarded_of_reach hr).working w item d n hc
            exact ⟨htarget.step hr hs, r, returned_of_step hs hret⟩
    · intro item hmem
      obtain hold | ⟨w, hend⟩ := concludes_of_step hq hs hmem
      · exact hi.skipped item hold
      · cases hend with
        | skipped _ _ hlast => exact hlast
    · intro item d n hmem
      obtain hold | ⟨w, hend⟩ := concludes_of_step hq hs hmem
      · obtain ⟨hlast, r, hret⟩ := hi.replied item d n hold
        exact ⟨hlast, r, returned_of_step hs hret⟩
      · cases hend with
        | replied _ _ r hc hret =>
            exact ⟨hi.answering w item (.inr ⟨d, n, hc⟩), r, returned_of_step hs hret⟩

/-! ### A sender that stays -/

/-- Whenever a worker looks for `c` to answer it, `c` is registered under its name. -/
def Answerable (c : C) (s : Room cfg) : Prop :=
  ∀ w item, s.worker w = .replyLookup item → item.source = c → s.conns (cfg.name c) = some c

/-- The items from `c` under its own name that are answered are answered to `c`, and none is left
without an answer. -/
structure Answered (c : C) (s : Room cfg) : Prop where
  replying : ∀ w item d n, s.worker w = .replying item d n → item.source = c →
    item.task.fromName = cfg.name c → d = c
  unanswered : ∀ item, (item, .unanswered) ∈ s.log.items.finished → item.source = c →
    item.task.fromName ≠ cfg.name c
  replied : ∀ item d n, (item, .replied d n) ∈ s.log.items.finished → item.source = c →
    item.task.fromName = cfg.name c → d = c

/-- A worker answers the connection it finds under the name of the sender. -/
lemma replying_of_step {w n : ℕ} {item : Item C} {d : C} (h : Step s l s')
    (hw : s'.worker w = .replying item d n) :
    s.worker w = .replying item d n ∨
      s.worker w = .replyLookup item ∧ s.conns item.task.fromName = some d := by
  obtain heq | ⟨-, hstep⟩ := worker_of_step h w
  · exact .inl (heq ▸ hw)
  · cases hstep with
    | reply item' d' n' res hc _ hconns _ _ =>
        obtain ⟨rfl, rfl, -⟩ : item' = item ∧ d' = d ∧ n' = n := by simpa using hw
        exact .inr ⟨hc, hconns⟩
    | _ => simp_all

theorem answered_of_reach (h : (lts cfg).ReachBy (fun s _ => Answerable c s) s)
    (hreply : ∀ w (task : MessageTask), task.FromFrame cfg.workerNumber w →
      ∃ res, notFoundReply cfg.toVec task = .ok res) : Answered c s := by
  refine h.invariant ?_ ?_
  · intro s hs
    subst hs
    refine ⟨fun w item d n hw => ?_, by simp [opened, Lanes.empty], by simp [opened, Lanes.empty]⟩
    obtain heq | heq := worker_opened cfg w <;> simp [heq] at hw
  · intro s l s' hr hi hok hs
    have hq := queued_of_reach hr.reach
    refine ⟨?_, ?_, ?_⟩
    · intro w item d n hw hsource hname
      obtain hold | ⟨hlookup, hconns⟩ := replying_of_step hs hw
      · exact hi.replying w item d n hold hsource hname
      · rw [hname, hok w item hlookup hsource] at hconns
        exact (Option.some_injective _ hconns).symm
    · intro item hmem hsource hname
      obtain hold | ⟨w, hend⟩ := concludes_of_step hq hs hmem
      · exact hi.unanswered item hold hsource hname
      · cases hend with
        | senderMissing hlookup hconns =>
            simp [hname, hok w item hlookup hsource] at hconns
        | replyErr e hlookup herr =>
            obtain ⟨v, hframe⟩ := hq.accepted item
              (accepted_of_inflight hq (w := w) (by rw [hlookup]; rfl))
            obtain ⟨res, hres⟩ := hreply v item.task hframe
            simp [hres] at herr
    · intro item d n hmem hsource hname
      obtain hold | ⟨w, hend⟩ := concludes_of_step hq hs hmem
      · exact hi.replied item d n hold hsource hname
      · cases hend with
        | replied _ _ r hc _ => exact hi.replying w item d n hc hsource hname

/-! ### Requests of the encoder -/

section Request

variable {t : MessageType} {id : ChannelId} {src tgt : String} {data last text : List UInt8}
  {before : List (List UInt8)}

/-- The task of a frame of a stream has its flags, its names and its channel. -/
lemma closesRequest_of_streamFrame {n w i : ℕ} {task : MessageTask} {endChannel isResponse : Bool}
    (htask : task.FromFrame n w) (henc : Encodable src tgt data) (hi : i < frameCount src tgt data)
    (hpayload : task.payload = streamFrame t endChannel isResponse id src tgt data i) :
    task.closesRequest = (decide (i + 1 = frameCount src tgt data) && endChannel && !isResponse) ∧
      task.fromName = src ∧ task.toName = tgt ∧ getChannelId task.payload = .ok id := by
  have hfit := StreamCall.fieldsFit (c := ⟨t, endChannel, isResponse, id, src, tgt, data⟩) henc hi
  rw [streamFrame] at hpayload
  obtain ⟨hflags, hfrom, hto⟩ := htask.eq_of_messageFrame hfit hpayload
  refine ⟨?_, hfrom, hto, ?_⟩
  · rw [MessageTask.closesRequest, hflags]
    simp
  · rw [hpayload, getChannelId_messageFrame]

/-- The task of the last frame of a request closes the request, and has its names and channel. -/
lemma closesRequest_of_last {n w : ℕ} {task : MessageTask} (htask : task.FromFrame n w)
    (hgen : generateMessageDataStream t true false id src tgt data = .ok (before ++ [last]))
    (hpayload : task.payload = last) :
    task.closesRequest = true ∧ task.fromName = src ∧ task.toName = tgt ∧
      getChannelId task.payload = .ok id := by
  obtain ⟨henc, hframes⟩ := generateMessageDataStream_eq_ok_iff.mp hgen
  have hlast := congrArg List.getLast? hframes
  simp only [streamFrames, List.getLast?_concat, List.getLast?_map] at hlast
  obtain ⟨i, hi, hframe⟩ := Option.map_eq_some_iff.mp hlast.symm
  have hcount : i + 1 = frameCount src tgt data := by
    rw [List.range_eq_range', List.getLast?_range'] at hi
    split_ifs at hi with hzero
    obtain rfl := Option.some_injective _ hi
    omega
  obtain ⟨hcloses, hnames⟩ :=
    closesRequest_of_streamFrame htask henc (by omega) (hpayload.trans hframe.symm)
  exact ⟨by rw [hcloses, decide_eq_true hcount]; rfl, hnames⟩

/-- **The last frame of a request is answered.**  Let a connection `c` send a request of the
encoder under its own name, and stay registered: whenever a worker looks for `c` to answer it, it
finds `c`.  Once the last frame of the request has been processed, either it was written to a
connection that has registered under the target's name, or the write of a 404 response with the
channel of the request was made on `c` and has returned. -/
theorem last_frame_answered
    (hvec : cfg.toVec (responseObject 404 "404 Not Found !") = .ok text) (htext : 0 < text.length)
    (hfits : text.length ≤ 7895)
    (hgen : generateMessageDataStream t true false id (cfg.name c) tgt data =
      .ok (before ++ [last]))
    (h : (lts cfg).ReachBy (fun s _ => Answerable c s) s) {item : Item C} {fate : Fate C}
    (hfin : (item, fate) ∈ s.log.items.finished) (hsource : item.source = c)
    (hpayload : item.task.payload = last) :
    (∃ d n r, fate = .forwarded d n ∧ s.Target d tgt ∧
      (s.link d).calls ⟨.forward item, n⟩ = some (.write last (.returned r))) ∨
    ∃ n res r, fate = .replied c n ∧ getChannelId res = .ok id ∧
      createMessageResponse cfg.toVec (cfg.name c) id 404 "404 Not Found !" = .ok res ∧
      (s.link c).calls ⟨.reply item, n⟩ = some (.write res (.returned r)) := by
  have hr := h.reach
  have hreply : ∀ w (task : MessageTask), task.FromFrame cfg.workerNumber w →
      ∃ res, notFoundReply cfg.toVec task = .ok res := fun w task htask => by
    obtain ⟨id', hid', -⟩ := htask.worker
    exact ⟨_, notFoundReply_eq_ok htask hid' hvec htext hfits⟩
  have hanswered := answered_of_reach h hreply
  have hhandled := handled_of_reach hr
  obtain ⟨w, hframe⟩ :=
    (queued_of_reach hr).accepted item (Lanes.mem_accepted_of_mem_finished _ hfin)
  obtain ⟨hcloses, hfrom, hto, hid⟩ := closesRequest_of_last hframe hgen hpayload
  have hname : item.task.fromName = cfg.name c := hfrom
  cases fate with
  | forwarded d n =>
      obtain ⟨htarget, r, hret⟩ := hhandled.forwarded item d n hfin
      have hk := calls_of_forwarded hr hret
      rw [hpayload] at hk
      exact .inl ⟨d, n, r, rfl, hto ▸ htarget, hk⟩
  | skipped => simp [hhandled.skipped item hfin] at hcloses
  | unanswered => exact absurd hname (hanswered.unanswered item hfin hsource)
  | replied d n =>
      obtain rfl := hanswered.replied item d n hfin hsource hname
      obtain ⟨-, r, hret⟩ := hhandled.replied item d n hfin
      obtain ⟨res, hres, hk⟩ := calls_of_replied hr hret
      have hframe' := notFoundReply_eq_ok hframe hid hvec htext hfits
      obtain rfl := Outcome.ok.inj (hres.symm.trans hframe')
      rw [notFoundReply, hid, Outcome.ok_bind, hname] at hres
      exact .inr ⟨n, _, r, rfl, getChannelId_messageFrame .., hname ▸ hres, hk⟩

/-- The item of a worker that has served it. -/
lemma finished_served {w n : ℕ} {item : Item C} {rest : List (Item C)} {d : C}
    {caller : Caller C} {fate : Fate C} (hi : Queued s) (hidle : s.worker w = .idle)
    (hqueue : s.queue w = item :: rest) :
    (s.served w rest d caller n data fate).log.items.finished =
      s.log.items.finished ++ [(item, fate)] := by
  refine Lanes.finished_finish _ _ (?_ : s.log.items.lane (some w) = item :: rest)
  rw [hi.lane w (by simp [hidle]), hidle, hqueue]
  rfl

/-- A request of one byte from `a` to `b`. -/
def lostTask : MessageTask := streamTask .header true false pairChannel "a" "b" [7] 0

/-- The room `pair` when connection 0, which is `a`, has sent a request to `b`, which is not
there. -/
def lost : Room pair := (listening lostTask.payload).sent 0 [] 0 lostTask

lemma encodable_lost : Encodable "a" "b" [7] := by constructor <;> decide

lemma frameCount_lost : frameCount "a" "b" [7] = 1 := by decide

/-- The request is sent in rooms that are quiet. -/
lemma reach_lost {P : Room pair → Prop} (hP : ∀ s, Quiet s → P s) :
    (lts pair).ReachBy (fun s _ => P s) lost := by
  have hstart : Quiet (listening lostTask.payload) := quiet_listening _
  have hassign : pairChannel.assignTargetFast pair.workerNumber = .ok 0 := by decide
  have hworker : (listening lostTask.payload).worker 0 ≠ .ended := by simp [listening, opened, pair]
  exact reach_streamFrame (reach_listening hP _) (fun s' ha => hP s' (hstart.alike ha)) rfl
    (List.append_nil _).symm encodable_lost (frameCount_lost ▸ Nat.zero_lt_one) (by decide) hassign
    hworker (by decide)

/-- The request is answered to connection 0, in rooms that are quiet or where only connection 0 is
registered. -/
lemma reach_lost_answered {P : Room pair → Prop}
    (hP : ∀ s, Quiet s ∨ s.conns = (listening []).conns → P s) :
    ∃ res, notFoundReply pair.toVec lostTask = .ok res ∧ (lts pair).ReachBy (fun s _ => P s)
      (lost.served 0 [] 0 (.reply ⟨0, lostTask⟩) 0 res (.replied 0 0)) := by
  have h : (lts pair).ReachBy (fun s _ => P s) lost := reach_lost fun s hs => hP s (.inl hs)
  obtain ⟨w, hframe⟩ := (queued_of_reach h.reach).accepted ⟨0, lostTask⟩ (List.mem_singleton_self _)
  have hchannel : getChannelId lostTask.payload = .ok pairChannel := getChannelId_messageFrame ..
  have hlen : (utf8Bytes notFoundText).length = 85 := by decide
  obtain ⟨res, hres⟩ : ∃ res, notFoundReply pair.toVec lostTask = .ok res :=
    ⟨_, notFoundReply_eq_ok hframe hchannel rfl (by omega) (by omega)⟩
  have hshard : ∀ shard, lost.ShardFree shard :=
    ((entryless_absent.update 0 .header (by simp)).update 0 .header (by simp)).shardFree
  exact ⟨res, hres, reach_replied h (hP _ (.inr rfl)) rfl rfl hshard rfl (by decide) rfl hres rfl
    rfl rfl rfl (fun _ _ => hP _ (.inr rfl)) fun _ _ _ _ => hP _ (.inr rfl)⟩

lemma generate_lost : generateMessageDataStream .header true false pairChannel "a" "b" [7] =
    .ok ([] ++ [lostTask.payload]) := by
  rw [generateMessageDataStream_eq_ok encodable_lost, streamFrames, frameCount_lost]
  rfl

/-- Frame `i` of a request of two frames from `a` to `b`. -/
def cutTask (i : ℕ) : MessageTask := streamTask .header true false pairChannel "a" "b" longData i

/-- The room `pair` when connection 0, which is `a`, has sent the first frame of the request. -/
def cutFirst : Room pair :=
  (listening ((cutTask 0).payload ++ ((cutTask 1).payload ++ []))).sent 0
    ((cutTask 1).payload ++ []) 0
    (cutTask 0)

/-- It has sent the last one. -/
def cutSent : Room pair := cutFirst.sent 0 [] 0 (cutTask 1)

/-- The worker has taken the first frame. -/
def cutLooking : Room pair :=
  { cutSent with
    worker := Function.update cutSent.worker 0 (.lookup ⟨0, cutTask 0⟩)
    queue := Function.update cutSent.queue 0 [⟨0, cutTask 1⟩] }

/-- It has not found `b`. -/
def cutSkipped : Room pair :=
  { cutLooking with
    worker := Function.update cutLooking.worker 0 .idle
    log := { cutLooking.log with items := cutLooking.log.items.finish (some 0) .skipped } }

lemma generate_cut : generateMessageDataStream .header true false pairChannel "a" "b" longData =
    .ok ([(cutTask 0).payload] ++ [(cutTask 1).payload]) := by
  rw [generateMessageDataStream_eq_ok encodable_longData, streamFrames, frameCount_longData]
  rfl

lemma quiet_cutFirst : Quiet cutFirst := (quiet_listening _).sent ..

lemma quiet_cutSent : Quiet cutSent := quiet_cutFirst.sent ..

/-- Both frames are sent in rooms that are quiet. -/
lemma reach_cutSent {P : Room pair → Prop} (hP : ∀ s, Quiet s → P s) :
    (lts pair).ReachBy (fun s _ => P s) cutSent := by
  have hstart : Quiet (listening ((cutTask 0).payload ++ ((cutTask 1).payload ++ []))) :=
    quiet_listening _
  have hassign : pairChannel.assignTargetFast pair.workerNumber = .ok 0 := by decide
  have hworker : (listening []).worker 0 ≠ .ended := by simp [listening, opened, pair]
  have hcount := frameCount_longData
  have h : (lts pair).ReachBy (fun s _ => P s) cutFirst :=
    reach_streamFrame (reach_listening hP _) (fun s' ha => hP s' (hstart.alike ha)) rfl rfl
      encodable_longData (by omega) (by decide) hassign hworker (by decide)
  exact reach_streamFrame h (fun s' ha => hP s' (quiet_cutFirst.alike ha)) rfl rfl
    encodable_longData (by omega) (by decide) hassign hworker (by decide)

lemma entryless_cutSent : Entryless cutSent.listener :=
  ((entryless_absent.update 0 .header (by simp)).update 0 .header (by simp)).update 0 .header
    (by simp)

lemma entryless_cutSkipped (shard : ℕ) : cutSkipped.ShardFree shard :=
  Entryless.shardFree (s := cutSkipped) entryless_cutSent shard

/-- The first frame is dropped, in rooms that are quiet or where only connection 0 is registered. -/
lemma reach_cutSkipped {P : Room pair → Prop}
    (hP : ∀ s, Quiet s ∨ s.conns = (listening []).conns → P s) :
    (lts pair).ReachBy (fun s _ => P s) cutSkipped := by
  have hnotlast : (cutTask 0).closesRequest = false := by
    simp [cutTask, streamTask, MessageTask.closesRequest, frameCount_longData]
  have h : (lts pair).ReachBy (fun s _ => P s) cutLooking :=
    (reach_cutSent fun s hs => hP s (.inl hs)).step (hP _ (.inr rfl))
      (.worker (.recv ⟨0, cutTask 0⟩ [⟨0, cutTask 1⟩] rfl rfl))
  exact h.step (hP _ (.inr rfl))
    (.worker (.skip ⟨0, cutTask 0⟩ rfl (entryless_cutSkipped _) rfl hnotlast))

lemma finished_cutSkipped : cutSkipped.log.items.finished = [(⟨0, cutTask 0⟩, .skipped)] := by
  have h : (lts pair).Reach cutLooking :=
    (reach_cutSent fun _ _ => trivial).step trivial
      (.worker (.recv ⟨0, cutTask 0⟩ [⟨0, cutTask 1⟩] rfl rfl))
  have hlane : cutLooking.log.items.lane (some 0) = ⟨0, cutTask 0⟩ :: cutLooking.queue 0 :=
    lane_eq_cons (queued_of_reach h) (w := 0) rfl rfl
  calc cutSkipped.log.items.finished
      = (cutLooking.log.items.finish (some 0) .skipped).finished := rfl
    _ = cutLooking.log.items.finished ++ [(⟨0, cutTask 0⟩, .skipped)] :=
      Lanes.finished_finish _ _ hlane
    _ = [(⟨0, cutTask 0⟩, .skipped)] := rfl

lemma accepted_cutSkipped :
    cutSkipped.log.items.accepted = [⟨0, cutTask 0⟩, ⟨0, cutTask 1⟩] := by
  simp [cutSkipped, cutLooking, cutSent, cutFirst, sent, listening, opened, Lanes.empty]

/-- The room when the last frame has been answered to connection 0 with `res`. -/
def cutAnswered (res : List UInt8) : Room pair :=
  cutSkipped.served 0 [] 0 (.reply ⟨0, cutTask 1⟩) 0 res (.replied 0 0)

/-- The request is answered to connection 0, in rooms that are quiet or where only connection 0 is
registered. -/
lemma reach_cutAnswered {P : Room pair → Prop}
    (hP : ∀ s, Quiet s ∨ s.conns = (listening []).conns → P s) :
    ∃ res, notFoundReply pair.toVec (cutTask 1) = .ok res ∧
      (lts pair).ReachBy (fun s _ => P s) (cutAnswered res) := by
  have h := reach_cutSkipped hP
  have hlast : (cutTask 1).closesRequest = true := by
    simp [cutTask, streamTask, MessageTask.closesRequest, frameCount_longData]
  obtain ⟨w, hframe⟩ := (queued_of_reach h.reach).accepted ⟨0, cutTask 1⟩ (by
    rw [accepted_cutSkipped]
    exact List.mem_cons_of_mem _ (List.mem_singleton_self _))
  have hchannel : getChannelId (cutTask 1).payload = .ok pairChannel := getChannelId_messageFrame ..
  have hlen : (utf8Bytes notFoundText).length = 85 := by decide
  obtain ⟨res, hres⟩ : ∃ res, notFoundReply pair.toVec (cutTask 1) = .ok res :=
    ⟨_, notFoundReply_eq_ok hframe hchannel rfl (by omega) (by omega)⟩
  exact ⟨res, hres, reach_replied h (hP _ (.inr rfl)) rfl rfl entryless_cutSkipped rfl hlast rfl
    hres rfl rfl rfl rfl (fun _ _ => hP _ (.inr rfl)) fun _ _ _ _ => hP _ (.inr rfl)⟩

lemma finished_cutAnswered (res : List UInt8) :
    (cutAnswered res).log.items.finished =
      [(⟨0, cutTask 0⟩, .skipped), (⟨0, cutTask 1⟩, .replied 0 0)] := by
  have h : (lts pair).Reach cutSkipped := reach_cutSkipped fun _ _ => trivial
  rw [cutAnswered, finished_served (queued_of_reach h) rfl rfl, finished_cutSkipped]
  rfl

/-- Connection `a` sends a request of two frames to `b`, and there is no `b`. -/
theorem last_frame_answered_pair : ∃ (s : Room pair) (item item' : Item ℕ) (id : ChannelId)
    (res : List UInt8) (r : IoResult),
      s.log.items.finished = [(item, .skipped), (item', .replied 0 0)] ∧
      getChannelId res = .ok id ∧
      createMessageResponse pair.toVec "a" id 404 "404 Not Found !" = .ok res ∧
      (s.link 0).calls ⟨.reply item', 0⟩ = some (.write res (.returned r)) := by
  have hanswerable : ∀ s : Room pair, Quiet s ∨ s.conns = (listening []).conns →
    Answerable 0 s := by
    rintro s (hs | hs) w item hw -
    · simpa [hw, WorkerStage.inflight] using hs.idle w
    · rw [hs]
      rfl
  obtain ⟨res, hres, h⟩ := reach_cutAnswered hanswerable
  have hfin := finished_cutAnswered res
  have hmem : (⟨0, cutTask 1⟩, .replied 0 0) ∈ (cutAnswered res).log.items.finished := by
    rw [hfin]
    exact List.mem_cons_of_mem _ (List.mem_singleton_self _)
  have hlen : (utf8Bytes notFoundText).length = 85 := by decide
  obtain ⟨d, n, r, hfate, -⟩ | ⟨n, res, r, hfate, hid, hmessage, hk⟩ :=
    last_frame_answered rfl (by omega) (by omega) generate_cut h hmem rfl rfl
  · cases hfate
  · cases hfate
    exact ⟨_, _, _, pairChannel, res, r, hfin, hid, hmessage, hk⟩

/-- Connection `a` sends a request of two frames to `b`.  There is no `b` when the worker looks it
up for the first frame, and there is one when it looks it up for the last: the first frame is
dropped, the last one is forwarded, and nothing is answered to `a`, which stays registered. -/
theorem request_cut : ∃ (s : Room pair) (id : ChannelId) (data : List UInt8)
    (item item' : Item ℕ), (lts pair).Reach s ∧
    s.conns "a" = some 0 ∧ s.listener 0 = .header ∧ s.log.displaced 0 = false ∧
    generateMessageDataStream .header true false id "a" "b" data =
      .ok [item.task.payload, item'.task.payload] ∧
    item.source = 0 ∧ item'.source = 0 ∧
    s.log.items.finished = [(item, .skipped), (item', .forwarded 1 0)] ∧
    ∀ c item n, (s.link c).calls ⟨.reply item, n⟩ = none := by
  have hfree := entryless_cutSent.update 1 .spawned (by simp)
  have h : (lts pair).Reach cutSkipped := reach_cutSkipped fun _ _ => trivial
  have h := reach_spawned (c := 1) h (fun _ _ => trivial) rfl rfl rfl
  have h := reach_registered (c := 1) h (fun _ _ => trivial) rfl rfl (hfree.shardFree 0) rfl
  have hqueued := queued_of_reach h
  have hfree := hfree.update 1 .header (by simp)
  have h := reach_forwarded (d := 1) (n := 0) (w := 0) h trivial rfl rfl (hfree.shardFree 0)
    rfl rfl rfl rfl rfl trivial fun _ _ _ _ => trivial
  refine ⟨_, pairChannel, longData, ⟨0, cutTask 0⟩, ⟨0, cutTask 1⟩, h, rfl, rfl, rfl, generate_cut,
    rfl, rfl, ?_, ?_⟩
  · rw [finished_served hqueued rfl rfl]
    show cutSkipped.log.items.finished ++ _ = _
    rw [finished_cutSkipped, List.singleton_append]
  · intro c item n
    show (Function.update cutSent.link 1 ((cutSent.link 1).set _ _ _) c).calls _ = none
    by_cases hc : c = 1
    · subst hc
      rw [Function.update_self, SharedConn.calls_set_of_ne (by simp)]
      exact quiet_cutSent.calls 1 _
    · rw [Function.update_of_ne hc]
      exact quiet_cutSent.calls c _

end Request

end Room

end Fernq
