import Mathlib.Tactic
import Fernq.Protocol.MessageCodec
import Fernq.Server.NotFound

/-!
The answers to a message whose target is not registered.  The frames of a message are at some
positions among the items of one worker, with anything between them.

* `sentTo`, `doneBy`: the items of a worker in order, and what became of the first of them.
* `Passed`: at positions where the target is not found and the sender is, items are skipped or
  answered to the sender; `passed_of_reach`.
* `Accounted`: every 404 response is for one item; `accounted_of_reach`.
* `undeliverable_answered_once`: one response for a request, and none for any other message.
-/

namespace Fernq

namespace Room

open TcpConn

variable {C : Type} [DecidableEq C] {cfg : RoomConfig C} {s s' : Room cfg} {l : Label C}
  {c : C} {w p : ℕ} {item : Item C} {fate : Fate C}

/-! ### Positions -/

/-- The items that were sent to worker `w`, in this order. -/
def sentTo (s : Room cfg) (w : ℕ) : List (Item C) :=
  s.log.items.accepted.filter (cfg.route · = some w)

omit [DecidableEq C] in
lemma sentTo_eq (s : Room cfg) (w : ℕ) :
    s.sentTo w = (s.doneBy w).map Prod.fst ++ s.log.items.lane (some w) := by
  rw [map_fst_doneBy]
  exact s.log.items.fifo _

omit [DecidableEq C] in
/-- A worker finishes its items in order. -/
lemma sentTo_of_doneBy (h : (s.doneBy w)[p]? = some (item, fate)) :
    (s.sentTo w)[p]? = some item := by
  have hlt : p < ((s.doneBy w).map Prod.fst).length := by
    rw [List.length_map]
    exact (List.getElem?_eq_some_iff.mp h).1
  rw [sentTo_eq, List.getElem?_append_left hlt, List.getElem?_map, h]
  rfl

omit [DecidableEq C] in
/-- The item a worker is busy with comes after those it has finished. -/
lemma sentTo_of_inflight (hi : Queued s) (hw : (s.worker w).inflight = [item]) :
    (s.sentTo w)[(s.doneBy w).length]? = some item := by
  rw [sentTo_eq, lane_eq_cons hi rfl hw, List.getElem?_append_right (by simp)]
  simp

/-- Items keep their positions. -/
lemma sentTo_of_step (h : Step s l s') (hp : (s.sentTo w)[p]? = some item) :
    (s'.sentTo w)[p]? = some item := by
  cases itemsChange_of_step h with
  | same heq => rwa [sentTo, heq]
  | finished v item' fate' _ _ heq => rwa [sentTo, heq, Lanes.accepted_finish]
  | sent d v task _ heq =>
      obtain ⟨hlt, -⟩ := List.getElem?_eq_some_iff.mp hp
      rw [sentTo] at hp hlt
      rw [sentTo, heq, Lanes.accepted_push, List.filter_append, List.getElem?_append_left hlt, hp]

/-! ### A target that is not found -/

/-- While worker `w` is at one of the positions, it finds nothing under `tgt`, and `c` under its
name. -/
def Unreachable (w : ℕ) (P : Set ℕ) (c : C) (tgt : String) (s : Room cfg) : Prop :=
  (s.doneBy w).length ∈ P → (∀ item, s.worker w = .lookup item → s.conns tgt = none) ∧
    ∀ item, s.worker w = .replyLookup item → s.conns (cfg.name c) = some c

/-- The items at the positions are from the name of `c` to `tgt`. -/
def NamedAt (w : ℕ) (P : Set ℕ) (c : C) (tgt : String) (s : Room cfg) : Prop :=
  ∀ p ∈ P, ∀ item, (s.sentTo w)[p]? = some item →
    item.task.fromName = cfg.name c ∧ item.task.toName = tgt

/-- At the positions nothing is forwarded, and everything that is answered is answered to `c`. -/
structure Passed (w : ℕ) (P : Set ℕ) (c : C) (s : Room cfg) : Prop where
  forwarding : (s.doneBy w).length ∈ P → ∀ item d n, s.worker w ≠ .forwarding item d n
  replying : (s.doneBy w).length ∈ P → ∀ item d n, s.worker w = .replying item d n → d = c
  done : ∀ p ∈ P, ∀ item fate, (s.doneBy w)[p]? = some (item, fate) →
    fate = .skipped ∨ ∃ n, fate = .replied c n

variable {P : Set ℕ} {tgt : String}

omit [DecidableEq C] in
/-- A worker at one of the positions finishes its item as one that is not delivered. -/
lemma Passed.concludes (hi : Passed w P c s) (hq : Queued s) (hnamed : NamedAt w P c tgt s)
    (hok : Unreachable w P c tgt s)
    (hreply : ∀ v (task : MessageTask), task.FromFrame cfg.workerNumber v →
      ∃ res, notFoundReply cfg.toVec task = .ok res)
    (hP : (s.doneBy w).length ∈ P) (hend : s.Concludes w item fate) :
    fate = .skipped ∨ ∃ n, fate = .replied c n := by
  obtain ⟨hfrom, -⟩ := hnamed _ hP item (sentTo_of_inflight hq hend.inflight)
  cases hend with
  | forwarded d n r hw _ => exact absurd hw (hi.forwarding hP item d n)
  | skipped _ _ _ => exact .inl rfl
  | senderMissing hw hconns =>
      rw [hfrom, (hok hP).2 item hw] at hconns
      cases hconns
  | replyErr e hw herr =>
      obtain ⟨v, hframe⟩ := hq.accepted item (accepted_of_inflight hq (by rw [hw]; rfl))
      obtain ⟨res, hres⟩ := hreply v item.task hframe
      rw [hres] at herr
      cases herr
  | replied d n r hw _ =>
      obtain rfl := hi.replying hP item d n hw
      exact .inr ⟨n, rfl⟩

theorem passed_of_reach (h : (lts cfg).ReachBy (fun s _ => Unreachable w P c tgt s) s)
    (hreply : ∀ v (task : MessageTask), task.FromFrame cfg.workerNumber v →
      ∃ res, notFoundReply cfg.toVec task = .ok res) (hnamed : NamedAt w P c tgt s) :
    Passed w P c s := by
  revert hnamed
  refine h.invariant (I := fun s => NamedAt w P c tgt s → Passed w P c s) ?_ ?_
  · rintro s rfl -
    refine ⟨?_, ?_, by simp [opened, doneBy, Lanes.empty]⟩ <;>
    · intro _ item d n hw
      obtain heq | heq := worker_opened cfg w <;> simp [heq] at hw
  · intro s l s' hr hi hok hs hnamed'
    have hq := queued_of_reach hr.reach
    have hnamed : NamedAt w P c tgt s := fun p hp item hitem =>
      hnamed' p hp item (sentTo_of_step hs hitem)
    have hi := hi hnamed
    have hnames : ∀ item, (s.worker w).inflight = [item] → (s.doneBy w).length ∈ P →
        item.task.fromName = cfg.name c ∧ item.task.toName = tgt := fun item hw hP =>
      hnamed _ hP item (sentTo_of_inflight hq hw)
    obtain ⟨hdone, hstage⟩ | ⟨item, fate, hend, hidle, hdone⟩ := doneBy_of_step hq hs w
    · refine ⟨?_, ?_, hdone ▸ hi.done⟩
      · intro hP item d n hw
        rw [hdone] at hP
        obtain hold | ⟨hlookup, hconns⟩ := forwarding_of_step hs hw
        · exact hi.forwarding hP item d n hold
        · obtain ⟨-, hto⟩ := hnames item (by rw [hlookup]; rfl) hP
          rw [hto, (hok hP).1 item hlookup] at hconns
          cases hconns
      · intro hP item d n hw
        rw [hdone] at hP
        obtain hold | ⟨hlookup, hconns⟩ := replying_of_step hs hw
        · exact hi.replying hP item d n hold
        · obtain ⟨hfrom, -⟩ := hnames item (by rw [hlookup]; rfl) hP
          rw [hfrom, (hok hP).2 item hlookup] at hconns
          exact (Option.some.inj hconns).symm
    · refine ⟨by simp [hidle], by simp [hidle], ?_⟩
      intro p hp item' fate' hp'
      rw [hdone, List.getElem?_append] at hp'
      split_ifs at hp' with hlt
      · exact hi.done p hp item' fate' hp'
      · -- the item that is finished by the step
        obtain ⟨hzero, heq⟩ := List.getElem?_eq_some_iff.mp hp'
        have hlen : p = (s.doneBy w).length := by
          rw [List.length_singleton] at hzero
          omega
        subst hlen
        simp only [Nat.sub_self, List.getElem_cons_zero, Prod.mk.injEq] at heq
        obtain ⟨rfl, rfl⟩ := heq
        exact hi.concludes hq hnamed hok hreply hp hend

/-! ### The calls that answer -/

/-- The call that answered an item. -/
def answerOf : Item C × Fate C → Option (C × CallId C)
  | (item, .replied d n) => some (d, ⟨.reply item, n⟩)
  | _ => none

/-- The calls that have answered items. -/
def answers (s : Room cfg) : List (C × CallId C) := s.log.items.finished.filterMap answerOf

omit [DecidableEq C] in
lemma answerOf_eq_some {x : Item C × Fate C} {y : C × CallId C} (h : answerOf x = some y) :
    ∃ item d n, x = (item, .replied d n) ∧ y = (d, ⟨.reply item, n⟩) := by
  obtain ⟨item, fate⟩ := x
  cases fate with
  | replied d n => exact ⟨item, d, n, rfl, (Option.some.inj h).symm⟩
  | _ => cases h

/-- A step leaves the answers, or a worker has written one more. -/
lemma answers_of_step (hi : Queued s) (h : Step s l s') :
    s'.answers = s.answers ∨ ∃ w item d n, s.worker w = .replying item d n ∧
      s'.worker w = .idle ∧ s'.answers = s.answers ++ [(d, ⟨.reply item, n⟩)] := by
  cases itemsChange_of_step h with
  | same heq => exact .inl (by rw [answers, heq, answers])
  | sent d v task _ heq => exact .inl (by rw [answers, heq, Lanes.finished_push, answers])
  | finished w item fate hend hidle heq =>
      have hfin : s'.answers = s.answers ++ (answerOf (item, fate)).toList := by
        rw [answers, heq, Lanes.finished_finish _ _ (lane_eq_cons hi rfl hend.inflight),
          List.filterMap_append, List.filterMap_cons, answers]
        cases answerOf (item, fate) <;> rfl
      cases hend with
      | replied d n r hw _ => exact .inr ⟨w, item, d, n, hw, hidle, hfin⟩
      | _ => exact .inl (hfin.trans (List.append_nil _))

/-- A worker that answers an item has begun to, in a call of its own, or goes on. -/
lemma fresh_of_replying {d : C} {n : ℕ} (h : Step s l s') (hw : s'.worker w = .replying item d n) :
    s.worker w = .replying item d n ∨ s.Fresh d (.reply item) n := by
  obtain heq | ⟨-, hstep⟩ := worker_of_step h w
  · exact .inl (heq ▸ hw)
  · cases hstep with
    | reply item' d' n' res _ _ _ _ hfresh =>
        obtain ⟨rfl, rfl, rfl⟩ : item' = item ∧ d' = d ∧ n' = n := by simpa using hw
        exact .inr hfresh
    | _ => simp_all

/-- Every call that answers is for one item that a worker has finished, or is busy with. -/
structure Accounted (s : Room cfg) : Prop where
  nodup : s.answers.Nodup
  working : ∀ w item d n, s.worker w = .replying item d n → (d, ⟨.reply item, n⟩) ∉ s.answers
  all : ∀ d item n call, (s.link d).calls ⟨.reply item, n⟩ = some call →
    (d, ⟨.reply item, n⟩) ∈ s.answers ∨ ∃ w, s.worker w = .replying item d n

/-- An answer is a call that has returned. -/
lemma called_of_mem_answers (hr : (lts cfg).Reach s) {d : C} {n : ℕ}
    (hmem : (d, ⟨.reply item, n⟩) ∈ s.answers) : ∃ r, s.Returned d (.reply item) n r := by
  obtain ⟨x, hx, hanswer⟩ := List.mem_filterMap.mp hmem
  obtain ⟨item', d', n', rfl, heq⟩ := answerOf_eq_some hanswer
  simp only [Prod.mk.injEq, CallId.mk.injEq, Caller.reply.injEq] at heq
  obtain ⟨rfl, rfl, rfl⟩ := heq
  exact ((handled_of_reach hr).replied item d n hx).2

theorem accounted_of_reach (h : (lts cfg).Reach s) : Accounted s := by
  refine h.invariant ?_ ?_
  · rintro s rfl
    refine ⟨List.nodup_nil, by simp [answers, opened, Lanes.empty],
      by simp [opened, SharedConn.new]⟩
  · intro s l s' hr hi hs
    have hq := queued_of_reach hr
    have hkept : ∀ x ∈ s.answers, x ∈ s'.answers := by
      intro x hx
      obtain heq | ⟨w, item, d, n, -, -, heq⟩ := answers_of_step hq hs
      · rwa [heq]
      · rw [heq]
        exact List.mem_append_left _ hx
    refine ⟨?_, ?_, ?_⟩
    · obtain heq | ⟨w, item, d, n, hw, -, heq⟩ := answers_of_step hq hs
      · rw [heq]
        exact hi.nodup
      · rw [heq]
        exact hi.nodup.append (List.nodup_singleton _)
          (List.disjoint_singleton.mpr (hi.working w item d n hw))
    · intro w item d n hw hmem
      have hold : (d, ⟨.reply item, n⟩) ∉ s.answers := by
        intro hbefore
        obtain hworking | hfresh := fresh_of_replying hs hw
        · exact hi.working w item d n hworking hbefore
        · obtain ⟨r, hret⟩ := called_of_mem_answers hr hbefore
          simp [Returned, show (s.link d).calls ⟨.reply item, n⟩ = none from hfresh] at hret
      obtain heq | ⟨v, item', d', n', hv, hidle, heq⟩ := answers_of_step hq hs
      · exact hold (heq ▸ hmem)
      · rw [heq, List.mem_append, List.mem_singleton] at hmem
        obtain hmem | hmem := hmem
        · exact hold hmem
        · -- the same item, so the same worker, which is idle
          simp only [Prod.mk.injEq, CallId.mk.injEq, Caller.reply.injEq] at hmem
          obtain ⟨-, rfl, -⟩ := hmem
          have hroute : cfg.route item = some v := route_of_inflight hq (by rw [hv]; rfl)
          have hroute' : cfg.route item = some w :=
            route_of_inflight (queued_of_reach (hr.step hs)) (by rw [hw]; rfl)
          obtain rfl : v = w := Option.some.inj (hroute.symm.trans hroute')
          rw [hidle] at hw
          cases hw
    · intro d item n call hcall
      obtain ⟨before, hbefore⟩ | ⟨w, hw⟩ := called_or_waits_of_step hs hcall
      · obtain hmem | ⟨w, hw⟩ := hi.all d item n before hbefore
        · exact .inl (hkept _ hmem)
        · obtain hstage | ⟨-, hstep⟩ := worker_of_step hs w
          · exact .inr ⟨w, hstage.trans hw⟩
          · cases hstep with
            | replied item' d' n' r hw' _ =>
                rw [hw] at hw'
                cases hw'
                refine .inl ?_
                simp [answers, Lanes.finished_finish _ _ (lane_eq_cons hq hw rfl), answerOf]
            | _ => simp_all
      · exact .inr ⟨w, hw⟩

/-! ### The answer to a message -/

/-- The frame is a 404 response of the server for `name` on channel `id`, and is read as one. -/
def IsNotFound (fromSlice : List UInt8 → Except String Json) (name : String) (id : ChannelId)
    (res : List UInt8) : Prop :=
  ∃ t f total offset payload body, decodeBasic res = .ok (t, f, res, []) ∧
    parseMessage res = .ok (⟨id, "fernq", name, total, offset⟩, payload) ∧
    decodeFromBytes fromSlice payload = .ok (.response ⟨.json, 404, body⟩)

/-- The calls that worker `w` has made to answer the items at the first `n` of some positions. -/
def answersAt (s : Room cfg) (w : ℕ) (pos : ℕ → ℕ) (n : ℕ) : List (C × CallId C) :=
  (List.range n).filterMap fun i => (s.doneBy w)[pos i]?.bind answerOf

section Message

variable {fromSlice : List UInt8 → Except String Json} {text : List UInt8} {t : MessageType}
  {endChannel isResponse : Bool} {id : ChannelId} {data : List UInt8} {frames : List (List UInt8)}
  {pos : ℕ → ℕ}

omit [DecidableEq C] in
/-- The 404 response for a task of a listener is read back as such. -/
lemma isNotFound_of_notFoundReply {n v : ℕ} {task : MessageTask} {res : List UInt8}
    (hvec : cfg.toVec (responseObject 404 "404 Not Found !") = .ok text) (htext : 0 < text.length)
    (hfits : text.length ≤ 7895)
    (hslice : fromSlice text = .ok (responseObject 404 "404 Not Found !"))
    (hframe : task.FromFrame n v) (hid : getChannelId task.payload = .ok id)
    (hres : notFoundReply cfg.toVec task = .ok res) :
    IsNotFound fromSlice task.fromName id res := by
  have heq := notFoundReply_eq_ok hframe hid hvec htext hfits
  obtain rfl := Outcome.ok.inj (hres.symm.trans heq)
  obtain ⟨hpos, hle⟩ := hframe.utf8ByteSize_fromName
  have hmax : maxFrameSize = 8192 := rfl
  have hfit : FieldsFit "fernq" task.fromName text.length 0 text :=
    ⟨by decide, by decide, hpos, hle, by omega, by decide, by omega⟩
  refine ⟨.header, .new true true true, text.length, 0, text, some (.string "404 Not Found !"), ?_,
    parseMessage_messageFrame hfit, ?_⟩
  · have hread : decodeBasic (messageFrame .header (.new true true true) id "fernq" task.fromName
        text.length 0 text ++ []) = _ := decodeBasic_messageFrame hfit []
    rwa [List.append_nil] at hread
  · rw [decodeFromBytes, hslice]
    exact decodeMessage_responseObject _ (by decide) (by decide)

/-- The frames of a message were sent by `c` to worker `w`, which has finished them: the `i`-th
frame is the item at position `pos i`. -/
structure Processed (s : Room cfg) (w : ℕ) (c : C) (frames : List (List UInt8)) (pos : ℕ → ℕ) :
    Prop where
  sent : ∀ i frame, frames[i]? = some frame →
    ∃ item, (s.sentTo w)[pos i]? = some item ∧ item.source = c ∧ item.task.payload = frame
  done : ∀ i < frames.length, pos i < (s.doneBy w).length

/-- The positions of a message of `n` frames. -/
def positions (pos : ℕ → ℕ) (n : ℕ) : Set ℕ := {p | ∃ i < n, pos i = p}

/-- The item of the `i`-th frame of a message. -/
lemma Processed.exists_item {i : ℕ} (h : Processed s w c frames pos) (hr : (lts cfg).Reach s)
    (hgen : generateMessageDataStream t endChannel isResponse id (cfg.name c) tgt data = .ok frames)
    (hi : i < frames.length) :
    ∃ item v, (s.sentTo w)[pos i]? = some item ∧ item.task.FromFrame cfg.workerNumber v ∧
      item.task.closesRequest = (decide (i + 1 = frames.length) && endChannel && !isResponse) ∧
      item.task.fromName = cfg.name c ∧ item.task.toName = tgt ∧
      getChannelId item.task.payload = .ok id := by
  obtain ⟨henc, rfl⟩ := generateMessageDataStream_eq_ok_iff.mp hgen
  have hlen : (streamFrames t endChannel isResponse id (cfg.name c) tgt data).length =
      frameCount (cfg.name c) tgt data := by
    simp [streamFrames]
  rw [hlen] at hi ⊢
  have hframe : (streamFrames t endChannel isResponse id (cfg.name c) tgt data)[i]? =
      some (streamFrame t endChannel isResponse id (cfg.name c) tgt data i) := by
    simp [streamFrames, hi]
  obtain ⟨item, hitem, -, hpayload⟩ := h.sent i _ hframe
  have hmem : item ∈ s.log.items.accepted := (List.mem_filter.mp (List.mem_of_getElem? hitem)).1
  obtain ⟨v, hfrom⟩ := (queued_of_reach hr).accepted item hmem
  exact ⟨item, v, hitem, hfrom, closesRequest_of_streamFrame hfrom henc hi hpayload⟩

/-- The worker of a message gets everything that is sent on its channel. -/
lemma Processed.mem_sentTo (h : Processed s w c frames pos) (hr : (lts cfg).Reach s)
    (hgen : generateMessageDataStream t endChannel isResponse id (cfg.name c) tgt data = .ok frames)
    (hpos : 0 < frames.length) (hmem : item ∈ s.log.items.accepted)
    (hid : getChannelId item.task.payload = .ok id) : item ∈ s.sentTo w := by
  obtain ⟨first, -, hfirst, -, -, -, -, hid'⟩ := h.exists_item hr hgen hpos
  have hroute : cfg.route item = cfg.route first := by
    rw [RoomConfig.route, RoomConfig.route, hid, hid']
  have hfirst' := (List.mem_filter.mp (List.mem_of_getElem? hfirst)).2
  exact List.mem_filter.mpr ⟨hmem, by rwa [hroute]⟩

/-- What became of an item at one of the positions. -/
lemma Passed.done_cases (h : Passed w P c s) (hr : (lts cfg).Reach s) (hp : p ∈ P)
    (hlt : p < (s.doneBy w).length) (hitem : (s.sentTo w)[p]? = some item) :
    item.task.closesRequest = false ∧ (s.doneBy w)[p]? = some (item, .skipped) ∨
      ∃ n, item.task.closesRequest = true ∧ (s.doneBy w)[p]? = some (item, .replied c n) := by
  obtain ⟨⟨item', fate⟩, hdone⟩ : ∃ x, (s.doneBy w)[p]? = some x :=
    ⟨_, List.getElem?_eq_getElem hlt⟩
  obtain rfl : item' = item := Option.some.inj ((sentTo_of_doneBy hdone).symm.trans hitem)
  have hfin : (item', fate) ∈ s.log.items.finished :=
    (List.mem_filter.mp (List.mem_of_getElem? hdone)).1
  rcases h.done p hp item' fate hdone with rfl | ⟨n, rfl⟩
  · exact .inl ⟨(handled_of_reach hr).skipped item' hfin, hdone⟩
  · exact .inr ⟨n, ((handled_of_reach hr).replied item' c n hfin).1, hdone⟩

omit [DecidableEq C] in
/-- Where every item of a message is skipped, nothing answers it. -/
lemma answersAt_eq_nil {n : ℕ} (h : ∀ i < n, ∃ item, (s.doneBy w)[pos i]? = some (item, .skipped)) :
    s.answersAt w pos n = [] := by
  refine List.filterMap_eq_nil_iff.mpr ?_
  intro i hi
  obtain ⟨item, hdone⟩ := h i (List.mem_range.mp hi)
  rw [hdone]
  rfl

/-- An item that does not close a request is skipped. -/
lemma Processed.skipped {i : ℕ} (h : Processed s w c frames pos) (hr : (lts cfg).Reach s)
    (hgen : generateMessageDataStream t endChannel isResponse id (cfg.name c) tgt data = .ok frames)
    (hpassed : Passed w (positions pos frames.length) c s) (hi : i < frames.length)
    (hnot : (decide (i + 1 = frames.length) && endChannel && !isResponse) = false) :
    ∃ item, (s.doneBy w)[pos i]? = some (item, .skipped) := by
  obtain ⟨item, v, hitem, -, hcloses, -⟩ := h.exists_item hr hgen hi
  obtain ⟨-, hdone⟩ | ⟨n, hcloses', -⟩ := hpassed.done_cases hr ⟨i, hi, rfl⟩ (h.done i hi) hitem
  · exact ⟨item, hdone⟩
  · simp [hcloses, hnot] at hcloses'

/-- The last item of a request is answered with a 404 response. -/
lemma Processed.answered {m : ℕ} (h : Processed s w c frames pos) (hr : (lts cfg).Reach s)
    (hgen : generateMessageDataStream t true false id (cfg.name c) tgt data = .ok frames)
    (hpassed : Passed w (positions pos frames.length) c s) (hm : frames.length = m + 1)
    (hvec : cfg.toVec (responseObject 404 "404 Not Found !") = .ok text) (htext : 0 < text.length)
    (hfits : text.length ≤ 7895)
    (hslice : fromSlice text = .ok (responseObject 404 "404 Not Found !")) :
    ∃ item n res r, (s.doneBy w)[pos m]? = some (item, .replied c n) ∧
      (s.link c).calls ⟨.reply item, n⟩ = some (.write res (.returned r)) ∧
      IsNotFound fromSlice (cfg.name c) id res := by
  have hlt : m < frames.length := by omega
  obtain ⟨item, v, hitem, hframe, hcloses, hfrom, -, hid⟩ := h.exists_item hr hgen hlt
  rw [hm, decide_eq_true rfl] at hcloses
  obtain ⟨hcloses', -⟩ | ⟨n, -, hdone⟩ := hpassed.done_cases hr ⟨m, hlt, rfl⟩ (h.done m hlt) hitem
  · simp [hcloses] at hcloses'
  · have hfin : (item, .replied c n) ∈ s.log.items.finished :=
      (List.mem_filter.mp (List.mem_of_getElem? hdone)).1
    obtain ⟨-, r, hret⟩ := (handled_of_reach hr).replied item c n hfin
    obtain ⟨res, hres, hcall⟩ := calls_of_replied hr hret
    exact ⟨item, n, res, r, hdone, hcall,
      hfrom ▸ isNotFound_of_notFoundReply hvec htext hfits hslice hframe hid hres⟩

/-- **One 404 for an undeliverable request, none otherwise.**  Let the frames of a message, sent by
`c` under its own name, be at any positions among the items of a worker, which has finished them; at
these positions it found nothing under the name of the target, and `c` under the name of the sender.
If the message ends its channel and is no response, one call on `c` answers it: it has written a 404
response for the sender on the channel of the message, and has returned.  No call answers any other
message.  The worker gets everything that is sent on the channel, and a call that answers is for one
item only. -/
theorem undeliverable_answered_once
    (hvec : cfg.toVec (responseObject 404 "404 Not Found !") = .ok text) (htext : 0 < text.length)
    (hfits : text.length ≤ 7895)
    (hslice : fromSlice text = .ok (responseObject 404 "404 Not Found !"))
    (hgen : generateMessageDataStream t endChannel isResponse id (cfg.name c) tgt data = .ok frames)
    (hdata : data ≠ [])
    (h : (lts cfg).ReachBy (fun s _ => Unreachable w (positions pos frames.length) c tgt s) s)
    (hmsg : Processed s w c frames pos) :
    (endChannel = true ∧ isResponse = false → ∃ item n res r,
      s.answersAt w pos frames.length = [(c, ⟨.reply item, n⟩)] ∧
      (s.link c).calls ⟨.reply item, n⟩ = some (.write res (.returned r)) ∧
      IsNotFound fromSlice (cfg.name c) id res) ∧
    (endChannel = false ∨ isResponse = true → s.answersAt w pos frames.length = []) ∧
    (∀ item ∈ s.log.items.accepted, getChannelId item.task.payload = .ok id → item ∈ s.sentTo w) ∧
    s.answers.Nodup ∧
    ∀ d item n call, (s.link d).calls ⟨.reply item, n⟩ = some call →
      (d, ⟨.reply item, n⟩) ∈ s.answers ∨ ∃ v, s.worker v = .replying item d n := by
  have hr := h.reach
  have hreply : ∀ v (task : MessageTask), task.FromFrame cfg.workerNumber v →
      ∃ res, notFoundReply cfg.toVec task = .ok res := by
    intro v task htask
    obtain ⟨id', hid', -⟩ := htask.worker
    exact ⟨_, notFoundReply_eq_ok htask hid' hvec htext hfits⟩
  have hnamed : NamedAt w (positions pos frames.length) c tgt s := by
    rintro p ⟨i, hi, rfl⟩ item hitem
    obtain ⟨item', v, hitem', -, -, hfrom, hto, -⟩ := hmsg.exists_item hr hgen hi
    obtain rfl := Option.some.inj (hitem'.symm.trans hitem)
    exact ⟨hfrom, hto⟩
  have hpassed := passed_of_reach h hreply hnamed
  have haccounted := accounted_of_reach hr
  obtain ⟨m, hm⟩ : ∃ m, frames.length = m + 1 := by
    obtain ⟨henc, rfl⟩ := generateMessageDataStream_eq_ok_iff.mp hgen
    refine Nat.exists_eq_succ_of_ne_zero ?_
    rw [streamFrames, List.length_map, List.length_range]
    exact fun hzero => hdata ((frameCount_eq_zero_iff henc).mp hzero)
  refine ⟨?_, ?_, fun item hmem hid => hmsg.mem_sentTo hr hgen (by omega) hmem hid,
    haccounted.nodup, haccounted.all⟩
  · rintro ⟨rfl, rfl⟩
    obtain ⟨item, n, res, r, hdone, hcall, hnotfound⟩ :=
      hmsg.answered hr hgen hpassed hm hvec htext hfits hslice
    have hbefore : s.answersAt w pos m = [] :=
      answersAt_eq_nil fun i hi => hmsg.skipped hr hgen hpassed (by omega) (by simp; omega)
    refine ⟨item, n, res, r, ?_, hcall, hnotfound⟩
    rw [answersAt] at hbefore
    rw [hm, answersAt, List.range_succ, List.filterMap_append, hbefore, List.nil_append,
      List.filterMap_cons, hdone]
    rfl
  · intro hno
    refine answersAt_eq_nil fun i hi => hmsg.skipped hr hgen hpassed hi ?_
    obtain rfl | rfl := hno <;> simp

/-- Parses the text of the 404 response. -/
def parseNotFound (bytes : List UInt8) : Except String Json :=
  if bytes = utf8Bytes notFoundText then .ok (responseObject 404 "404 Not Found !")
  else .error "another text"

/-- Connection `a` sends a request of two frames to `b`, and there is no `b`. -/
theorem undeliverable_answered_once_pair :
    ∃ (s : Room pair) (first item : Item ℕ) (n : ℕ) (res : List UInt8) (r : IoResult),
      s.log.items.finished = [(first, .skipped), (item, .replied 0 n)] ∧
      s.answersAt 0 (fun i => i) 2 = [(0, ⟨.reply item, n⟩)] ∧
      (s.link 0).calls ⟨.reply item, n⟩ = some (.write res (.returned r)) ∧
      IsNotFound parseNotFound "a" pairChannel res := by
  have hunreachable : ∀ s : Room pair, Quiet s ∨ s.conns = (listening []).conns →
      Unreachable 0 (positions (fun i => i) 2) 0 "b" s := by
    rintro s (hs | hs) -
    · refine ⟨?_, ?_⟩ <;>
      · intro item hw
        simpa [hw, WorkerStage.inflight] using hs.idle 0
    · rw [hs]
      exact ⟨fun _ _ => rfl, fun _ _ => rfl⟩
  obtain ⟨res, hres, h⟩ := reach_cutAnswered hunreachable
  have hlen : (utf8Bytes notFoundText).length = 85 := by decide
  have hroute (i : ℕ) : pair.route ⟨0, cutTask i⟩ = some 0 := by
    have hchannel : getChannelId (cutTask i).payload = .ok pairChannel :=
      getChannelId_messageFrame ..
    have hassign : pairChannel.assignTargetFast pair.workerNumber = .ok 0 := by decide
    simp [RoomConfig.route, hchannel, hassign]
  have hsent : (cutAnswered res).sentTo 0 = [⟨0, cutTask 0⟩, ⟨0, cutTask 1⟩] := by
    simp [sentTo, cutAnswered, served, accepted_cutSkipped, hroute]
  have hdone : (cutAnswered res).doneBy 0 =
      [(⟨0, cutTask 0⟩, .skipped), (⟨0, cutTask 1⟩, .replied 0 0)] := by
    simp [doneBy, finished_cutAnswered, hroute]
  have hmsg : Processed (cutAnswered res) 0 0 ([(cutTask 0).payload] ++ [(cutTask 1).payload])
      (fun i => i) := by
    refine ⟨?_, ?_⟩
    · intro i frame hframe
      refine ⟨⟨0, cutTask i⟩, ?_, rfl, ?_⟩
      all_goals
        rcases i with _ | _ | i
        · simp_all
        · simp_all
        · simp at hframe
    · intro i hi
      rw [hdone]
      exact hi
  have hslice :
    parseNotFound (utf8Bytes notFoundText) = .ok (responseObject 404 "404 Not Found !") :=
    if_pos rfl
  have hdata : longData ≠ [] := List.ne_nil_of_length_pos (by rw [length_longData]; omega)
  have hanswers : (cutAnswered res).answersAt 0 (fun i => i) 2 =
      [(0, ⟨.reply ⟨0, cutTask 1⟩, 0⟩)] := by
    simp [answersAt, hdone, answerOf, List.range_succ]
  obtain ⟨item, n, res', r, hone, hcall, hnotfound⟩ := (undeliverable_answered_once rfl (by omega)
    (by omega) hslice generate_cut hdata h hmsg).1 ⟨rfl, rfl⟩
  obtain ⟨rfl, rfl⟩ : ⟨0, cutTask 1⟩ = item ∧ 0 = n := by simpa using hanswers.symm.trans hone
  exact ⟨_, _, _, 0, res', r, finished_cutAnswered res, hone, hcall, hnotfound⟩

end Message

end Room

end Fernq
