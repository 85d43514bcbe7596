import Mathlib.Tactic
import Fernq.Server.NotFound

/-!
Whose name a frame carries: no task of the room compares the source name in a frame with the name of
the connection it was read from.

* `FromSource`: an item has a frame that was read on its connection, with the names in the frame.
* `Addressed`: what the calls of the workers are made for, and on which connections;
  `addressed_of_reach`.
* `source_is_chosen_by_sender`: frames are forwarded as they were read, and a 404 response goes to
  the connection under the source name in the frame.
-/

namespace Fernq

/-- A response is the one frame of a call of the server. -/
lemma exists_call_of_createMessageResponse {toVec : Json → Except String (List UInt8)}
    {name : String} {id : ChannelId} {state : ℕ} {body : String} {frame : List UInt8}
    (h : createMessageResponse toVec name id state body = .ok frame) :
    ∃ json, encodeResponseToBytes toVec state .json (some (.string body)) = .ok json ∧
      Encodable "fernq" name json ∧ 0 < frameCount "fernq" name json ∧
      frame = streamFrame .header true true id "fernq" name json 0 := by
  obtain ⟨json, hjson, h⟩ := Outcome.bind_eq_ok.mp h
  obtain ⟨frames, hgen, h⟩ := Outcome.bind_eq_ok.mp h
  obtain ⟨henc, rfl⟩ := generateMessageDataStream_eq_ok_iff.mp hgen
  have hone : streamFrames .header true true id "fernq" name json = [frame] := by
    cases hframes : streamFrames .header true true id "fernq" name json with
    | nil => simp [hframes, singleFrame] at h
    | cons first others =>
        cases others with
        | nil => simpa [hframes, singleFrame] using h
        | cons second others => simp [hframes, singleFrame] at h
  have hcount : frameCount "fernq" name json = 1 := by
    simpa [streamFrames] using congrArg List.length hone
  have hframe : streamFrame .header true true id "fernq" name json 0 = frame := by
    simpa [streamFrames, hcount] using hone
  exact ⟨json, hjson, henc, by omega, hframe.symm⟩

/-- A 404 response is from the server, and to the name it is made for. -/
lemma names_of_createMessageResponse {toVec : Json → Except String (List UInt8)} {name : String}
    {id : ChannelId} {state : ℕ} {body : String} {frame : List UInt8}
    (h : createMessageResponse toVec name id state body = .ok frame) :
    getMessageSourceTarget frame = .ok ("fernq", name) := by
  obtain ⟨json, -, henc, hpos, rfl⟩ := exists_call_of_createMessageResponse h
  exact getMessageSourceTarget_messageFrame
    (StreamCall.fieldsFit (c := ⟨.header, true, true, id, "fernq", name, json⟩) henc hpos)

namespace Room

open TcpConn

variable {C : Type} [DecidableEq C] {cfg : RoomConfig C} {s s' : Room cfg} {l : Label C} {c d : C}
  {item : Item C} {n : ℕ}

/-- The frame is one of the whole frames that the bytes from `c` begin with. -/
def ReadOn (s : Room cfg) (c : C) (frame : List UInt8) : Prop :=
  ∃ (frames : List (List UInt8)) (rest : List UInt8), s.log.received c = frames.flatten ++ rest ∧
    (∀ frame ∈ frames, WholeFrame frame) ∧ frame ∈ frames

/-- The item has a frame that was read on its connection, and its names are those in the frame. -/
structure FromSource (s : Room cfg) (item : Item C) : Prop where
  read : s.ReadOn item.source item.task.payload
  names : getMessageSourceTarget item.task.payload = .ok (item.task.fromName, item.task.toName)

lemma fromSource_of_accepted (hr : (lts cfg).Reach s) (hmem : item ∈ s.log.items.accepted) :
    s.FromSource item := by
  obtain ⟨w, hframe⟩ := (queued_of_reach hr).accepted item hmem
  obtain ⟨frames, rest, hread, hwhole⟩ := readFrames_of_reach hr item.source
  have hfrom : item ∈ s.acceptedFrom item.source := List.mem_filter.mpr ⟨hmem, by simp⟩
  have hsent : item.task.payload ∈ (s.acceptedFrom item.source).map (·.task.payload) :=
    List.mem_map_of_mem hfrom
  refine ⟨⟨frames, rest, hread.received, hwhole, ?_⟩, hframe.names⟩
  exact hread.sent.subset (List.mem_append_left _ hsent)

/-- The writes of the workers are made for items that were accepted: a frame is written to a
connection under its target name, and an answer to one under its source name. -/
structure Addressed (s : Room cfg) : Prop where
  replying : ∀ w item d n, s.worker w = .replying item d n → s.Target d item.task.fromName
  forward : ∀ d item n call, (s.link d).calls ⟨.forward item, n⟩ = some call →
    item ∈ s.log.items.accepted ∧ s.Target d item.task.toName
  reply : ∀ d item n call, (s.link d).calls ⟨.reply item, n⟩ = some call →
    item ∈ s.log.items.accepted ∧ s.Target d item.task.fromName

theorem addressed_of_reach (h : (lts cfg).Reach s) : Addressed s := by
  refine h.invariant ?_ ?_
  · rintro s rfl
    refine ⟨?_, by simp [opened, SharedConn.new], by simp [opened, SharedConn.new]⟩
    intro w item d n hw
    obtain heq | heq := worker_opened cfg w <;> simp [heq] at hw
  · intro s l s' hr hi hs
    have hr' := hr.step hs
    have hreplying : ∀ w item d n, s'.worker w = .replying item d n →
        s'.Target d item.task.fromName := by
      intro w item d n hw
      obtain hold | ⟨-, hconns⟩ := replying_of_step hs hw
      · exact (hi.replying w item d n hold).step hr hs
      · have hmapped := mapped_of_reach hr
        have htarget : s.Target d item.task.fromName :=
          ⟨hmapped.name _ _ hconns, (hmapped.stage _ _ hconns).joined⟩
        exact htarget.step hr hs
    refine ⟨hreplying, ?_, ?_⟩
    · intro d item n call hcall
      obtain ⟨before, hbefore⟩ | ⟨w, hw⟩ := called_or_waits_of_step hs hcall
      · obtain ⟨hmem, htarget⟩ := hi.forward d item n before hbefore
        exact ⟨accepted_mono hs hmem, htarget.step hr hs⟩
      · exact ⟨accepted_of_inflight (queued_of_reach hr') (by rw [hw]; rfl),
          (forwarded_of_reach hr').working w item d n hw⟩
    · intro d item n call hcall
      obtain ⟨before, hbefore⟩ | ⟨w, hw⟩ := called_or_waits_of_step hs hcall
      · obtain ⟨hmem, htarget⟩ := hi.reply d item n before hbefore
        exact ⟨accepted_mono hs hmem, htarget.step hr hs⟩
      · exact ⟨accepted_of_inflight (queued_of_reach hr') (by rw [hw]; rfl),
          hreplying w item d n hw⟩

lemma names_of_notFoundReply {toVec : Json → Except String (List UInt8)} {task : MessageTask}
    {res : List UInt8} (h : notFoundReply toVec task = .ok res) :
    getMessageSourceTarget res = .ok ("fernq", task.fromName) := by
  obtain ⟨id, -, h⟩ := Outcome.bind_eq_ok.mp h
  exact names_of_createMessageResponse h

/-- **The source is the sender's choice.**  A frame that the room writes to a target is a frame read
whole on its connection, byte for byte, so its source is the name that the sender put into it.  A
404 response is written to a connection registered under the source name in the frame that caused
it. -/
theorem source_is_chosen_by_sender (h : (lts cfg).Reach s) :
    (∀ d item n call, (s.link d).calls ⟨.forward item, n⟩ = some call →
      s.FromSource item ∧ call.data = item.task.payload ∧ s.Target d item.task.toName) ∧
    ∀ d item n call, (s.link d).calls ⟨.reply item, n⟩ = some call →
      s.FromSource item ∧ getMessageSourceTarget call.data = .ok ("fernq", item.task.fromName) ∧
        s.Target d item.task.fromName := by
  constructor
  · intro d item n call hcall
    obtain ⟨hmem, htarget⟩ := (addressed_of_reach h).forward d item n call hcall
    obtain ⟨stage, rfl⟩ := (called_of_reach h).makes d _ _ hcall
    exact ⟨fromSource_of_accepted h hmem, rfl, htarget⟩
  · intro d item n call hcall
    obtain ⟨hmem, htarget⟩ := (addressed_of_reach h).reply d item n call hcall
    obtain ⟨res, stage, hres, rfl⟩ := (called_of_reach h).makes d _ _ hcall
    exact ⟨fromSource_of_accepted h hmem, names_of_notFoundReply hres, htarget⟩

/-! ### A name that is not the sender's -/

section Forged

/-- A request of one byte that says it is from `b`. -/
def forgedTask (tgt : String) : MessageTask :=
  streamTask .header true false pairChannel "b" tgt [7] 0

/-- The room `pair` when connection 0, which is `a`, has sent a request that says it is from `b`. -/
def forged (tgt : String) : Room pair :=
  (listening (forgedTask tgt).payload).sent 0 [] 0 (forgedTask tgt)

lemma reach_forged {tgt : String} (henc : Encodable "b" tgt [7]) :
    (lts pair).Reach (forged tgt) := by
  have hcount : 0 < frameCount "b" tgt [7] :=
    Nat.pos_of_ne_zero (by simp [frameCount_eq_zero_iff henc])
  have hworker : (listening (forgedTask tgt).payload).worker 0 ≠ .ended := by
    simp [listening, opened, pair]
  have h : (lts pair).Reach (listening (forgedTask tgt).payload) :=
    reach_listening (fun _ _ => trivial) _
  exact reach_streamFrame h (fun _ _ => trivial) rfl (List.append_nil _).symm henc hcount
    (by decide) (by decide) hworker (Nat.zero_lt_succ 1023)

lemma forged_shardFree (tgt : String) (shard : ℕ) : (forged tgt).ShardFree shard :=
  ((entryless_absent.update 0 .header (by simp)).update 0 .header (by simp)).shardFree shard

/-- The room `forged` when connection 1, which is `b`, has registered too. -/
def forgedTwo (tgt : String) : Room pair :=
  { forged tgt with
    adding := Function.update (forged tgt).adding 1 .returned
    listener := Function.update (forged tgt).listener 1 .header
    tasks := (forged tgt).tasks ++ [.listener 1]
    conns := Function.update (forged tgt).conns "b" (some 1) }

lemma entryless_forgedTwo (tgt : String) : Entryless (forgedTwo tgt).listener :=
  ((entryless_absent.update 0 .header (by simp)).update 0 .header (by simp)).update 1 .header
    (by simp)

lemma reach_forgedTwo {tgt : String} (henc : Encodable "b" tgt [7]) :
    (lts pair).Reach (forgedTwo tgt) := by
  have hfree := (entryless_absent.update 0 .header (by simp)).update 0 .header (by simp)
  have h := reach_spawned (c := 1) (reach_forged henc) (fun _ _ => trivial) rfl rfl rfl
  have hfree := hfree.update 1 .spawned (by simp)
  have h := reach_registered (c := 1) h (fun _ _ => trivial) rfl rfl (hfree.shardFree 0) rfl
  rw [Function.update_idem] at h
  exact h

/-- Connection 0 is `a` and says it is `b`: its frame is forwarded with the source `b`. -/
lemma forged_forwarded : ∃ (s : Room pair) (item : Item ℕ) (call : Call), (lts pair).Reach s ∧
    item.source = 0 ∧ (s.link 0).calls ⟨.forward item, 0⟩ = some call ∧
    getMessageSourceTarget call.data = .ok ("b", "a") := by
  have henc : Encodable "b" "a" [7] := by constructor <;> decide
  have hfit :=
    StreamCall.fieldsFit (c := ⟨.header, true, false, pairChannel, "b", "a", [7]⟩) (i := 0) henc
    (by decide)
  have h := reach_forwarded (d := 0) (n := 0) (w := 0) (reach_forged henc) trivial rfl rfl
    (forged_shardFree "a" 0) rfl rfl rfl rfl rfl trivial fun _ _ _ _ => trivial
  exact ⟨_, ⟨0, forgedTask "a"⟩, _, h, rfl, SharedConn.calls_set_self,
    getMessageSourceTarget_messageFrame hfit⟩

/-- Connection 0 is `a` and says it is `b`: the 404 response goes to `b`. -/
lemma forged_answered : ∃ (s : Room pair) (item : Item ℕ) (call : Call), (lts pair).Reach s ∧
    item.source = 0 ∧ (s.link 1).calls ⟨.reply item, 0⟩ = some call := by
  have henc : Encodable "b" "c" [7] := by constructor <;> decide
  have hreach := reach_forgedTwo henc
  obtain ⟨w, hframe⟩ :=
    (queued_of_reach hreach).accepted ⟨0, forgedTask "c"⟩ (List.mem_singleton_self _)
  have hchannel : getChannelId (forgedTask "c").payload = .ok pairChannel :=
    getChannelId_messageFrame ..
  have hlen : (utf8Bytes notFoundText).length = 85 := by decide
  have hres : notFoundReply pair.toVec (forgedTask "c") = .ok _ :=
    notFoundReply_eq_ok hframe hchannel rfl (by omega) (by omega)
  have h := reach_replied (d := 1) (n := 0) (w := 0) hreach trivial rfl rfl
    (entryless_forgedTwo "c").shardFree rfl (by decide) rfl hres rfl rfl rfl rfl
    (fun _ _ => trivial) fun _ _ _ _ => trivial
  exact ⟨_, ⟨0, forgedTask "c"⟩, _, h, rfl, SharedConn.calls_set_self⟩

/-- The frame that is forwarded with the source `b` was read on connection 0 as it is. -/
theorem source_is_chosen_by_sender_forged : ∃ (s : Room pair) (item : Item ℕ) (call : Call),
    (s.link 0).calls ⟨.forward item, 0⟩ = some call ∧ s.FromSource item ∧
      call.data = item.task.payload ∧ s.Target 0 item.task.toName := by
  obtain ⟨s, item, call, hreach, -, hcall, -⟩ := forged_forwarded
  exact ⟨s, item, call, hcall, (source_is_chosen_by_sender hreach).1 0 item 0 call hcall⟩

/-- Connection 0 is `a` and says it is `b`: a frame is written that carries another source than the
name of its connection, and a 404 response is written to a connection that is not the sender. -/
theorem source_can_be_forged :
    (∃ (s : Room pair) (item : Item ℕ) (call : Call), (lts pair).Reach s ∧
      (s.link 0).calls ⟨.forward item, 0⟩ = some call ∧ pair.name item.source = "a" ∧
      getMessageSourceTarget call.data = .ok ("b", "a")) ∧
    ∃ (s : Room pair) (item : Item ℕ) (call : Call), (lts pair).Reach s ∧
      (s.link 1).calls ⟨.reply item, 0⟩ = some call ∧ pair.name item.source = "a" ∧
      pair.name 1 = "b" := by
  obtain ⟨s, item, call, hreach, hsource, hcall, hnames⟩ := forged_forwarded
  obtain ⟨s', item', call', hreach', hsource', hcall'⟩ := forged_answered
  exact ⟨⟨s, item, call, hreach, hcall, by rw [hsource]; rfl, hnames⟩,
    s', item', call', hreach', hcall', by rw [hsource']; rfl, rfl⟩

end Forged

end Room

end Fernq
