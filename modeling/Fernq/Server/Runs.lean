import Mathlib.Tactic
import Fernq.Server.Calls
import Fernq.Server.Listen

/-!
Runs of a room that succeed, in rooms that keep a condition `P`: a connection is added, registers,
has a frame read, and has a frame written.

* `Alike`: states that differ only in what `P` does not see.
* `reach_spawned`, `reach_registered`: `add_conn` spawns a listener, and it inserts its connection.
* `reach_displaced`: a listener inserts its connection in the place of another.
* `reach_read`, `reach_sent`: a listener reads a frame, and sends it to a worker.
* `reach_listenRound`, `reach_listen`: the reading loop of a listener, round by round.
* `reach_written`: a write puts its data on the socket and returns `Ok`.
-/

namespace Fernq

namespace Room

open TcpConn

variable {C : Type} [DecidableEq C] {cfg : RoomConfig C} {s s' : Room cfg} {c : C}
  {P : Room cfg → Prop}

/-- The map, the token, the workers and the connections are the same. -/
structure Alike (s s' : Room cfg) : Prop where
  conns : s'.conns = s.conns
  cancelToken : s'.cancelToken = s.cancelToken
  worker : s'.worker = s.worker
  link : s'.link = s.link

/-! ### Registration -/

/-- `add_conn` in an open room whose lock is free. -/
lemma reach_spawned (h : (lts cfg).ReachBy (fun s _ => P s) s) (hP : ∀ s', s.Alike s' → P s')
    (hadd : s.adding c = .absent) (hopen : s.isClosed = false) (hfree : s.workerSet = none) :
    (lts cfg).ReachBy (fun s _ => P s)
      { s with
        adding := Function.update s.adding c .returned
        listener := Function.update s.listener c .spawned
        tasks := s.tasks ++ [.listener c] } := by
  have h := h.step (hP _ ⟨rfl, rfl, rfl, rfl⟩) (.add (.call hadd))
  have h := h.step (hP _ ⟨rfl, rfl, rfl, rfl⟩) (.add (.passFirst (Function.update_self ..) hopen))
  have h := h.step (hP _ ⟨rfl, rfl, rfl, rfl⟩) (.add (.lock (Function.update_self ..) hfree))
  have h := h.step (hP _ ⟨rfl, rfl, rfl, rfl⟩) (.add (.passSecond (Function.update_self ..) hopen))
  have h := h.step (hP _ ⟨rfl, rfl, rfl, rfl⟩) (.add (.spawn (Function.update_self ..)))
  simpa only [Function.update_idem, hfree] using h

/-- No listener closes a connection it has replaced. -/
def Entryless (listener : C → ListenerStage C) : Prop :=
  ∀ c old n, listener c ≠ .replacing old n

omit [DecidableEq C] in
lemma entryless_absent : Entryless (fun _ : C => (.absent : ListenerStage C)) := by
  intro c old n h
  cases h

lemma Entryless.update {listener : C → ListenerStage C} (h : Entryless listener) (c : C)
    (stage : ListenerStage C) (hstage : ∀ old n, stage ≠ .replacing old n) :
    Entryless (Function.update listener c stage) := by
  intro d old n
  by_cases hdc : d = c
  · simpa [hdc] using hstage old n
  · simpa [hdc] using h d old n

omit [DecidableEq C] in
lemma Entryless.shardFree (h : Entryless s.listener) (shard : ℕ) : s.ShardFree shard :=
  fun d old n hd => absurd hd (h d old n)

/-- A shard stays free while a listener registers. -/
lemma ShardFree.start {shard : ℕ} (h : s.ShardFree shard) :
    ({ s with listener := Function.update s.listener c .registering } : Room cfg).ShardFree
      shard := by
  intro d old n hd
  by_cases hdc : d = c
  · simp [hdc] at hd
  · exact h d old n (by simpa [hdc] using hd)

omit [DecidableEq C] in
/-- What is found in a shard when `c` alone is in the map. -/
lemma mem_shard_of_alone (hconns : ∀ name d, s.conns name = some d ↔ name = cfg.name c ∧ d = c)
    (i : ℕ) (d : C) : d ∈ (if cfg.shardOf (cfg.name c) = i then [c] else []) ↔
      ∃ name, cfg.shardOf name = i ∧ s.conns name = some d := by
  simp only [hconns, exists_eq_left, and_left_comm, exists_eq_left]
  split_ifs with hi <;> simp [hi]

/-- A listener registers under a name that is free. -/
lemma reach_registered (h : (lts cfg).ReachBy (fun s _ => P s) s)
    (hP : ∀ s', s.Alike s' → P s') (hc : s.listener c = .spawned) (hrun : s.cancelToken = false)
    (hshard : s.ShardFree (cfg.shardOf (cfg.name c))) (hname : s.conns (cfg.name c) = none) :
    (lts cfg).ReachBy (fun s _ => P s)
      { s with
        listener := Function.update s.listener c .header
        conns := Function.update s.conns (cfg.name c) (some c) } := by
  have h := h.step (hP _ ⟨rfl, rfl, rfl, rfl⟩) (.listener (.start hc hrun))
  have h := h.step (hP _ ⟨rfl, rfl, rfl, rfl⟩)
    (.listener (.insert (Function.update_self ..) hshard.start hname))
  simpa only [Function.update_idem] using h

/-- A listener registers under a name that another connection has. -/
lemma reach_displaced {old : C} {n : ℕ} (h : (lts cfg).ReachBy (fun s _ => P s) s)
    (hP : ∀ s', s.Alike s' → P s') (hc : s.listener c = .spawned) (hrun : s.cancelToken = false)
    (hshard : s.ShardFree (cfg.shardOf (cfg.name c))) (hname : s.conns (cfg.name c) = some old)
    (hfresh : s.Fresh old (.replace c) n) :
    (lts cfg).ReachBy (fun s _ => P s)
      { s with
        listener := Function.update s.listener c (.replacing old n)
        conns := Function.update s.conns (cfg.name c) (some c)
        link := s.calling old (.replace c) n (.close .start)
        log := { s.log with displaced := Function.update s.log.displaced old true } } := by
  have h := h.step (hP _ ⟨rfl, rfl, rfl, rfl⟩) (.listener (.start hc hrun))
  have h := h.step (hP _ ⟨rfl, rfl, rfl, rfl⟩)
    (.listener (.replace old n (Function.update_self ..) hshard.start hname hfresh))
  simpa only [Function.update_idem, calling] using h

/-! ### Frames -/

/-- A listener reads a frame. -/
lemma reach_read {head body rest : List UInt8} {t : MessageType} {f : MessageFlags}
    (h : (lts cfg).ReachBy (fun s _ => P s) s) (hP : ∀ s', s.Alike s' → P s')
    (hc : s.listener c = .header) (hunread : s.unread c = head ++ (body ++ rest))
    (hlen : head.length = fixedHeaderLen) (hhead : listenHeader head = .read t f body.length) :
    (lts cfg).ReachBy (fun s _ => P s)
      { s with
        listener := Function.update s.listener c (afterPayload cfg.workerNumber t f head body)
        unread := Function.update s.unread c rest } := by
  have hstage : (afterHeader head : ListenerStage C) = .payload head t f body.length := by
    rw [afterHeader, hhead]
  have h := h.step (hP _ ⟨rfl, rfl, rfl, rfl⟩)
    (.listener (.readHeader head (body ++ rest) hc hunread hlen))
  rw [hstage] at h
  have h := h.step (hP _ ⟨rfl, rfl, rfl, rfl⟩)
    (.listener (.readPayload head t f body.length body rest (Function.update_self ..)
      (Function.update_self ..) rfl))
  simpa only [Function.update_idem] using h

/-- The room once the listener of `c` has sent `task` to worker `w`, with `rest` before it. -/
def sent (s : Room cfg) (c : C) (rest : List UInt8) (w : ℕ) (task : MessageTask) : Room cfg :=
  { s with
    listener := Function.update s.listener c .header
    unread := Function.update s.unread c rest
    queue := Function.update s.queue w (s.queue w ++ [⟨c, task⟩])
    link := Function.update s.link c { s.link c with conn := (s.link c).conn.resetHeartbeats }
    log := { s.log with items := s.log.items.push ⟨c, task⟩ } }

/-- A listener reads a frame and sends it to a worker. -/
lemma reach_sent {head body rest : List UInt8} {t : MessageType} {f : MessageFlags} {w : ℕ}
    {task : MessageTask} (h : (lts cfg).ReachBy (fun s _ => P s) s)
    (hP : ∀ s', s.Alike s' → P s') (hc : s.listener c = .header)
    (hunread : s.unread c = head ++ (body ++ rest)) (hlen : head.length = fixedHeaderLen)
    (hhead : listenHeader head = .read t f body.length)
    (hbody : listenFrame cfg.workerNumber t f head body = .send w task)
    (hw : s.worker w ≠ .ended) (hroom : (s.queue w).length < queueCapacity) :
    (lts cfg).ReachBy (fun s _ => P s) (s.sent c rest w task) := by
  have hstage : (afterPayload cfg.workerNumber t f head body : ListenerStage C) =
      .sending w task := by
    rw [afterPayload, hbody]
  have h := reach_read h hP hc hunread hlen hhead
  rw [hstage] at h
  have h := h.step (hP _ ⟨rfl, rfl, rfl, rfl⟩)
    (.listener (.send w task (Function.update_self ..) hw hroom))
  have h := h.step (hP _ ⟨rfl, rfl, rfl, rfl⟩) (.listener (.reset (Function.update_self ..)))
  simp only [Function.update_idem] at h
  exact h

/-- A listener reads a frame of a stream and sends it to the worker of its channel. -/
lemma reach_streamFrame {t : MessageType} {endChannel isResponse : Bool} {id : ChannelId}
    {src tgt : String} {data rest : List UInt8} {i w : ℕ}
    (h : (lts cfg).ReachBy (fun s _ => P s) s) (hP : ∀ s', s.Alike s' → P s')
    (hc : s.listener c = .header)
    (hunread : s.unread c = streamFrame t endChannel isResponse id src tgt data i ++ rest)
    (henc : Encodable src tgt data) (hi : i < frameCount src tgt data) (ht : t ≠ .pong)
    (hassign : id.assignTargetFast cfg.workerNumber = .ok w) (hw : s.worker w ≠ .ended)
    (hroom : (s.queue w).length < queueCapacity) :
    (lts cfg).ReachBy (fun s _ => P s)
      (s.sent c rest w (streamTask t endChannel isResponse id src tgt data i)) := by
  obtain ⟨header, body, flags, hcut, hlen, hread, hsend⟩ :=
    exists_listen_streamFrame henc hi ht hassign
  refine reach_sent h hP hc ?_ hlen hread hsend hw hroom
  rw [hunread, hcut, List.append_assoc]

/-! ### Rounds of the reading loop -/

/-- The item that an event of the listener of `c` brings to worker `w`. -/
def itemFor (c : C) (w : ℕ) : ListenEvent → Option (Item C)
  | .enqueue w' task => if w' = w then some ⟨c, task⟩ else none
  | .reset => none

/-- The listener of `c` waits for a header, and reads what `r` will read. -/
structure Reads (s : Room cfg) (c : C) (r : BufReader) : Prop where
  stage : s.listener c = .header
  unread : s.unread c = r.pendingBytes

/-- A round of the reading loop is a run of the listener in its room, as long as the worker that
gets the task runs and has room in its queue. -/
lemma reach_listenRound {r r' : BufReader} {events : List ListenEvent} (h : (lts cfg).Reach s)
    (hreads : s.Reads c r) (hround : listenRound cfg.workerNumber r = .next events r')
    (hroom : ∀ w task, .enqueue w task ∈ events →
      s.worker w ≠ .ended ∧ (s.queue w).length < queueCapacity) :
    ∃ s', (lts cfg).Reach s' ∧ s'.Reads c r' ∧ s'.worker = s.worker ∧
      ∀ w, s'.queue w = s.queue w ++ events.filterMap (itemFor c w) := by
  obtain ⟨header, payload, t, f, hframe⟩ := readFrame_of_listenRound hround
  have hunread : s.unread c = header ++ (payload ++ r'.pendingBytes) := by
    rw [hreads.unread, hframe.bytes, List.append_assoc]
  obtain ⟨hreset, rfl⟩ | ⟨w, task, hsend, rfl⟩ := hframe.events_eq
  · -- a pong: the counter is reset and nothing is sent
    have hstage :
      (afterPayload cfg.workerNumber t f header payload : ListenerStage C) = .resetting := by
      rw [afterPayload, hreset]
    have hread := reach_read h (fun _ _ => trivial) hreads.stage hunread hframe.header_length
      hframe.listenHeader_eq
    rw [hstage] at hread
    have hdone := Lts.Reach.step hread (.listener (.reset (Function.update_self ..)))
    refine ⟨_, hdone, ⟨Function.update_self .., Function.update_self ..⟩, rfl, fun w => ?_⟩
    exact (List.append_nil _).symm
  · obtain ⟨hw, hspace⟩ := hroom w task List.mem_cons_self
    have hsent := reach_sent h (fun _ _ => trivial) hreads.stage hunread hframe.header_length
      hframe.listenHeader_eq hsend hw hspace
    refine ⟨_, hsent, ⟨Function.update_self .., Function.update_self ..⟩, rfl, fun w' => ?_⟩
    by_cases hw' : w = w'
    · subst hw'
      simp [sent, itemFor]
    · simp [sent, itemFor, hw', Ne.symm hw']

/-- The reading loop is a run of the listener in its room, as long as the workers that get tasks run
and have room for all of them in their queues. -/
lemma reach_listen {r r' : BufReader} {events : List ListenEvent} (h : (lts cfg).Reach s)
    (hreads : s.Reads c r) (hlisten : listen cfg.workerNumber r = (events, .header r'))
    (hworker : ∀ w task, .enqueue w task ∈ events → s.worker w ≠ .ended)
    (hroom : ∀ w, (s.queue w).length + (events.filterMap (itemFor c w)).length ≤ queueCapacity) :
    ∃ s', (lts cfg).Reach s' ∧ s'.Reads c r' ∧
      ∀ w, s'.queue w = s.queue w ++ events.filterMap (itemFor c w) := by
  induction hn : r.pendingBytes.length using Nat.strong_induction_on generalizing r s events with
  | _ n ih =>
    cases hround : listenRound cfg.workerNumber r with
    | stop ended =>
        rw [listen_of_stop hround] at hlisten
        cases hlisten
        have hsame : r' = r := reader_of_listenRound hround
        refine ⟨s, h, hsame ▸ hreads, fun w => ?_⟩
        exact (List.append_nil _).symm
    | next first between =>
        rw [listen_of_next hround] at hlisten
        obtain ⟨rfl, hended⟩ := Prod.mk.inj hlisten
        have hspace : ∀ w task, .enqueue w task ∈ first →
            s.worker w ≠ .ended ∧ (s.queue w).length < queueCapacity := by
          intro w task hmem
          refine ⟨hworker w task (List.mem_append_left _ hmem), ?_⟩
          have hitem : 0 < (first.filterMap (itemFor c w)).length :=
            List.length_pos_of_mem (List.mem_filterMap.mpr ⟨_, hmem, if_pos rfl⟩)
          have hall := hroom w
          rw [List.filterMap_append, List.length_append] at hall
          omega
        obtain ⟨s₁, hr₁, hreads₁, hworker₁, hqueue₁⟩ := reach_listenRound h hreads hround hspace
        have hworker' : ∀ w task, .enqueue w task ∈ (listen cfg.workerNumber between).1 →
            s₁.worker w ≠ .ended := by
          intro w task hmem
          rw [hworker₁]
          exact hworker w task (List.mem_append_right _ hmem)
        have hroom' : ∀ w, (s₁.queue w).length +
            ((listen cfg.workerNumber between).1.filterMap (itemFor c w)).length
              ≤ queueCapacity := by
          intro w
          have hall := hroom w
          rw [List.filterMap_append, List.length_append] at hall
          rw [hqueue₁, List.length_append]
          omega
        obtain ⟨s₂, hr₂, hreads₂, hqueue₂⟩ := ih between.pendingBytes.length
          (hn ▸ pendingBytes_lt_of_listenRound hround) hr₁ hreads₁ (Prod.ext rfl hended) hworker'
          hroom' rfl
        refine ⟨s₂, hr₂, hreads₂, fun w => ?_⟩
        rw [hqueue₂, hqueue₁, List.filterMap_append, List.append_assoc]

/-! ### Writes -/

/-- Call `k` on `c` is at `call`, with the shared fields `conn`, and the writes of the room got
their locks in the order `acquired`. -/
def inCall (s : Room cfg) (c : C) (k : CallId C) (conn : TcpConn (CallId C)) (call : Call)
    (acquired : List (C × CallId C)) : Room cfg :=
  { s with
    link := Function.update s.link c ((s.link c).set k conn call)
    log := { s.log with acquired := acquired } }

section InCall

variable {k : CallId C} {conn conn' : TcpConn (CallId C)} {call call' : Call}
  {acquired : List (C × CallId C)}

lemma link_inCall : (s.inCall c k conn call acquired).link c = (s.link c).set k conn call :=
  Function.update_self ..

/-- A step of the call. -/
lemma step_inCall (hs : CallStep k conn call conn' call') :
    Step (s.inCall c k conn call acquired) (.call c k)
      (s.inCall c k conn' call'
        (acquired ++ (conn'.acquired.drop conn.acquired.length).map (Prod.mk c))) := by
  have hk : ((s.inCall c k conn call acquired).link c).calls k = some call := by
    rw [link_inCall, SharedConn.calls_set_self]
  have hconn : ((s.inCall c k conn call acquired).link c).conn = conn := by
    rw [link_inCall, SharedConn.conn_set]
  have hstep : CallStep k ((s.inCall c k conn call acquired).link c).conn call conn' call' := by
    rwa [hconn]
  have h := Step.call hk hstep
  have hlink : Function.update (s.inCall c k conn call acquired).link c
      (((s.inCall c k conn call acquired).link c).set k conn' call') =
        Function.update s.link c ((s.link c).set k conn' call') := by
    rw [link_inCall, SharedConn.set_set, inCall]
    exact Function.update_idem ..
  rw [hconn, hlink] at h
  exact h

lemma reach_callStep (h : (lts cfg).ReachBy (fun s _ => P s) (s.inCall c k conn call acquired))
    (hP : P (s.inCall c k conn call acquired)) (hs : CallStep k conn call conn' call') :
    (lts cfg).ReachBy (fun s _ => P s)
      (s.inCall c k conn' call'
        (acquired ++ (conn'.acquired.drop conn.acquired.length).map (Prod.mk c))) :=
  h.step hP (step_inCall hs)

/-- A step of the call that does not take the writer lock for a write. -/
lemma reach_callStep_of_eq
    (h : (lts cfg).ReachBy (fun s _ => P s) (s.inCall c k conn call acquired))
    (hP : P (s.inCall c k conn call acquired)) (hs : CallStep k conn call conn' call')
    (hacquired : conn'.acquired = conn.acquired) :
    (lts cfg).ReachBy (fun s _ => P s) (s.inCall c k conn' call' acquired) := by
  have h := reach_callStep h hP hs
  rwa [hacquired, List.drop_length, List.map_nil, List.append_nil] at h

/-- A write to an open connection puts its data on the socket and returns `Ok`. -/
lemma reach_written {data : List UInt8}
    (h : (lts cfg).ReachBy (fun s _ => P s) (s.inCall c k conn (.write data .start) acquired))
    (hP : ∀ conn stage acquired, (∀ e, stage ≠ .returned (.error e)) →
      P (s.inCall c k conn (.write data stage) acquired))
    (hopen : conn.cancelToken = false) (hfree : conn.writer = none)
    (hbroken : conn.broken = false) :
    (lts cfg).ReachBy (fun s _ => P s)
      (s.inCall c k
        { conn with writer := none, out := conn.out ++ data, acquired := conn.acquired ++ [k] }
        (.write data (.returned (.ok ()))) (acquired ++ [(c, k)])) := by
  have hput : ∀ conn : TcpConn (CallId C), conn.broken = false →
      CallStep k conn (.write data (.sending data)) { conn with out := conn.out ++ data }
        (.write data (.sending [])) := fun conn hconn => by
    have hs : CallStep k conn (.write data (.sending (data ++ [])))
        { conn with out := conn.out ++ data } (.write data (.sending [])) := .put data [] hconn
    rwa [List.append_nil] at hs
  have h := reach_callStep_of_eq h (hP _ _ _ nofun) (.fastOpen hopen) rfl
  have h := reach_callStep h (hP _ _ _ nofun) (.writeLock hfree)
  rw [List.drop_left, List.map_singleton] at h
  have h := reach_callStep_of_eq h (hP _ _ _ nofun) (.slowOpen hopen) rfl
  have h := reach_callStep_of_eq h (hP _ _ _ nofun) (hput _ hbroken) rfl
  have h := reach_callStep_of_eq h (hP _ _ _ nofun) .writeAllOk rfl
  exact reach_callStep_of_eq h (hP _ _ _ nofun) (.writeUnlock (.ok ())) rfl

end InCall

/-- The room once a write of `data` on `d`, made by `caller` as call `n`, has returned `Ok`, and the
worker that made it has finished its item. -/
def served (s : Room cfg) (w : ℕ) (rest : List (Item C)) (d : C) (caller : Caller C) (n : ℕ)
    (data : List UInt8) (fate : Fate C) : Room cfg :=
  { s with
    worker := Function.update s.worker w .idle
    queue := Function.update s.queue w rest
    link := Function.update s.link d ((s.link d).set ⟨caller, n⟩
      { (s.link d).conn with
        writer := none
        out := (s.link d).conn.out ++ data
        acquired := (s.link d).conn.acquired ++ [⟨caller, n⟩] }
      (.write data (.returned (.ok ()))))
    log := { s.log with
      items := s.log.items.finish (some w) fate
      acquired := s.log.acquired ++ [(d, ⟨caller, n⟩)] } }

section Served

variable {w n : ℕ} {rest : List (Item C)} {d : C} {caller : Caller C} {data : List UInt8}
  {fate : Fate C}

lemma calls_served : ((s.served w rest d caller n data fate).link d).calls ⟨caller, n⟩ =
    some (.write data (.returned (.ok ()))) := by
  rw [served]
  simp only [Function.update_self]
  exact SharedConn.calls_set_self

lemma calls_served_of_ne {k : CallId C} (hk : k ≠ ⟨caller, n⟩) :
    ((s.served w rest d caller n data fate).link d).calls k = (s.link d).calls k := by
  rw [served]
  simp only [Function.update_self]
  exact SharedConn.calls_set_of_ne hk

end Served

section Items

variable {w n : ℕ} {item : Item C} {rest : List (Item C)} {d : C}

/-- A worker forwards the first item of its queue. -/
lemma reach_forwarded (h : (lts cfg).ReachBy (fun s _ => P s) s) (hs : P s)
    (hidle : s.worker w = .idle) (hqueue : s.queue w = item :: rest)
    (hshard : s.ShardFree (cfg.shardOf item.task.toName))
    (hconns : s.conns item.task.toName = some d) (hfresh : s.Fresh d (.forward item) n)
    (hopen : (s.link d).conn.cancelToken = false) (hfree : (s.link d).conn.writer = none)
    (hbroken : (s.link d).conn.broken = false)
    (hlookup : P { s with
      worker := Function.update s.worker w (.lookup item)
      queue := Function.update s.queue w rest })
    (hwrite : ∀ conn stage acquired, (∀ e, stage ≠ .returned (.error e)) →
      P (inCall { s with
          worker := Function.update s.worker w (.forwarding item d n)
          queue := Function.update s.queue w rest } d ⟨.forward item, n⟩ conn
        (.write item.task.payload stage) acquired)) :
    (lts cfg).ReachBy (fun s _ => P s)
      (s.served w rest d (.forward item) n item.task.payload (.forwarded d n)) := by
  have h := h.step hs (.worker (.recv item rest hidle hqueue))
  have h := h.step hlookup
    (.worker (.found item d n (Function.update_self ..) hshard hconns hfresh))
  simp only [Function.update_idem] at h
  have h := reach_written h hwrite hopen hfree hbroken
  have h := h.step (hwrite _ _ _ nofun) (.worker (.forwarded item d n (.ok ())
    (Function.update_self ..) (.inr ⟨_, by rw [link_inCall, SharedConn.calls_set_self]⟩)))
  simp only [inCall, Function.update_idem] at h
  exact h

/-- A worker answers the first item of its queue. -/
lemma reach_replied {res : List UInt8} (h : (lts cfg).ReachBy (fun s _ => P s) s) (hs : P s)
    (hidle : s.worker w = .idle) (hqueue : s.queue w = item :: rest)
    (hshard : ∀ shard, s.ShardFree shard) (hnone : s.conns item.task.toName = none)
    (hlast : item.task.closesRequest = true) (hconns : s.conns item.task.fromName = some d)
    (hres : notFoundReply cfg.toVec item.task = .ok res) (hfresh : s.Fresh d (.reply item) n)
    (hopen : (s.link d).conn.cancelToken = false) (hfree : (s.link d).conn.writer = none)
    (hbroken : (s.link d).conn.broken = false)
    (hlookup : ∀ stage, stage = .lookup item ∨ stage = .replyLookup item →
      P { s with
        worker := Function.update s.worker w stage
        queue := Function.update s.queue w rest })
    (hwrite : ∀ conn stage acquired, (∀ e, stage ≠ .returned (.error e)) →
      P (inCall { s with
          worker := Function.update s.worker w (.replying item d n)
          queue := Function.update s.queue w rest } d ⟨.reply item, n⟩ conn
        (.write res stage) acquired)) :
    (lts cfg).ReachBy (fun s _ => P s)
      (s.served w rest d (.reply item) n res (.replied d n)) := by
  have h := h.step hs (.worker (.recv item rest hidle hqueue))
  have h := h.step (hlookup _ (.inl rfl))
    (.worker (.notFound item (Function.update_self ..) (hshard _) hnone hlast))
  simp only [Function.update_idem] at h
  have h := h.step (hlookup _ (.inr rfl))
    (.worker (.reply item d n res (Function.update_self ..) (hshard _) hconns hres hfresh))
  simp only [Function.update_idem] at h
  have h := reach_written h hwrite hopen hfree hbroken
  have h := h.step (hwrite _ _ _ nofun) (.worker (.replied item d n (.ok ())
    (Function.update_self ..) (.inr ⟨_, by rw [link_inCall, SharedConn.calls_set_self]⟩)))
  simp only [inCall, Function.update_idem] at h
  exact h

end Items

/-! ### Two connections -/

/-- No worker is busy, nothing has been called, and the room is not cancelled. -/
structure Quiet (s : Room cfg) : Prop where
  running : s.cancelToken = false
  idle : ∀ w, (s.worker w).inflight = []
  calls : ∀ c k, (s.link c).calls k = none

omit [DecidableEq C] in
lemma Quiet.alike (h : Quiet s) (ha : s.Alike s') : Quiet s' :=
  ⟨ha.cancelToken ▸ h.running, by rw [ha.worker]; exact h.idle, by rw [ha.link]; exact h.calls⟩

lemma Quiet.sent (h : Quiet s) (rest : List UInt8) (w : ℕ) (task : MessageTask) :
    Quiet (s.sent c rest w task) := by
  refine ⟨h.running, h.idle, ?_⟩
  intro d k
  by_cases hd : d = c
  · subst hd
    simpa [Room.sent] using h.calls d k
  · simpa [Room.sent, hd] using h.calls d k

/-- The text of the 404 response. -/
def notFoundText : String :=
  "\x7b\"body\":\"404 Not Found !\",\"content_type\":\"json\"," ++
    "\"header_type\":\"response\",\"state\":404\x7d"

/-- A room with one worker, for a connection `a` and connections `b`. -/
def pair : RoomConfig ℕ where
  name := fun c => if c = 0 then "a" else "b"
  workerNumber := 1
  maxPendingHeartbeats := 5
  shards := 4
  shardOf := fun _ => 0
  toVec := fun _ => .ok (utf8Bytes notFoundText)

/-- A channel of the worker of `pair`. -/
def pairChannel : ChannelId := ⟨⟨List.replicate 16 6, rfl⟩⟩

/-- The data of a message that takes two frames. -/
@[irreducible] def longData : List UInt8 := List.replicate 8150 0

lemma length_longData : longData.length = 8150 := by
  rw [longData, List.length_replicate]

lemma frameCount_longData : frameCount "a" "b" longData = 2 := by
  rw [frameCount, length_longData]
  decide

lemma encodable_longData : Encodable "a" "b" longData := by
  refine ⟨by decide, by decide, by decide, by decide, ?_⟩
  rw [length_longData]
  decide

lemma quiet_opened : Quiet (opened pair) := by
  refine ⟨rfl, fun w => ?_, fun _ _ => rfl⟩
  obtain heq | heq := worker_opened pair w <;> rw [heq] <;> rfl

/-- The room `pair` when connection 0 waits for a frame, with `unread` before it. -/
def listening (unread : List UInt8) : Room pair :=
  { opened pair with
    adding := Function.update (fun _ => .absent) 0 .returned
    listener := Function.update (fun _ => .absent) 0 .header
    tasks := (opened pair).tasks ++ [.listener 0]
    conns := Function.update (fun _ => none) "a" (some 0)
    unread := Function.update (fun _ => []) 0 unread
    log := { (opened pair).log with received := Function.update (fun _ => []) 0 unread } }

lemma quiet_listening (unread : List UInt8) : Quiet (listening unread) :=
  ⟨rfl, quiet_opened.idle, quiet_opened.calls⟩

lemma reach_listening {P : Room pair → Prop} (hP : ∀ s, Quiet s → P s) (unread : List UInt8) :
    (lts pair).ReachBy (fun s _ => P s) (listening unread) := by
  have hfree : Entryless (opened pair).listener := entryless_absent
  have h : (lts pair).ReachBy (fun s _ => P s) (opened pair) := .init rfl
  have h := reach_spawned (c := 0) h (fun s' ha => hP s' (quiet_opened.alike ha)) rfl rfl rfl
  have hfree := hfree.update 0 .spawned (by simp)
  have h := reach_registered (c := 0) h (fun s' ha => hP s' ⟨ha.cancelToken,
    ha.worker ▸ quiet_opened.idle, ha.link ▸ quiet_opened.calls⟩) rfl rfl (hfree.shardFree 0) rfl
  rw [Function.update_idem] at h
  exact h.step (hP _ ⟨rfl, quiet_opened.idle, quiet_opened.calls⟩) (.arrival (c := 0) unread)

end Room

end Fernq
