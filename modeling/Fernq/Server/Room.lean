import Mathlib.Tactic
import Fernq.Base.Lanes
import Fernq.Server.Conn
import Fernq.Server.Dispatch

/-!
An open room (`fernqd/src/server/room.rs`): its listeners, workers and heartbeat, and the calls
of `add_conn` and `close`, from the state `open` returns on.

* `Room`: the fields the tasks share, the connections with the calls that run on them, how far
  every task is, and a log of what has happened.
* `Room.Step`: the steps of all tasks in any order, the steps inside the calls of `write` and
  `close` included, and the bytes that arrive.
-/

namespace Fernq

/-- What a room is given: the name of each connection, the number of workers, the heartbeat
limit, the shards of the connection map, and `serde_json::to_vec`. -/
structure RoomConfig (C : Type) where
  name : C → String
  workerNumber : ℕ
  maxPendingHeartbeats : ℕ
  shards : ℕ
  shardOf : String → ℕ
  toVec : Json → Except String (List UInt8)

namespace Room

variable {C : Type}

/-- A task with the connection its frame was read from. -/
structure Item (C : Type) where
  source : C
  task : MessageTask
  deriving DecidableEq

/-- Why a task of the room calls `write` or `close` on a connection. -/
inductive Caller (C : Type)
  /-- `listener` closes the connection it has replaced -/
  | replace (listener : C)
  /-- the listener of the connection closes it after its loop -/
  | cleanup
  /-- a worker forwards the item -/
  | forward (item : Item C)
  /-- a worker answers the item -/
  | reply (item : Item C)
  | ping
  /-- the heartbeat closes a connection that is silent or cannot be written -/
  | timeout
  /-- `add_conn` closes the connection, as the room is closed -/
  | reject
  deriving DecidableEq

/-- A call on a connection: why it is made, and a number that makes it unique. -/
structure CallId (C : Type) where
  caller : Caller C
  serial : ℕ
  deriving DecidableEq

/-- How a listener ended. -/
inductive Ending
  /-- it returned before it took the connection, which is dropped: the room was closed -/
  | dropped
  | panicked
  | finished
  deriving DecidableEq

/-- How far the listener of a connection is. -/
inductive ListenerStage (C : Type)
  /-- not spawned -/
  | absent
  /-- before the first look at the token of the room -/
  | spawned
  /-- before `conns.entry` -/
  | registering
  /-- has put its connection in the place of `old` and closes `old` in call `n`, with the entry -/
  | replacing (old : C) (n : ℕ)
  /-- in `select!`, before the fixed header -/
  | header
  /-- in `select!`, after the fixed header `head` -/
  | payload (head : List UInt8) (messageType : MessageType) (flags : MessageFlags)
      (frameLength : ℕ)
  /-- in `send` on the queue of worker `w` -/
  | sending (w : ℕ) (task : MessageTask)
  /-- before `reset_heartbeats` -/
  | resetting
  /-- after the loop, before `remove_if` -/
  | removing
  /-- closes its connection in call `n` -/
  | closing (n : ℕ)
  | ended (how : Ending)
  deriving DecidableEq

/-- How far a worker is. -/
inductive WorkerStage (C : Type)
  /-- in `select!` -/
  | idle
  /-- before `conns.get(&task.to)` -/
  | lookup (item : Item C)
  /-- writes the frame to `c` in call `n` -/
  | forwarding (item : Item C) (c : C) (n : ℕ)
  /-- before `conns.get(&task.from)` -/
  | replyLookup (item : Item C)
  /-- writes the 404 response to `c` in call `n` -/
  | replying (item : Item C) (c : C) (n : ℕ)
  | ended
  deriving DecidableEq

/-- The item a worker is busy with. -/
def WorkerStage.inflight : WorkerStage C → List (Item C)
  | .lookup item | .forwarding item _ _ | .replyLookup item | .replying item _ _ => [item]
  | .idle | .ended => []

/-- How far the heartbeat is. -/
inductive HeartbeatStage (C : Type)
  /-- in `select!` -/
  | waiting
  /-- takes the snapshot `conns`, up to shard `i` -/
  | collecting (i : ℕ) (conns : List C)
  /-- before the look at the token of the room -/
  | next (conns : List C)
  /-- before the look at the heartbeat counter of `c` -/
  | checking (c : C) (conns : List C)
  /-- writes a ping to `c` in call `n` -/
  | pinging (c : C) (conns : List C) (n : ℕ)
  /-- before `increment_heartbeats` -/
  | incrementing (c : C) (conns : List C)
  /-- closes `c` in call `n` -/
  | closing (c : C) (conns : List C) (n : ℕ)
  | ended
  deriving DecidableEq

/-- How far `add_conn` is for a connection. -/
inductive AddStage
  /-- not called -/
  | absent
  /-- before the first look at `is_closed` -/
  | checking
  /-- in `worker_set.lock()` -/
  | waiting
  /-- has the lock -/
  | locked
  /-- has the lock and has found the room open -/
  | spawning
  /-- closes the connection in call `n` -/
  | rejecting (n : ℕ)
  | returned
  deriving DecidableEq

/-- How far a call of `close` is. -/
inductive CloseStage
  /-- not called -/
  | absent
  /-- before `is_closed.store` -/
  | storing
  /-- before `cancel_token.cancel()` -/
  | cancelling
  /-- in `worker_set.lock()` -/
  | waiting
  /-- has the lock and joins the tasks -/
  | joining
  /-- has joined all tasks, before `conns.clear()` -/
  | clearing
  | returned
  deriving DecidableEq

/-- Who holds the `worker_set`. -/
inductive Holder (C : Type)
  | add (c : C)
  | close (i : ℕ)
  deriving DecidableEq

/-- A task of the `worker_set`. -/
inductive RoomTask (C : Type)
  | heartbeat
  | worker (w : ℕ)
  | listener (c : C)
  deriving DecidableEq

/-- Who takes a step: a task of the room, a call of `add_conn` or `close`, call `k` on
connection `c`, or the network. -/
inductive Label (C : Type)
  | listener (c : C)
  | worker (w : ℕ)
  | heartbeat
  | add (c : C)
  | close (i : ℕ)
  | call (c : C) (k : CallId C)
  | arrival (c : C)
  deriving DecidableEq

/-- What a worker did with an item. -/
inductive Fate (C : Type)
  /-- it wrote the frame to `c` in call `n` -/
  | forwarded (c : C) (n : ℕ)
  /-- it found no target, and the frame does not end a request -/
  | skipped
  /-- it found no target, and no sender or no response to write -/
  | unanswered
  /-- it found no target, and wrote the 404 response to `c` in call `n` -/
  | replied (c : C) (n : ℕ)
  deriving DecidableEq

end Room

open Room

namespace RoomConfig

variable {C : Type}

/-- The worker an item is sent to. -/
def route (cfg : RoomConfig C) (item : Item C) : Option ℕ :=
  match getChannelId item.task.payload with
  | .ok channelId =>
    match channelId.assignTargetFast cfg.workerNumber with
    | .ok workerId => some workerId
    | _ => none
  | _ => none

end RoomConfig

/-- What has happened in a room: the items sent to the workers and what became of them, the
writes in the order in which they got the writer locks, the connections that were replaced, and
the bytes that have arrived. -/
structure RoomLog {C : Type} (cfg : RoomConfig C) where
  items : Lanes cfg.route (Fate C)
  acquired : List (C × CallId C)
  displaced : C → Bool
  received : C → List UInt8

/-- A room: the shared fields, the connections, the bytes not yet read, the queues, and how far
each task is. -/
structure Room {C : Type} (cfg : RoomConfig C) where
  conns : String → Option C
  isClosed : Bool
  cancelToken : Bool
  workerSet : Option (Holder C)
  tasks : List (RoomTask C)
  link : C → SharedConn (CallId C)
  unread : C → List UInt8
  queue : ℕ → List (Item C)
  listener : C → ListenerStage C
  worker : ℕ → WorkerStage C
  heartbeat : HeartbeatStage C
  adding : C → AddStage
  closing : ℕ → CloseStage
  log : RoomLog cfg

namespace Room

variable {C : Type} [DecidableEq C] {cfg : RoomConfig C}

/-- The room after `open`: the heartbeat and the workers are spawned. -/
def opened (cfg : RoomConfig C) : Room cfg where
  conns := fun _ => none
  isClosed := false
  cancelToken := false
  workerSet := none
  tasks := .heartbeat :: (List.range cfg.workerNumber).map .worker
  link := fun _ => .new
  unread := fun _ => []
  queue := fun _ => []
  listener := fun _ => .absent
  worker := fun w => if w < cfg.workerNumber then .idle else .ended
  heartbeat := .waiting
  adding := fun _ => .absent
  closing := fun _ => .absent
  log := ⟨.empty, [], fun _ => false, fun _ => []⟩

/-- The capacity of the queue of a worker. -/
def queueCapacity : ℕ := 1024

/-- The task has finished. -/
def Finished (s : Room cfg) : RoomTask C → Prop
  | .heartbeat => s.heartbeat = .ended
  | .worker w => s.worker w = .ended
  | .listener c => ∃ how, s.listener c = .ended how

/-- No task holds the shard: a listener that closes the connection it has replaced holds the
entry, and with it the shard of its name.  An operation on a shard that is held blocks its thread;
here it is a step that has to wait, as if every task had a thread of its own. -/
def ShardFree (s : Room cfg) (shard : ℕ) : Prop :=
  ∀ c old n, s.listener c = .replacing old n → cfg.shardOf (cfg.name c) ≠ shard

/-- Call `n` of `caller` has not been made on `c`. -/
def Fresh (s : Room cfg) (c : C) (caller : Caller C) (n : ℕ) : Prop :=
  (s.link c).calls ⟨caller, n⟩ = none

/-- The call has returned `r`. -/
def Returned (s : Room cfg) (c : C) (caller : Caller C) (n : ℕ) (r : IoResult) : Prop :=
  (s.link c).calls ⟨caller, n⟩ = some (.close (.returned r)) ∨
    ∃ data, (s.link c).calls ⟨caller, n⟩ = some (.write data (.returned r))

/-- The connections once `caller` has made call `n` on `c`. -/
def calling (s : Room cfg) (c : C) (caller : Caller C) (n : ℕ) (call : TcpConn.Call) :
    C → SharedConn (CallId C) :=
  Function.update s.link c ((s.link c).set ⟨caller, n⟩ (s.link c).conn call)

/-- The listener's stage after the fixed header `head`. -/
def afterHeader (head : List UInt8) : ListenerStage C :=
  match listenHeader head with
  | .leave => .removing
  | .aborted => .ended .panicked
  | .read messageType flags frameLength => .payload head messageType flags frameLength

/-- The listener's stage after the payload. -/
def afterPayload (workerNumber : ℕ) (messageType : MessageType) (flags : MessageFlags)
    (head body : List UInt8) : ListenerStage C :=
  match listenFrame workerNumber messageType flags head body with
  | .reset => .resetting
  | .send w task => .sending w task
  | .leave => .removing
  | .aborted => .ended .panicked

/-- The steps of the listener of `c`. -/
inductive ListenerStep (s : Room cfg) (c : C) : Room cfg → Prop
  /-- 房间已关闭,静默退出: the connection is dropped -/
  | gone : s.listener c = .spawned → s.cancelToken = true →
      ListenerStep s c { s with listener := Function.update s.listener c (.ended .dropped) }
  | start : s.listener c = .spawned → s.cancelToken = false →
      ListenerStep s c { s with listener := Function.update s.listener c .registering }
  | insert : s.listener c = .registering → s.ShardFree (cfg.shardOf (cfg.name c)) →
      s.conns (cfg.name c) = none →
      ListenerStep s c
        { s with
          listener := Function.update s.listener c .header
          conns := Function.update s.conns (cfg.name c) (some c) }
  /-- 原子替换, and the old connection is closed while the entry is alive -/
  | replace (old : C) (n : ℕ) : s.listener c = .registering →
      s.ShardFree (cfg.shardOf (cfg.name c)) → s.conns (cfg.name c) = some old →
      s.Fresh old (.replace c) n →
      ListenerStep s c
        { s with
          listener := Function.update s.listener c (.replacing old n)
          conns := Function.update s.conns (cfg.name c) (some c)
          link := s.calling old (.replace c) n (.close .start)
          log := { s.log with displaced := Function.update s.log.displaced old true } }
  | replaced (old : C) (n : ℕ) (r : IoResult) : s.listener c = .replacing old n →
      s.Returned old (.replace c) n r →
      ListenerStep s c { s with listener := Function.update s.listener c .header }
  /-- 连接取消 or Room 关闭 -/
  | headerCancelled : s.listener c = .header →
      (s.link c).conn.cancelToken = true ∨ s.cancelToken = true →
      ListenerStep s c { s with listener := Function.update s.listener c .removing }
  /-- `read_exact` fails: the stream has ended, or another error -/
  | headerErr : s.listener c = .header →
      ListenerStep s c { s with listener := Function.update s.listener c .removing }
  | readHeader (head rest : List UInt8) : s.listener c = .header → s.unread c = head ++ rest →
      head.length = fixedHeaderLen →
      ListenerStep s c
        { s with
          listener := Function.update s.listener c (afterHeader head)
          unread := Function.update s.unread c rest }
  | payloadCancelled (head : List UInt8) (t : MessageType) (f : MessageFlags) (len : ℕ) :
      s.listener c = .payload head t f len →
      (s.link c).conn.cancelToken = true ∨ s.cancelToken = true →
      ListenerStep s c { s with listener := Function.update s.listener c .removing }
  | payloadErr (head : List UInt8) (t : MessageType) (f : MessageFlags) (len : ℕ) :
      s.listener c = .payload head t f len →
      ListenerStep s c { s with listener := Function.update s.listener c .removing }
  | readPayload (head : List UInt8) (t : MessageType) (f : MessageFlags) (len : ℕ)
      (body rest : List UInt8) : s.listener c = .payload head t f len →
      s.unread c = body ++ rest → body.length = len →
      ListenerStep s c
        { s with
          listener := Function.update s.listener c (afterPayload cfg.workerNumber t f head body)
          unread := Function.update s.unread c rest }
  | send (w : ℕ) (task : MessageTask) : s.listener c = .sending w task → s.worker w ≠ .ended →
      (s.queue w).length < queueCapacity →
      ListenerStep s c
        { s with
          listener := Function.update s.listener c .resetting
          queue := Function.update s.queue w (s.queue w ++ [⟨c, task⟩])
          log := { s.log with items := s.log.items.push ⟨c, task⟩ } }
  /-- the receiver has been dropped -/
  | sendErr (w : ℕ) (task : MessageTask) : s.listener c = .sending w task →
      s.worker w = .ended →
      ListenerStep s c { s with listener := Function.update s.listener c .resetting }
  | reset : s.listener c = .resetting →
      ListenerStep s c
        { s with
          listener := Function.update s.listener c .header
          link := Function.update s.link c
            { s.link c with conn := (s.link c).conn.resetHeartbeats } }
  /-- 只有 ID 匹配才删, and then the connection is closed -/
  | remove (n : ℕ) : s.listener c = .removing → s.ShardFree (cfg.shardOf (cfg.name c)) →
      s.Fresh c .cleanup n →
      ListenerStep s c
        { s with
          listener := Function.update s.listener c (.closing n)
          conns := if s.conns (cfg.name c) = some c then
            Function.update s.conns (cfg.name c) none else s.conns
          link := s.calling c .cleanup n (.close .start) }
  | closed (n : ℕ) (r : IoResult) : s.listener c = .closing n → s.Returned c .cleanup n r →
      ListenerStep s c { s with listener := Function.update s.listener c (.ended .finished) }

/-- The steps of worker `w`.  Its room holds the senders, so `recv` always waits for a task. -/
inductive WorkerStep (s : Room cfg) (w : ℕ) : Room cfg → Prop
  /-- the receiver is dropped with what is in the queue -/
  | cancelled : s.worker w = .idle → s.cancelToken = true →
      WorkerStep s w
        { s with
          worker := Function.update s.worker w .ended
          queue := Function.update s.queue w [] }
  | recv (item : Item C) (rest : List (Item C)) : s.worker w = .idle →
      s.queue w = item :: rest →
      WorkerStep s w
        { s with
          worker := Function.update s.worker w (.lookup item)
          queue := Function.update s.queue w rest }
  | found (item : Item C) (c : C) (n : ℕ) : s.worker w = .lookup item →
      s.ShardFree (cfg.shardOf item.task.toName) → s.conns item.task.toName = some c →
      s.Fresh c (.forward item) n →
      WorkerStep s w
        { s with
          worker := Function.update s.worker w (.forwarding item c n)
          link := s.calling c (.forward item) n (.write item.task.payload .start) }
  /-- 发送消息，失败静默处理 -/
  | forwarded (item : Item C) (c : C) (n : ℕ) (r : IoResult) :
      s.worker w = .forwarding item c n → s.Returned c (.forward item) n r →
      WorkerStep s w
        { s with
          worker := Function.update s.worker w .idle
          log := { s.log with items := s.log.items.finish (some w) (.forwarded c n) } }
  /-- 除最后一帧外其余静默丢弃 -/
  | skip (item : Item C) : s.worker w = .lookup item →
      s.ShardFree (cfg.shardOf item.task.toName) → s.conns item.task.toName = none →
      item.task.closesRequest = false →
      WorkerStep s w
        { s with
          worker := Function.update s.worker w .idle
          log := { s.log with items := s.log.items.finish (some w) .skipped } }
  | notFound (item : Item C) : s.worker w = .lookup item →
      s.ShardFree (cfg.shardOf item.task.toName) → s.conns item.task.toName = none →
      item.task.closesRequest = true →
      WorkerStep s w { s with worker := Function.update s.worker w (.replyLookup item) }
  | senderMissing (item : Item C) : s.worker w = .replyLookup item →
      s.ShardFree (cfg.shardOf item.task.fromName) → s.conns item.task.fromName = none →
      WorkerStep s w
        { s with
          worker := Function.update s.worker w .idle
          log := { s.log with items := s.log.items.finish (some w) .unanswered } }
  | replyErr (item : Item C) (c : C) (e : ProtocolError) : s.worker w = .replyLookup item →
      s.ShardFree (cfg.shardOf item.task.fromName) → s.conns item.task.fromName = some c →
      notFoundReply cfg.toVec item.task = .err e →
      WorkerStep s w
        { s with
          worker := Function.update s.worker w .idle
          log := { s.log with items := s.log.items.finish (some w) .unanswered } }
  | reply (item : Item C) (c : C) (n : ℕ) (res : List UInt8) : s.worker w = .replyLookup item →
      s.ShardFree (cfg.shardOf item.task.fromName) → s.conns item.task.fromName = some c →
      notFoundReply cfg.toVec item.task = .ok res → s.Fresh c (.reply item) n →
      WorkerStep s w
        { s with
          worker := Function.update s.worker w (.replying item c n)
          link := s.calling c (.reply item) n (.write res .start) }
  | replied (item : Item C) (c : C) (n : ℕ) (r : IoResult) :
      s.worker w = .replying item c n → s.Returned c (.reply item) n r →
      WorkerStep s w
        { s with
          worker := Function.update s.worker w .idle
          log := { s.log with items := s.log.items.finish (some w) (.replied c n) } }

/-- The steps of the heartbeat. -/
inductive HeartbeatStep (s : Room cfg) : Room cfg → Prop
  | cancelled : s.heartbeat = .waiting → s.cancelToken = true →
      HeartbeatStep s { s with heartbeat := .ended }
  | tick : s.heartbeat = .waiting → HeartbeatStep s { s with heartbeat := .collecting 0 [] }
  /-- 快照当前连接, a shard at a time -/
  | shard (i : ℕ) (conns shard : List C) : s.heartbeat = .collecting i conns → i < cfg.shards →
      s.ShardFree i → shard.Nodup →
      (∀ c, c ∈ shard ↔ ∃ name, cfg.shardOf name = i ∧ s.conns name = some c) →
      HeartbeatStep s { s with heartbeat := .collecting (i + 1) (conns ++ shard) }
  | collected (conns : List C) : s.heartbeat = .collecting cfg.shards conns →
      HeartbeatStep s { s with heartbeat := .next conns }
  | interrupted (c : C) (conns : List C) : s.heartbeat = .next (c :: conns) →
      s.cancelToken = true → HeartbeatStep s { s with heartbeat := .waiting }
  | done : s.heartbeat = .next [] → HeartbeatStep s { s with heartbeat := .waiting }
  | next (c : C) (conns : List C) : s.heartbeat = .next (c :: conns) → s.cancelToken = false →
      HeartbeatStep s { s with heartbeat := .checking c conns }
  /-- 检查历史心跳是否已超时 -/
  | expired (c : C) (conns : List C) (n : ℕ) : s.heartbeat = .checking c conns →
      cfg.maxPendingHeartbeats < (s.link c).conn.pendingHeartbeats → s.Fresh c .timeout n →
      HeartbeatStep s
        { s with
          heartbeat := .closing c conns n
          link := s.calling c .timeout n (.close .start) }
  | ping (c : C) (conns : List C) (n : ℕ) : s.heartbeat = .checking c conns →
      (s.link c).conn.pendingHeartbeats ≤ cfg.maxPendingHeartbeats → s.Fresh c .ping n →
      HeartbeatStep s
        { s with
          heartbeat := .pinging c conns n
          link := s.calling c .ping n (.write pingFrame .start) }
  | pinged (c : C) (conns : List C) (n : ℕ) : s.heartbeat = .pinging c conns n →
      s.Returned c .ping n (.ok ()) → HeartbeatStep s { s with heartbeat := .incrementing c conns }
  | increment (c : C) (conns : List C) : s.heartbeat = .incrementing c conns →
      HeartbeatStep s
        { s with
          heartbeat := .next conns
          link := Function.update s.link c
            { s.link c with conn := (s.link c).conn.incrementHeartbeats } }
  /-- 发送失败立即关闭 -/
  | pingErr (c : C) (conns : List C) (n m : ℕ) (e : IoError) : s.heartbeat = .pinging c conns n →
      s.Returned c .ping n (.error e) → s.Fresh c .timeout m →
      HeartbeatStep s
        { s with
          heartbeat := .closing c conns m
          link := s.calling c .timeout m (.close .start) }
  | closed (c : C) (conns : List C) (n : ℕ) (r : IoResult) : s.heartbeat = .closing c conns n →
      s.Returned c .timeout n r → HeartbeatStep s { s with heartbeat := .next conns }

/-- The steps of `add_conn` for `c`. -/
inductive AddStep (s : Room cfg) (c : C) : Room cfg → Prop
  | call : s.adding c = .absent →
      AddStep s c { s with adding := Function.update s.adding c .checking }
  /-- 快速拒绝已关闭的房间 -/
  | rejectFirst (n : ℕ) : s.adding c = .checking → s.isClosed = true → s.Fresh c .reject n →
      AddStep s c
        { s with
          adding := Function.update s.adding c (.rejecting n)
          link := s.calling c .reject n (.close .start) }
  | passFirst : s.adding c = .checking → s.isClosed = false →
      AddStep s c { s with adding := Function.update s.adding c .waiting }
  | lock : s.adding c = .waiting → s.workerSet = none →
      AddStep s c
        { s with
          adding := Function.update s.adding c .locked
          workerSet := some (.add c) }
  /-- 双重检查 -/
  | rejectSecond (n : ℕ) : s.adding c = .locked → s.isClosed = true → s.Fresh c .reject n →
      AddStep s c
        { s with
          adding := Function.update s.adding c (.rejecting n)
          workerSet := none
          link := s.calling c .reject n (.close .start) }
  | passSecond : s.adding c = .locked → s.isClosed = false →
      AddStep s c { s with adding := Function.update s.adding c .spawning }
  | spawn : s.adding c = .spawning →
      AddStep s c
        { s with
          adding := Function.update s.adding c .returned
          listener := Function.update s.listener c .spawned
          workerSet := none
          tasks := s.tasks ++ [.listener c] }
  | rejected (n : ℕ) (r : IoResult) : s.adding c = .rejecting n → s.Returned c .reject n r →
      AddStep s c { s with adding := Function.update s.adding c .returned }

/-- The steps of call `i` of `close`. -/
inductive CloseStep (s : Room cfg) (i : ℕ) : Room cfg → Prop
  | call : s.closing i = .absent →
      CloseStep s i { s with closing := Function.update s.closing i .storing }
  | store : s.closing i = .storing →
      CloseStep s i { s with closing := Function.update s.closing i .cancelling, isClosed := true }
  | cancel : s.closing i = .cancelling →
      CloseStep s i { s with closing := Function.update s.closing i .waiting, cancelToken := true }
  | lock : s.closing i = .waiting → s.workerSet = none →
      CloseStep s i
        { s with
          closing := Function.update s.closing i .joining
          workerSet := some (.close i) }
  | join (t : RoomTask C) (before after : List (RoomTask C)) : s.closing i = .joining →
      s.tasks = before ++ t :: after → s.Finished t →
      CloseStep s i { s with tasks := before ++ after }
  | joined : s.closing i = .joining → s.tasks = [] →
      CloseStep s i { s with closing := Function.update s.closing i .clearing }
  /-- 防御性清理 -/
  | clear : s.closing i = .clearing →
      CloseStep s i
        { s with
          closing := Function.update s.closing i .returned
          conns := fun _ => none
          workerSet := none }

/-- The steps of a room. -/
inductive Step : Room cfg → Label C → Room cfg → Prop
  | listener {s s' : Room cfg} {c : C} : ListenerStep s c s' → Step s (.listener c) s'
  | worker {s s' : Room cfg} {w : ℕ} : WorkerStep s w s' → Step s (.worker w) s'
  | heartbeat {s s' : Room cfg} : HeartbeatStep s s' → Step s .heartbeat s'
  | add {s s' : Room cfg} {c : C} : AddStep s c s' → Step s (.add c) s'
  | close {s s' : Room cfg} {i : ℕ} : CloseStep s i s' → Step s (.close i) s'
  /-- a step inside a call; a write that gets the lock is logged -/
  | call {s : Room cfg} {c : C} {k : CallId C} {conn : TcpConn (CallId C)}
      {call call' : TcpConn.Call} : (s.link c).calls k = some call →
      TcpConn.CallStep k (s.link c).conn call conn call' →
      Step s (.call c k)
        { s with
          link := Function.update s.link c ((s.link c).set k conn call')
          log := { s.log with
            acquired := s.log.acquired ++
              (conn.acquired.drop (s.link c).conn.acquired.length).map (Prod.mk c) } }
  | arrival {s : Room cfg} {c : C} (bytes : List UInt8) :
      Step s (.arrival c)
        { s with
          unread := Function.update s.unread c (s.unread c ++ bytes)
          log := { s.log with
            received := Function.update s.log.received c (s.log.received c ++ bytes) } }

/-- A room from `open` on. -/
def lts (cfg : RoomConfig C) : Lts (Room cfg) (Label C) where
  Init s := s = opened cfg
  Step := Step

end Room

end Fernq
