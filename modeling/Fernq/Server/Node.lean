import Mathlib.Tactic
import Fernq.Base.Transition
import Fernq.Server.Conn

/-!
Shutting down a node (`fernqd/src/server/node.rs`): `ServerNode::close`, the accept loop of
`ServerNode::listen` and the tasks of `ServerNode::add_connection`, with the locks they share.

* `ServerNode.Step`: the steps of the three kinds of tasks in any order, and the arrivals.
* `ServerNode.Inv`: which stage holds which lock.
* `exists_step_of_closing`: a run in which `close` and the spawning accept loop do not overlap
  never gets stuck while the node is closing.
* `Stuck.stays`, `close_gets_stuck`: once they overlap, `close` never returns.
-/

namespace Fernq

namespace ServerNode

variable {R C : Type}

/-- How far the accept loop is. -/
inductive ListenStage (C : Type)
  | binding
  | storing
  | storingAddr
  /-- in `select!` -/
  | accepting
  /-- in `worker_set.lock()`, with an accepted connection -/
  | spawning (c : C)
  /-- has the lock -/
  | spawnLocked (c : C)
  /-- in the cancellation branch -/
  | cancelled
  | cleaning
  | done
  deriving DecidableEq

/-- The connection `listen` is about to spawn. -/
def ListenStage.conn : ListenStage C → List C
  | .spawning c | .spawnLocked c => [c]
  | _ => []

/-- How far `close` is; `todo` are the rooms that are still to be closed. -/
inductive CloseStage (R : Type)
  | idle
  | cancelling
  | iterating (todo : List R)
  | closingRoom (r : R) (todo : List R)
  /-- in the `worker_set.lock()` of the room -/
  | roomWaiting (r : R) (todo : List R)
  /-- joins the tasks of the room -/
  | roomJoining (r : R) (todo : List R)
  /-- in `rooms.clear()` -/
  | clearing
  /-- in `worker_set.lock()` -/
  | waiting
  /-- has the lock and joins the tasks -/
  | joining
  | returned
  deriving DecidableEq

/-- How far `add_connection` is for a connection. -/
inductive ConnStage (R : Type)
  | absent
  /-- in the backlog of the socket, or accepted and not spawned -/
  | queued
  | handshaking
  /-- before `rooms.get` -/
  | lookup (r : R)
  /-- in `Room::add_conn`, with the guard of `rooms.get` -/
  | adding (r : R)
  /-- in the `worker_set.lock()` of the room -/
  | roomWaiting (r : R)
  | roomLocked (r : R)
  /-- closes the connection: the room is closed -/
  | rejecting (r : R)
  | done
  deriving DecidableEq

/-- The task holds the guard of `rooms.get`. -/
def ConnStage.guards : ConnStage R → Bool
  | .adding _ | .roomWaiting _ | .roomLocked _ | .rejecting _ => true
  | _ => false

/-- Who holds the `worker_set` of the node. -/
inductive Holder
  | close
  | listen
  deriving DecidableEq

/-- Who holds the `worker_set` of a room. -/
inductive RoomHolder (C : Type)
  | close
  | conn (c : C)
  deriving DecidableEq

/-- A task of the `worker_set` of the node. -/
inductive NodeTask (C : Type)
  | listen
  | conn (c : C)
  deriving DecidableEq

/-- Who takes a step.  `closeLock` is the step in which `close` gets the lock, and `accept` the
one in which the accept branch of `select!` is taken with a connection. -/
inductive Label
  | close
  | closeLock
  | listen
  | accept
  | conn
  /-- `close` is called -/
  | call
  /-- something arrives at the socket -/
  | arrival
  deriving DecidableEq

/-- The step is one of `close`, `listen` or a connection task. -/
def Label.Own (l : Label) : Prop := l ≠ .call ∧ l ≠ .arrival

end ServerNode

open ServerNode in
/-- A node: the fields its tasks share, the stage of each task, and what waits at the
socket. -/
structure ServerNode (R C : Type) where
  cancelToken : Bool
  workerSet : Option Holder
  tasks : List (NodeTask C)
  rooms : List R
  roomClosed : R → Bool
  roomSet : R → Option (RoomHolder C)
  listen : ListenStage C
  close : CloseStage R
  conns : C → ConnStage R
  backlog : List (Except ErrorKind C)

namespace ServerNode

variable {R C : Type} [DecidableEq R] [DecidableEq C]

/-- The node after `start` with the given rooms: the accept loop is spawned. -/
def started (rooms : List R) : ServerNode R C where
  cancelToken := false
  workerSet := none
  tasks := [.listen]
  rooms := rooms
  roomClosed := fun _ => false
  roomSet := fun _ => none
  listen := .binding
  close := .idle
  conns := fun _ => .absent
  backlog := []

/-- The task has finished. -/
def Finished (s : ServerNode R C) : NodeTask C → Prop
  | .listen => s.listen = .done
  | .conn c => s.conns c = .done

def setConn (s : ServerNode R C) (c : C) (stage : ConnStage R) : ServerNode R C :=
  { s with conns := Function.update s.conns c stage }

def setRoomSet (s : ServerNode R C) (r : R) (holder : Option (RoomHolder C)) :
    ServerNode R C :=
  { s with roomSet := Function.update s.roomSet r holder }

/-- The steps of `close`. -/
inductive StepClose (s : ServerNode R C) : Label → ServerNode R C → Prop
  | cancel : s.close = .cancelling →
      StepClose s .close { s with cancelToken := true, close := .iterating s.rooms }
  | nextRoom (r : R) (todo : List R) : s.close = .iterating (r :: todo) →
      StepClose s .close { s with close := .closingRoom r todo }
  | lastRoom : s.close = .iterating [] → StepClose s .close { s with close := .clearing }
  /-- `is_closed` and the token of the room are set -/
  | flagRoom (r : R) (todo : List R) : s.close = .closingRoom r todo →
      StepClose s .close
        { s with roomClosed := Function.update s.roomClosed r true, close := .roomWaiting r todo }
  | lockRoom (r : R) (todo : List R) : s.close = .roomWaiting r todo → s.roomSet r = none →
      StepClose s .close { s.setRoomSet r (some .close) with close := .roomJoining r todo }
  /-- the tasks of the room have ended after its cancellation -/
  | joinRoom (r : R) (todo : List R) : s.close = .roomJoining r todo →
      StepClose s .close { s.setRoomSet r none with close := .iterating todo }
  /-- the map is written, so no guard of `rooms.get` is alive -/
  | clear : s.close = .clearing → (∀ c, (s.conns c).guards = false) →
      StepClose s .close { s with rooms := [], close := .waiting }
  | lock : s.close = .waiting → s.workerSet = none →
      StepClose s .closeLock { s with workerSet := some .close, close := .joining }
  | join (t : NodeTask C) (before after : List (NodeTask C)) : s.close = .joining →
      s.tasks = before ++ t :: after → s.Finished t →
      StepClose s .close { s with tasks := before ++ after }
  | ret : s.close = .joining → s.tasks = [] →
      StepClose s .close { s with workerSet := none, close := .returned }

/-- The steps of `listen`. -/
inductive StepListen (s : ServerNode R C) : Label → ServerNode R C → Prop
  | bindErr : s.listen = .binding → StepListen s .listen { s with listen := .done }
  | bindOk : s.listen = .binding → StepListen s .listen { s with listen := .storing }
  | store : s.listen = .storing → StepListen s .listen { s with listen := .storingAddr }
  | storeAddr : s.listen = .storingAddr → StepListen s .listen { s with listen := .accepting }
  | accept (c : C) (rest : List (Except ErrorKind C)) : s.listen = .accepting →
      s.backlog = .ok c :: rest →
      StepListen s .accept { s with backlog := rest, listen := .spawning c }
  | acceptBreak (k : ErrorKind) (rest : List (Except ErrorKind C)) : s.listen = .accepting →
      s.backlog = .error k :: rest → k = .other ∨ k = .interrupted →
      StepListen s .listen { s with backlog := rest, listen := .cleaning }
  | acceptContinue (k : ErrorKind) (rest : List (Except ErrorKind C)) : s.listen = .accepting →
      s.backlog = .error k :: rest → ¬ (k = .other ∨ k = .interrupted) →
      StepListen s .listen { s with backlog := rest }
  | lock (c : C) : s.listen = .spawning c → s.workerSet = none →
      StepListen s .listen { s with workerSet := some .listen, listen := .spawnLocked c }
  | spawn (c : C) : s.listen = .spawnLocked c →
      StepListen s .listen
        { s.setConn c .handshaking with
          tasks := s.tasks ++ [.conn c], workerSet := none, listen := .accepting }
  | cancelled : s.listen = .accepting → s.cancelToken = true →
      StepListen s .listen { s with listen := .cancelled }
  | readAddr : s.listen = .cancelled → StepListen s .listen { s with listen := .cleaning }
  | cleanup : s.listen = .cleaning → StepListen s .listen { s with listen := .done }

/-- The steps of `add_connection` for `c`; any of the checks of the handshake may fail. -/
inductive StepConn (s : ServerNode R C) (c : C) : ServerNode R C → Prop
  | refused : s.conns c = .handshaking → StepConn s c (s.setConn c .done)
  | verified (r : R) : s.conns c = .handshaking → StepConn s c (s.setConn c (.lookup r))
  | missing (r : R) : s.conns c = .lookup r → r ∉ s.rooms → StepConn s c (s.setConn c .done)
  | found (r : R) : s.conns c = .lookup r → r ∈ s.rooms → StepConn s c (s.setConn c (.adding r))
  | closedFirst (r : R) : s.conns c = .adding r → s.roomClosed r = true →
      StepConn s c (s.setConn c (.rejecting r))
  | openFirst (r : R) : s.conns c = .adding r → s.roomClosed r = false →
      StepConn s c (s.setConn c (.roomWaiting r))
  | lock (r : R) : s.conns c = .roomWaiting r → s.roomSet r = none →
      StepConn s c ((s.setConn c (.roomLocked r)).setRoomSet r (some (.conn c)))
  | closedSecond (r : R) : s.conns c = .roomLocked r → s.roomClosed r = true →
      StepConn s c ((s.setConn c (.rejecting r)).setRoomSet r none)
  | spawn (r : R) : s.conns c = .roomLocked r → s.roomClosed r = false →
      StepConn s c ((s.setConn c .done).setRoomSet r none)
  | closed (r : R) : s.conns c = .rejecting r → StepConn s c (s.setConn c .done)

/-- The steps of the node and of its surroundings. -/
inductive Step : ServerNode R C → Label → ServerNode R C → Prop
  | close {s s' : ServerNode R C} {l : Label} : StepClose s l s' → Step s l s'
  | listen {s s' : ServerNode R C} {l : Label} : StepListen s l s' → Step s l s'
  | conn {s s' : ServerNode R C} {c : C} : StepConn s c s' → Step s .conn s'
  | call {s : ServerNode R C} : s.close = .idle → Step s .call { s with close := .cancelling }
  | arrival {s : ServerNode R C} (c : C) : s.conns c = .absent →
      Step s .arrival { s.setConn c .queued with backlog := s.backlog ++ [.ok c] }
  | arrivalErr {s : ServerNode R C} (k : ErrorKind) :
      Step s .arrival { s with backlog := s.backlog ++ [.error k] }

/-- The node from its start on, with any rooms. -/
def lts (R C : Type) [DecidableEq R] [DecidableEq C] : Lts (ServerNode R C) Label where
  Init s := ∃ rooms, s = started rooms
  Step := Step

section SetConn

omit [DecidableEq R]

variable {s : ServerNode R C} {c c' : C} {stage : ConnStage R}

@[simp, grind =] lemma conns_setConn :
    (s.setConn c stage).conns c' = if c' = c then stage else s.conns c' :=
  Function.update_apply ..

@[simp, grind =] lemma close_setConn : (s.setConn c stage).close = s.close := rfl

@[simp, grind =] lemma listen_setConn : (s.setConn c stage).listen = s.listen := rfl

@[simp, grind =] lemma workerSet_setConn : (s.setConn c stage).workerSet = s.workerSet := rfl

@[simp, grind =] lemma tasks_setConn : (s.setConn c stage).tasks = s.tasks := rfl

@[simp, grind =] lemma backlog_setConn : (s.setConn c stage).backlog = s.backlog := rfl

@[simp, grind =] lemma roomSet_setConn : (s.setConn c stage).roomSet = s.roomSet := rfl

@[simp, grind =] lemma cancelToken_setConn :
    (s.setConn c stage).cancelToken = s.cancelToken := rfl

end SetConn

section SetRoomSet

omit [DecidableEq C]

variable {s : ServerNode R C} {r r' : R} {holder : Option (RoomHolder C)}

@[simp, grind =] lemma roomSet_setRoomSet :
    (s.setRoomSet r holder).roomSet r' = if r' = r then holder else s.roomSet r' :=
  Function.update_apply ..

@[simp, grind =] lemma close_setRoomSet : (s.setRoomSet r holder).close = s.close := rfl

@[simp, grind =] lemma listen_setRoomSet : (s.setRoomSet r holder).listen = s.listen := rfl

@[simp, grind =] lemma workerSet_setRoomSet :
    (s.setRoomSet r holder).workerSet = s.workerSet := rfl

@[simp, grind =] lemma tasks_setRoomSet : (s.setRoomSet r holder).tasks = s.tasks := rfl

@[simp, grind =] lemma conns_setRoomSet : (s.setRoomSet r holder).conns = s.conns := rfl

@[simp, grind =] lemma cancelToken_setRoomSet :
    (s.setRoomSet r holder).cancelToken = s.cancelToken := rfl

end SetRoomSet

/-! ### The connections that wait -/

/-- The connections of the backlog, after the one that `listen` is about to spawn. -/
def pending (s : ServerNode R C) : List C :=
  s.listen.conn ++ s.backlog.filterMap Except.toOption

/-- A connection that waits, waits once and has no task. -/
structure Pending (s : ServerNode R C) : Prop where
  queued : ∀ c ∈ s.pending, s.conns c = .queued
  nodup : s.pending.Nodup

variable {s s' : ServerNode R C} {l : Label} {c : C}

omit [DecidableEq R] [DecidableEq C] in
/-- Connections that leave the backlog or enter `listen` in order, with their tasks as they
were. -/
lemma Pending.sublist (h : Pending s) (hconns : s'.conns = s.conns)
    (hsub : s'.pending.Sublist s.pending) : Pending s' :=
  ⟨fun c hc => by rw [hconns]; exact h.queued c (hsub.subset hc), h.nodup.sublist hsub⟩

omit [DecidableEq R] in
lemma Pending.stepListen (h : Pending s) (hs : StepListen s l s') : Pending s' := by
  cases hs with
  | accept c rest hl hb =>
      refine h.sublist rfl ?_
      simp [pending, ListenStage.conn, hl, hb, Except.toOption]
  | acceptBreak k rest hl hb _ =>
      refine h.sublist rfl ?_
      have hskip : (Except.error k :: rest).filterMap Except.toOption =
          rest.filterMap (Except.toOption (ε := ErrorKind) (α := C)) := rfl
      simp [pending, ListenStage.conn, hl, hb, hskip]
  | acceptContinue k rest hl hb _ =>
      refine h.sublist rfl ?_
      have hskip : (Except.error k :: rest).filterMap Except.toOption =
          rest.filterMap (Except.toOption (ε := ErrorKind) (α := C)) := rfl
      simp [pending, ListenStage.conn, hl, hb, hskip]
  | spawn c hl =>
      have hp : s.pending = c :: s.backlog.filterMap Except.toOption := by
        simp [pending, ListenStage.conn, hl]
      have hnodup := h.nodup
      rw [hp, List.nodup_cons] at hnodup
      refine ⟨fun c' hc' => ?_, by simpa [pending, ListenStage.conn] using hnodup.2⟩
      have hmem : c' ∈ s.backlog.filterMap Except.toOption := by
        simpa [pending, ListenStage.conn] using hc'
      have hne : c' ≠ c := fun heq => hnodup.1 (heq ▸ hmem)
      have hq : s.conns c' = .queued := h.queued c' (by rw [hp]; exact List.mem_cons_of_mem _ hmem)
      simpa [hne] using hq
  | _ =>
      refine h.sublist rfl ?_
      simp [pending, ListenStage.conn, *]

lemma Pending.stepConn (h : Pending s) (hs : StepConn s c s') : Pending s' := by
  have hne : ∀ c' ∈ s.pending, c' ≠ c := fun c' hc' heq => by
    have hq := h.queued c' hc'
    subst heq
    cases hs <;> simp [hq] at *
  cases hs <;>
    exact ⟨fun c' hc' => by simpa [hne c' hc'] using h.queued c' hc', h.nodup⟩

lemma pending_of_reach (h : (lts R C).Reach s) : Pending s := by
  refine h.invariant ?_ ?_
  · intro s hs
    obtain ⟨rooms, rfl⟩ := hs
    exact ⟨by simp [pending, started, ListenStage.conn],
      by simp [pending, started, ListenStage.conn]⟩
  · intro s l s' _ hi hs
    cases hs with
    | close hs => cases hs <;> exact ⟨hi.queued, hi.nodup⟩
    | listen hs => exact hi.stepListen hs
    | conn hs => exact hi.stepConn hs
    | call hc => exact ⟨hi.queued, hi.nodup⟩
    | arrival c hc =>
        have hfresh : ∀ c' ∈ s.pending, c' ≠ c := fun c' hmem heq => by
          have hq := hi.queued c' hmem
          rw [heq, hc] at hq
          cases hq
        have hp : pending { s.setConn c .queued with backlog := s.backlog ++ [.ok c] } =
            s.pending ++ [c] := by
          simp [pending, Except.toOption]
        refine ⟨?_, ?_⟩
        · intro c' hc'
          rw [hp, List.mem_append, List.mem_singleton] at hc'
          rcases hc' with hmem | rfl
          · simpa [hfresh c' hmem] using hi.queued c' hmem
          · simp
        · rw [hp]
          exact hi.nodup.append (List.nodup_singleton c) (by simpa using fun h => hfresh c h rfl)
    | arrivalErr k => exact hi.sublist rfl (by simp [pending, Except.toOption])

/-! ### Who holds what -/

/-- Which stage holds which lock, that a closing node is cancelled, and that the tasks of the
node are tasks that were spawned. -/
structure Inv (s : ServerNode R C) : Prop where
  close_lock : s.workerSet = some .close ↔ s.close = .joining
  listen_lock : s.workerSet = some .listen ↔ ∃ c, s.listen = .spawnLocked c
  room_close : ∀ r, s.roomSet r = some .close ↔ ∃ todo, s.close = .roomJoining r todo
  room_conn : ∀ r c, s.roomSet r = some (.conn c) ↔ s.conns c = .roomLocked r
  token : s.close ≠ .idle → s.close ≠ .cancelling → s.cancelToken = true
  spawned : ∀ c, .conn c ∈ s.tasks → s.conns c ≠ .absent ∧ s.conns c ≠ .queued

omit [DecidableEq C] in
/-- The lock of a room that is free, or that `close` holds, goes to `close` or is freed. -/
lemma Inv.closeRoom {r : R} {todo : List R} {stage : CloseStage R}
    {holder : Option (RoomHolder C)} (h : Inv s) (hheld : ∀ c, s.roomSet r ≠ some (.conn c))
    (hbefore : s.close = .roomWaiting r todo ∨ s.close = .roomJoining r todo)
    (hafter : holder = some .close ∧ stage = .roomJoining r todo ∨
      holder = none ∧ stage = .iterating todo) :
    Inv { s.setRoomSet r holder with close := stage } := by
  obtain ⟨hlock, hlisten, hroom, hconn, htoken, hspawned⟩ := h
  refine ⟨?_, by simpa using hlisten, fun r' => ?_, fun r' c' => ?_,
    fun _ _ => htoken (by grind) (by grind), by simpa using hspawned⟩
  · rcases hafter with ⟨rfl, rfl⟩ | ⟨rfl, rfl⟩ <;> rcases hbefore with hc | hc <;>
      simp [hlock, hc]
  · rcases eq_or_ne r' r with rfl | hr
    · rcases hafter with ⟨rfl, rfl⟩ | ⟨rfl, rfl⟩ <;> simp
    · have hroom' := hroom r'
      rcases hafter with ⟨rfl, rfl⟩ | ⟨rfl, rfl⟩ <;> rcases hbefore with hc | hc <;>
        simpa [hr, hc, hr.symm] using hroom'
  · rcases eq_or_ne r' r with rfl | hr
    · have hne := hheld c'
      rw [Ne, hconn] at hne
      rcases hafter with ⟨rfl, rfl⟩ | ⟨rfl, rfl⟩ <;> simpa using hne
    · simpa [hr] using hconn r' c'

omit [DecidableEq C] in
lemma Inv.stepClose (h : Inv s) (hs : StepClose s l s') : Inv s' := by
  cases hs with
  | lockRoom r todo hc hfree =>
      exact h.closeRoom (by simp [hfree]) (.inl hc) (.inl ⟨rfl, rfl⟩)
  | joinRoom r todo hc =>
      have hheld : s.roomSet r = some .close := (h.room_close r).mpr ⟨todo, hc⟩
      exact h.closeRoom (by simp [hheld]) (.inr hc) (.inr ⟨rfl, rfl⟩)
  | _ =>
      obtain ⟨hlock, hlisten, hroom, hconn, htoken, hspawned⟩ := h
      refine ⟨?_, ?_, ?_, ?_, ?_, ?_⟩ <;> grind

omit [DecidableEq R] in
/-- A connection task goes on, and takes or frees no lock. -/
lemma Inv.setConn {stage : ConnStage R} (h : Inv s) (hbefore : ∀ r, s.conns c ≠ .roomLocked r)
    (hafter : ∀ r, stage ≠ .roomLocked r)
    (hspawned : .conn c ∈ s.tasks → stage ≠ .absent ∧ stage ≠ .queued) :
    Inv (s.setConn c stage) := by
  refine ⟨h.close_lock, h.listen_lock, h.room_close, ?_, h.token, ?_⟩
  · intro r c'
    have hconn := h.room_conn r c'
    rcases eq_or_ne c' c with rfl | hne
    · simpa [hafter r, hbefore r] using hconn
    · simpa [hne] using hconn
  · intro c' hc'
    rcases eq_or_ne c' c with rfl | hne
    · simpa using hspawned hc'
    · simpa [hne] using h.spawned c' hc'

omit [DecidableEq R] in
lemma Inv.stepListen (h : Inv s) (hp : Pending s) (hs : StepListen s l s') : Inv s' := by
  cases hs with
  | spawn c hc =>
      have hq : s.conns c = .queued := hp.queued c (by simp [pending, ListenStage.conn, hc])
      have hclose : s.close ≠ .joining := fun hj => by
        have hheld := h.close_lock.mpr hj
        rw [h.listen_lock.mpr ⟨c, hc⟩] at hheld
        cases hheld
      obtain ⟨hlock, hlisten, hroom, hconn, htoken, hspawned⟩ := h
      refine ⟨by simpa using hclose, by simp, by simpa using hroom, fun r c' => ?_,
        by simpa using htoken, fun c' hc' => ?_⟩
      · rcases eq_or_ne c' c with rfl | hne
        · simpa [hq] using hconn r c'
        · simpa [hne] using hconn r c'
      · rcases eq_or_ne c' c with rfl | hne
        · simp
        · simpa [hne] using hspawned c' (by simpa [hne] using hc')
  | _ =>
      obtain ⟨hlock, hlisten, hroom, hconn, htoken, hspawned⟩ := h
      refine ⟨?_, ?_, ?_, ?_, ?_, ?_⟩ <;> grind

/-- A connection task takes the lock of a room that is free, or frees the one it holds. -/
lemma Inv.connRoom {r : R} {stage : ConnStage R} {holder : Option (RoomHolder C)} (h : Inv s)
    (hbefore : s.conns c = .roomWaiting r ∧ s.roomSet r = none ∨ s.conns c = .roomLocked r)
    (hafter : holder = some (.conn c) ∧ stage = .roomLocked r ∨
      holder = none ∧ ∀ r, stage ≠ .roomLocked r)
    (hspawned : stage ≠ .absent ∧ stage ≠ .queued) :
    Inv ((s.setConn c stage).setRoomSet r holder) := by
  have hheld : ∀ c', s.roomSet r = some (.conn c') → c' = c := fun c' hc' => by
    rcases hbefore with ⟨_, hfree⟩ | hc
    · simp [hfree] at hc'
    · simpa [(h.room_conn r c).mpr hc] using hc'.symm
  have hnot : s.roomSet r ≠ some .close := by
    rcases hbefore with ⟨_, hfree⟩ | hc
    · simp [hfree]
    · simp [(h.room_conn r c).mpr hc]
  refine ⟨h.close_lock, h.listen_lock, ?_, ?_, h.token, ?_⟩
  · intro r'
    have hroom := h.room_close r'
    rcases eq_or_ne r' r with rfl | hr
    · rw [iff_false_left hnot] at hroom
      rcases hafter with ⟨rfl, _⟩ | ⟨rfl, _⟩ <;> simpa using hroom
    · simpa [hr] using hroom
  · intro r' c'
    have hconn := h.room_conn r' c'
    rcases eq_or_ne c' c with rfl | hne
    · rcases eq_or_ne r' r with rfl | hr
      · rcases hafter with ⟨rfl, rfl⟩ | ⟨rfl, hs⟩
        · simp
        · simp [hs r']
      · have hnr : s.conns c' ≠ .roomLocked r' := by
          rcases hbefore with ⟨hc, _⟩ | hc <;> simp [hc, hr.symm]
        rw [iff_false_right hnr] at hconn
        rcases hafter with ⟨_, rfl⟩ | ⟨_, hs⟩
        · simpa [hr, hr.symm] using hconn
        · simpa [hr, hs r'] using hconn
    · rcases eq_or_ne r' r with rfl | hr
      · have hnc : s.conns c' ≠ .roomLocked r' := fun hcc =>
          hne (hheld c' ((h.room_conn r' c').mpr hcc))
        rcases hafter with ⟨rfl, _⟩ | ⟨rfl, _⟩ <;> simpa [hne, hne.symm] using hnc
      · simpa [hr, hne] using hconn
  · intro c' hc'
    rcases eq_or_ne c' c with rfl | hne
    · simpa using hspawned
    · simpa [hne] using h.spawned c' hc'

lemma Inv.stepConn (h : Inv s) (hs : StepConn s c s') : Inv s' := by
  cases hs with
  | lock r hc hfree => exact h.connRoom (.inl ⟨hc, hfree⟩) (.inl ⟨rfl, rfl⟩) (by simp)
  | closedSecond r hc _ => exact h.connRoom (.inr hc) (.inr ⟨rfl, by simp⟩) (by simp)
  | spawn r hc _ => exact h.connRoom (.inr hc) (.inr ⟨rfl, by simp⟩) (by simp)
  | _ => exact h.setConn (by simp [*]) (by simp) (by simp)

/-- The locks are held by the stages that hold them, in every reachable state. -/
theorem inv_of_reach (h : (lts R C).Reach s) : Inv s := by
  refine h.invariant ?_ ?_
  · intro s hs
    obtain ⟨rooms, rfl⟩ := hs
    exact ⟨by simp [started], by simp [started], by simp [started], by simp [started],
      by simp [started], by simp [started]⟩
  · intro s l s' hr hi hs
    cases hs with
    | close hs => exact hi.stepClose hs
    | listen hs => exact hi.stepListen (pending_of_reach hr) hs
    | conn hs => exact hi.stepConn hs
    | call hc =>
        obtain ⟨hlock, hlisten, hroom, hconn, htoken, hspawned⟩ := hi
        exact ⟨by simp [hlock, hc], hlisten, by simp [hroom, hc], hconn, by simp, hspawned⟩
    | arrival c hc =>
        have hi' : Inv (s.setConn c .queued) :=
          hi.setConn (by simp [hc]) (by simp) fun hmem => absurd hc (hi.spawned c hmem).1
        exact ⟨hi'.1, hi'.2, hi'.3, hi'.4, hi'.5, hi'.6⟩
    | arrivalErr k => exact ⟨hi.1, hi.2, hi.3, hi.4, hi.5, hi.6⟩

/-! ### Closing -/

/-- The locks that `close` takes while `listen` is about to spawn a connection, and the
connections that `listen` takes while `close` joins the tasks. -/
def Apart (s : ServerNode R C) (l : Label) : Prop :=
  (l = .closeLock → ∀ c, s.listen ≠ .spawning c) ∧ (l = .accept → s.close ≠ .joining)

/-- Where the two are kept apart, `close` does not hold the lock that `listen` waits for. -/
lemma not_spawning_of_joining (h : (lts R C).ReachBy Apart s) (hc : s.close = .joining) (c : C) :
    s.listen ≠ .spawning c := by
  revert hc c
  refine h.invariant (I := fun s => s.close = .joining → ∀ c, s.listen ≠ .spawning c)
    (fun s hs => ?_) fun s l s' _ hi hok hs => ?_
  · obtain ⟨rooms, rfl⟩ := hs
    simp [started]
  · obtain ⟨hlock, haccept⟩ := hok
    cases hs with
    | close hs => cases hs <;> simp_all
    | listen hs => cases hs <;> simp_all
    | conn hs => cases hs <;> simpa using hi
    | call hc => simp
    | arrival c hc => simpa using hi
    | arrivalErr k => exact hi

/-- A connection task that has been spawned and has not finished takes a step, unless `close`
joins the tasks of the room. -/
lemma exists_step_conn (h : Inv s) (hspawned : s.conns c ≠ .absent ∧ s.conns c ≠ .queued)
    (hdone : s.conns c ≠ .done) (hroom : ∀ r todo, s.close ≠ .roomJoining r todo) :
    ∃ s', Step s .conn s' := by
  cases hc : s.conns c with
  | absent => exact absurd hc hspawned.1
  | queued => exact absurd hc hspawned.2
  | done => exact absurd hc hdone
  | handshaking => exact ⟨_, .conn (.refused hc)⟩
  | lookup r =>
      by_cases hr : r ∈ s.rooms
      · exact ⟨_, .conn (.found r hc hr)⟩
      · exact ⟨_, .conn (.missing r hc hr)⟩
  | adding r =>
      cases hr : s.roomClosed r with
      | true => exact ⟨_, .conn (.closedFirst r hc hr)⟩
      | false => exact ⟨_, .conn (.openFirst r hc hr)⟩
  | roomLocked r =>
      cases hr : s.roomClosed r with
      | true => exact ⟨_, .conn (.closedSecond r hc hr)⟩
      | false => exact ⟨_, .conn (.spawn r hc hr)⟩
  | rejecting r => exact ⟨_, .conn (.closed r hc)⟩
  | roomWaiting r =>
      match hheld : s.roomSet r with
      | none => exact ⟨_, .conn (.lock r hc hheld)⟩
      | some .close =>
          obtain ⟨todo, hj⟩ := (h.room_close r).mp hheld
          exact absurd hj (hroom r todo)
      | some (.conn c') =>
          -- the holder goes on
          have hc' := (h.room_conn r c').mp hheld
          cases hr : s.roomClosed r with
          | true => exact ⟨_, .conn (.closedSecond r hc' hr)⟩
          | false => exact ⟨_, .conn (.spawn r hc' hr)⟩

/-- An accept loop that has not finished takes a step in a cancelled node while `close` joins the
tasks, unless it is about to spawn a connection. -/
lemma exists_step_listen (h : Inv s) (hj : s.close = .joining)
    (hspawning : ∀ c, s.listen ≠ .spawning c) (hdone : s.listen ≠ .done) :
    ∃ s', Step s .listen s' := by
  cases hl : s.listen with
  | binding => exact ⟨_, .listen (.bindErr hl)⟩
  | storing => exact ⟨_, .listen (.store hl)⟩
  | storingAddr => exact ⟨_, .listen (.storeAddr hl)⟩
  | accepting =>
      exact ⟨_, .listen (.cancelled hl (h.token (by simp [hj]) (by simp [hj])))⟩
  | spawning c => exact absurd hl (hspawning c)
  | spawnLocked c => exact ⟨_, .listen (.spawn c hl)⟩
  | cancelled => exact ⟨_, .listen (.readAddr hl)⟩
  | cleaning => exact ⟨_, .listen (.cleanup hl)⟩
  | done => exact absurd hl hdone

/-- While `close` joins the tasks of the node and `listen` is not about to spawn, one of the
tasks goes on or is joined. -/
lemma exists_step_joining (h : Inv s) (hj : s.close = .joining)
    (hspawning : ∀ c, s.listen ≠ .spawning c) : ∃ l s', l.Own ∧ Step s l s' := by
  cases ht : s.tasks with
  | nil => exact ⟨.close, _, by simp [Label.Own], .close (.ret hj ht)⟩
  | cons t rest =>
      by_cases hf : s.Finished t
      · exact ⟨.close, _, by simp [Label.Own], .close (.join t [] rest hj ht hf)⟩
      · cases t with
        | listen =>
            obtain ⟨s', hs⟩ := exists_step_listen h hj hspawning hf
            exact ⟨_, s', by simp [Label.Own], hs⟩
        | conn c =>
            have hspawned := h.spawned c (by simp [ht])
            obtain ⟨s', hs⟩ := exists_step_conn h hspawned hf (by simp [hj])
            exact ⟨_, s', by simp [Label.Own], hs⟩

/-- In a run that keeps the two apart, some task of a closing node can always go on until
`close` has returned. -/
theorem exists_step_of_closing (h : (lts R C).ReachBy Apart s) (hcalled : s.close ≠ .idle)
    (hreturned : s.close ≠ .returned) : ∃ l s', l.Own ∧ (lts R C).Step s l s' := by
  have hinv : Inv s := inv_of_reach h.reach
  have hspawning := not_spawning_of_joining h
  cases hc : s.close with
  | idle => exact absurd hc hcalled
  | returned => exact absurd hc hreturned
  | cancelling => exact ⟨.close, _, by simp [Label.Own], .close (.cancel hc)⟩
  | iterating todo =>
      cases todo with
      | nil => exact ⟨.close, _, by simp [Label.Own], .close (.lastRoom hc)⟩
      | cons r todo => exact ⟨.close, _, by simp [Label.Own], .close (.nextRoom r todo hc)⟩
  | closingRoom r todo => exact ⟨.close, _, by simp [Label.Own], .close (.flagRoom r todo hc)⟩
  | roomJoining r todo => exact ⟨.close, _, by simp [Label.Own], .close (.joinRoom r todo hc)⟩
  | joining => exact exists_step_joining hinv hc (hspawning hc)
  | roomWaiting r todo =>
      match hheld : s.roomSet r with
      | none => exact ⟨.close, _, by simp [Label.Own], .close (.lockRoom r todo hc hheld)⟩
      | some .close =>
          obtain ⟨todo', hj⟩ := (hinv.room_close r).mp hheld
          rw [hc] at hj
          cases hj
      | some (.conn c) =>
          have hcc := (hinv.room_conn r c).mp hheld
          obtain ⟨s', hs⟩ := exists_step_conn hinv (c := c) (by simp [hcc]) (by simp [hcc])
            (by simp [hc])
          exact ⟨_, s', by simp [Label.Own], hs⟩
  | clearing =>
      by_cases hg : ∀ c, (s.conns c).guards = false
      · exact ⟨.close, _, by simp [Label.Own], .close (.clear hc hg)⟩
      · -- a task with a guard of the map goes on
        push Not at hg
        obtain ⟨c, hg⟩ := hg
        have hstage : (s.conns c ≠ .absent ∧ s.conns c ≠ .queued) ∧ s.conns c ≠ .done := by
          refine ⟨⟨?_, ?_⟩, ?_⟩ <;> intro hcc <;> simp [hcc, ConnStage.guards] at hg
        obtain ⟨s', hs⟩ := exists_step_conn hinv hstage.1 hstage.2 (by simp [hc])
        exact ⟨_, s', by simp [Label.Own], hs⟩
  | waiting =>
      match hheld : s.workerSet with
      | none =>
          exact ⟨.closeLock, _, by simp [Label.Own], .close (.lock hc hheld)⟩
      | some .close =>
          have hj := hinv.close_lock.mp hheld
          rw [hc] at hj
          cases hj
      | some .listen =>
          obtain ⟨c, hl⟩ := hinv.listen_lock.mp hheld
          exact ⟨.listen, _, by simp [Label.Own], .listen (.spawn c hl)⟩

/-! ### The two overlap -/

/-- The accept loop is a task of the node until it has finished. -/
lemma listen_mem_tasks (h : (lts R C).Reach s) (hl : s.listen ≠ .done) : .listen ∈ s.tasks := by
  revert hl
  refine h.invariant (I := fun s => s.listen ≠ .done → .listen ∈ s.tasks) (fun s hs => ?_)
    fun s l s' _ hi hs => ?_
  · obtain ⟨rooms, rfl⟩ := hs
    simp [started]
  · cases hs with
    | close hs =>
        cases hs with
        | join t before after _ ht hf =>
            intro hl
            have hmem := hi hl
            have hne : t ≠ .listen := fun heq => hl (by rw [heq] at hf; exact hf)
            simpa [ht, hne.symm] using hmem
        | _ => exact hi
    | listen hs => cases hs <;> simp_all
    | conn hs => cases hs <;> exact hi
    | call hc => exact hi
    | arrival c hc => exact hi
    | arrivalErr k => exact hi

/-- `close` joins the tasks while `listen` waits for the lock that `close` holds. -/
def Stuck (s : ServerNode R C) : Prop := s.close = .joining ∧ ∃ c, s.listen = .spawning c

/-- From there on nothing changes for the two: `close` never returns. -/
theorem Stuck.stays (hr : (lts R C).Reach s) (hs : Stuck s) (hl : (lts R C).Leads s s') :
    Stuck s' := by
  refine Lts.Leads.stable ?_ hr hl hs
  intro s l s' hr hs hstep
  obtain ⟨hj, c, hc⟩ := hs
  have hinv := inv_of_reach hr
  have hheld : s.workerSet = some .close := hinv.close_lock.mpr hj
  cases hstep with
  | close hs =>
      cases hs with
      | join t before after _ ht hf => exact ⟨hj, c, hc⟩
      | ret _ ht =>
          have hmem := listen_mem_tasks hr (by simp [hc])
          simp [ht] at hmem
      | _ => simp_all
  | listen hs => cases hs <;> simp_all
  | conn hs => cases hs <;> exact ⟨hj, c, hc⟩
  | call hc' => simp [hj] at hc'
  | arrival c' _ => exact ⟨hj, c, hc⟩
  | arrivalErr k => exact ⟨hj, c, hc⟩

/-- A node without rooms whose accept loop is in `select!`, with a connection in the backlog. -/
lemma reach_accepting : (lts ℕ ℕ).ReachBy Apart
    { started [] with
      listen := .accepting
      conns := Function.update (fun _ => .absent) 0 .queued
      backlog := [.ok 0] } := by
  have h : (lts ℕ ℕ).ReachBy Apart (started []) := .init ⟨[], rfl⟩
  have h := h.step (by simp [Apart]) (.listen (.bindOk rfl))
  have h := h.step (by simp [Apart]) (.listen (.store rfl))
  have h := h.step (by simp [Apart]) (.listen (.storeAddr rfl))
  exact h.step (by simp [Apart]) (.arrival 0 rfl)

/-- The connection is spawned before `close` takes the lock, and is in its handshake. -/
theorem exists_step_of_closing_handshaking : ∃ s : ServerNode ℕ ℕ, s.close = .joining ∧
    s.conns 0 = .handshaking ∧ ∃ l s', l.Own ∧ (lts ℕ ℕ).Step s l s' := by
  have h := reach_accepting
  have h := h.step (by simp [Apart, started]) (.listen (.accept 0 [] rfl rfl))
  have h := h.step (by simp [Apart]) (.listen (.lock 0 rfl rfl))
  have h := h.step (by simp [Apart]) (.listen (.spawn 0 rfl))
  have h := h.step (by simp [Apart]) (.call rfl)
  have h := h.step (by simp [Apart]) (.close (.cancel rfl))
  have h := h.step (by simp [Apart]) (.close (.lastRoom rfl))
  have h := h.step (by simp [Apart]) (.close (.clear rfl fun c => by
    by_cases hc : c = 0 <;> simp [hc, setConn, ConnStage.guards]))
  have h := h.step (by simp [Apart]) (.close (.lock rfl rfl))
  exact ⟨_, rfl, by simp, exists_step_of_closing h (by simp) (by simp)⟩

/-- A stuck node whose only task is the accept loop, with no connection task, has no step. -/
lemma Stuck.not_step (hs : Stuck s) (hheld : s.workerSet = some .close) (ht : s.tasks = [.listen])
    (hconns : ∀ c, s.conns c = .absent ∨ s.conns c = .queued) (hl : l.Own) : ¬ Step s l s' := by
  obtain ⟨hj, c, hc⟩ := hs
  intro hstep
  cases hstep with
  | close hs =>
      cases hs with
      | join t before after _ ht' hf =>
          have hmem : t ∈ s.tasks := by simp [ht']
          obtain rfl : t = .listen := by simpa [ht] using hmem
          rw [Finished, hc] at hf
          cases hf
      | ret _ ht' => simp [ht] at ht'
      | _ => simp_all
  | listen hs => cases hs <;> simp_all
  | @conn _ c' hs =>
      have hc' := hconns c'
      cases hs <;> simp_all
  | call hc => exact hl.1 rfl
  | arrival c hc => exact hl.2 rfl
  | arrivalErr k => exact hl.2 rfl

/-- `close` is called and takes the lock, and the accept loop takes the connection. -/
theorem close_gets_stuck : ∃ s, (lts ℕ ℕ).Reach s ∧ s.close ≠ .idle ∧ s.close ≠ .returned ∧
    ∀ l s', l.Own → ¬ (lts ℕ ℕ).Step s l s' := by
  have h := reach_accepting.reach
  have h := h.step (.call rfl)
  have h := h.step (.close (.cancel rfl))
  have h := h.step (.close (.lastRoom rfl))
  have h := h.step (.close (.clear rfl fun c => by
    by_cases hc : c = 0 <;> simp [hc, ConnStage.guards]))
  have h := h.step (.close (.lock rfl rfl))
  have h := h.step (.listen (.accept 0 [] rfl rfl))
  refine ⟨_, h, by simp, by simp, fun l s' hl => Stuck.not_step ⟨rfl, 0, rfl⟩ rfl rfl ?_ hl⟩
  intro c
  by_cases hc : c = 0 <;> simp [hc]

end ServerNode

end Fernq
