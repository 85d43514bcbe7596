import Mathlib.Tactic
import Fernq.Base.Transition
import Fernq.Server.Admission
import Fernq.Server.Rooms

/-!
Control requests and connections on one node (`fernqd/src/server/node.rs`, one task for each of them
in `fernqd/src/main.rs`): the steps of any number of `add_room`, `remove_room` and `add_connection`,
in any order, when nothing fails.

* `RequestStep`, `JoinStep`: one access of the store or of the map of rooms, by one task.
* `NodeRun`, `lts`: the node with all its tasks.
* `Part`, `partChange_of_requestStep`: the part a request has in one room, and what its steps do to
  it.
* `Accounted.step`: a stored room is in memory, or some request has it in hand.
* `requestLeads_addRoom`, `requestLeads_removeRoom`, `joinLeads_of_verifyRoom`: one task alone does
  what the operations do.
-/

namespace Fernq

/-- How far a control request is. -/
inductive RequestStage (ρ : Type)
  | absent
  /-- `add_room`: before the look at the flag of the node -/
  | adding (name password : String)
  /-- before `find_rooms_by_name` -/
  | finding (name password : String)
  /-- before `create_room` -/
  | creating (name password : String)
  /-- the room is stored, before `Room::open` -/
  | opening (model : RoomModel)
  /-- before `rooms.insert` -/
  | inserting (id : Uuid) (room : ρ)
  /-- `remove_room`: before the look at the flag of the node -/
  | removing (id : Uuid)
  /-- before `room_exists` -/
  | checking (id : Uuid)
  /-- before `rooms.remove` -/
  | dropping (id : Uuid)
  /-- before `Room::close` has returned -/
  | closing (id : Uuid) (room : ρ)
  /-- before `delete_room` -/
  | deleting (id : Uuid)
  | done (result : Except StorageError Unit)

/-- What a request is about to do with a room: take it out of memory, delete it after that, or put
it into memory. -/
inductive Part
  | dropping
  | dropped
  | pending
  deriving DecidableEq

/-- The part of a request in the room `id`. -/
def RequestStage.part {ρ : Type} (id : Uuid) : RequestStage ρ → Option Part
  | .opening model => if model.id = id then some .pending else none
  | .inserting id' _ => if id' = id then some .pending else none
  | .dropping id' => if id' = id then some .dropping else none
  | .closing id' _ | .deleting id' => if id' = id then some .dropped else none
  | _ => none

/-- How far `add_connection` is for a connection whose first frame has been read. -/
inductive JoinStage
  | absent
  | validating (payload : List UInt8)
  /-- before `room_exists` -/
  | existing (id : Uuid) (name password : String)
  /-- before `get_room` -/
  | getting (id : Uuid) (name password : String)
  /-- verified, before the welcome is written -/
  | welcoming (id : Uuid)
  /-- before `rooms.get` -/
  | lookup (id : Uuid)
  /-- handed over by `Room::add_conn` -/
  | admitted (id : Uuid)
  /-- the room is not in memory -/
  | dropped (id : Uuid)
  | refused

/-- A node with its control requests, its connections, and the verification replies that each
connection has been sent: the state and the message. -/
structure NodeRun (ρ ι κ : Type) where
  node : NodeRooms ρ
  requests : ι → RequestStage ρ
  joins : κ → JoinStage
  replies : κ → List (Bool × String)

namespace NodeRun

variable {ρ ι κ : Type} [DecidableEq ρ] [DecidableEq ι] [DecidableEq κ]

/-- No call of the keyspace fails. -/
def noFault : Uuid → Fault := fun _ => none

/-- The steps of a control request: the node and the stage before, and after. -/
inductive RequestStep (s : NodeRooms ρ) : RequestStage ρ → NodeRooms ρ → RequestStage ρ → Prop
  | addClosed {name password : String} : s.cancelled = true →
      RequestStep s (.adding name password) s (.done (.error NodeRooms.closedError))
  | addOpen {name password : String} : s.cancelled = false →
      RequestStep s (.adding name password) s (.finding name password)
  | findErr {name password : String} (e : StorageError) :
      s.db.findRoomsByName noFault name = .error e →
      RequestStep s (.finding name password) s (.done (.error e))
  | findSome {name password : String} (model : RoomModel) (models : List RoomModel) :
      s.db.findRoomsByName noFault name = .ok (model :: models) →
      RequestStep s (.finding name password) s
        (.done (.error (.other s!"Room '{name}' already exists")))
  | findNone {name password : String} : s.db.findRoomsByName noFault name = .ok [] →
      RequestStep s (.finding name password) s (.creating name password)
  /-- under a fresh id -/
  | create {name password : String} (id : Uuid) : id ∉ s.db.rooms → id ∉ s.rooms →
      RequestStep s (.creating name password)
        (s.setDb (s.db.createRoom none none id name password).2) (.opening ⟨id, name, password⟩)
  | openRoom {model : RoomModel} (room : ρ) :
      RequestStep s (.opening model) (s.openRoom room) (.inserting model.id room)
  | insert {id : Uuid} {room : ρ} :
      RequestStep s (.inserting id room) (s.insertRoom id room) (.done (.ok ()))
  | removeClosed {id : Uuid} : s.cancelled = true →
      RequestStep s (.removing id) s (.done (.error NodeRooms.closedError))
  | removeOpen {id : Uuid} : s.cancelled = false → RequestStep s (.removing id) s (.checking id)
  | checkMissing {id : Uuid} : s.db.roomExists none id = .ok false →
      RequestStep s (.checking id) s
        (.done (.error (.other s!"Room '{id.hyphenated}' not found")))
  | checkFound {id : Uuid} : s.db.roomExists none id = .ok true →
      RequestStep s (.checking id) s (.dropping id)
  | dropFound {id : Uuid} (room : ρ) : s.rooms.lookup id = some room →
      RequestStep s (.dropping id) (s.eraseRoom id) (.closing id room)
  | dropMissing {id : Uuid} : s.rooms.lookup id = none →
      RequestStep s (.dropping id) s (.deleting id)
  | closeRoom {id : Uuid} {room : ρ} :
      RequestStep s (.closing id room) (s.closeRoom room) (.deleting id)
  | delete {id : Uuid} :
      RequestStep s (.deleting id) (s.setDb (s.db.deleteRoom none none none id).2) (.done (.ok ()))

/-- The steps of a connection: the stage before and after, and the replies it is sent. -/
inductive JoinStep (parseStr : String → Except String Uuid) (s : NodeRooms ρ) :
    JoinStage → JoinStage → List (Bool × String) → Prop
  | invalid {payload : List UInt8} (e : ProtocolError) : parseValidate parseStr payload = .err e →
      JoinStep parseStr s (.validating payload) .refused [(false, "验证信息格式错误")]
  | valid {payload : List UInt8} (id : Uuid) (name password : String) :
      parseValidate parseStr payload = .ok (id, name, password) →
      JoinStep parseStr s (.validating payload) (.existing id name password) []
  | missing {id : Uuid} {name password : String} (message : String) :
      checkExists (s.db.roomExists none id) = .err message →
      JoinStep parseStr s (.existing id name password) .refused [(false, message)]
  | found {id : Uuid} {name password : String} : checkExists (s.db.roomExists none id) = .ok () →
      JoinStep parseStr s (.existing id name password) (.getting id name password) []
  | mismatch {id : Uuid} {name password : String} (message : String) :
      checkRoom (s.db.getRoom none id) name password = .err message →
      JoinStep parseStr s (.getting id name password) .refused [(false, message)]
  | verified {id : Uuid} {name password : String} :
      checkRoom (s.db.getRoom none id) name password = .ok () →
      JoinStep parseStr s (.getting id name password) (.welcoming id) []
  | welcome {id : Uuid} :
      JoinStep parseStr s (.welcoming id) (.lookup id) [(true, "Welcome to FernQ")]
  | handOver {id : Uuid} : id ∈ s.rooms → JoinStep parseStr s (.lookup id) (.admitted id) []
  | drop {id : Uuid} : id ∉ s.rooms → JoinStep parseStr s (.lookup id) (.dropped id) []

/-- Who takes a step; `arrival` is a new request or connection. -/
inductive Label (ι κ : Type)
  | request (i : ι)
  | join (c : κ)
  | arrival

/-- The node after a step of a request. -/
def setRequest (s : NodeRun ρ ι κ) (i : ι) (node : NodeRooms ρ) (stage : RequestStage ρ) :
    NodeRun ρ ι κ :=
  { s with node := node, requests := Function.update s.requests i stage }

/-- The node after a step of a connection. -/
def setJoin (s : NodeRun ρ ι κ) (c : κ) (stage : JoinStage) (sent : List (Bool × String)) :
    NodeRun ρ ι κ :=
  { s with
    joins := Function.update s.joins c stage
    replies := Function.update s.replies c (s.replies c ++ sent) }

/-- The steps of the node and of its surroundings. -/
inductive Step (parseStr : String → Except String Uuid) :
    NodeRun ρ ι κ → Label ι κ → NodeRun ρ ι κ → Prop
  | request {s : NodeRun ρ ι κ} {i : ι} {node : NodeRooms ρ} {stage : RequestStage ρ} :
      RequestStep s.node (s.requests i) node stage →
      Step parseStr s (.request i) (s.setRequest i node stage)
  | join {s : NodeRun ρ ι κ} {c : κ} {stage : JoinStage} {sent : List (Bool × String)} :
      JoinStep parseStr s.node (s.joins c) stage sent →
      Step parseStr s (.join c) (s.setJoin c stage sent)
  | add {s : NodeRun ρ ι κ} {i : ι} (name password : String) : s.requests i = .absent →
      Step parseStr s .arrival (s.setRequest i s.node (.adding name password))
  | remove {s : NodeRun ρ ι κ} {i : ι} (id : Uuid) : s.requests i = .absent →
      Step parseStr s .arrival (s.setRequest i s.node (.removing id))
  | connect {s : NodeRun ρ ι κ} {c : κ} (payload : List UInt8) : s.joins c = .absent →
      Step parseStr s .arrival (s.setJoin c (.validating payload) [])

/-- A node before its first request and connection. -/
def idle (node : NodeRooms ρ) : NodeRun ρ ι κ where
  node := node
  requests := fun _ => .absent
  joins := fun _ => .absent
  replies := fun _ => []

/-- The runs of a node that starts as `Start` says. -/
def lts (ι κ : Type) [DecidableEq ι] [DecidableEq κ] (parseStr : String → Except String Uuid)
    (Start : NodeRooms ρ → Prop) : Lts (NodeRun ρ ι κ) (Label ι κ) where
  Init s := ∃ node, Start node ∧ s = idle node
  Step := Step parseStr

/-! ### What a step does to a room -/

/-- What a step does to a room in the store and in memory, with the part of the request in it before
and after. -/
inductive PartChange (id : Uuid) (s s' : NodeRooms ρ) : Option Part → Option Part → Prop
  | quiet (p : Option Part) : (id ∈ s'.rooms ↔ id ∈ s.rooms) →
      (id ∈ s'.db.rooms ↔ id ∈ s.db.rooms) → PartChange id s s' p p
  | check : (id ∈ s'.rooms ↔ id ∈ s.rooms) → (id ∈ s'.db.rooms ↔ id ∈ s.db.rooms) →
      PartChange id s s' none (some .dropping)
  | create : (id ∈ s'.rooms ↔ id ∈ s.rooms) → id ∉ s.rooms → id ∈ s'.db.rooms →
      PartChange id s s' none (some .pending)
  | insert : id ∈ s'.rooms → (id ∈ s'.db.rooms ↔ id ∈ s.db.rooms) →
      PartChange id s s' (some .pending) none
  | drop : id ∉ s'.rooms → (id ∈ s'.db.rooms ↔ id ∈ s.db.rooms) →
      PartChange id s s' (some .dropping) (some .dropped)
  | delete : (id ∈ s'.rooms ↔ id ∈ s.rooms) → id ∉ s'.db.rooms →
      PartChange id s s' (some .dropped) none

variable {node : NodeRooms ρ} {stage stage' : RequestStage ρ} {id : Uuid}

lemma mem_createRoom_iff {db : StorageDB} {id' : Uuid} {name password : String} :
    id ∈ (db.createRoom none none id' name password).2.rooms ↔ id = id' ∨ id ∈ db.rooms := by
  rw [← AList.lookup_isSome, StorageDB.lookup_createRoom]
  split_ifs with h
  · simp [h]
  · simp [h, AList.lookup_isSome]

lemma mem_deleteRoom_iff {db : StorageDB} {id' : Uuid} :
    id ∈ (db.deleteRoom none none none id').2.rooms ↔ id ≠ id' ∧ id ∈ db.rooms := by
  rw [← AList.lookup_isSome, StorageDB.lookup_deleteRoom]
  split_ifs with h
  · simp [h]
  · simp [h, AList.lookup_isSome]

/-- Every step of a request is one of these, for every room. -/
lemma partChange_of_requestStep {node' : NodeRooms ρ} (h : RequestStep node stage node' stage')
    (id : Uuid) : PartChange id node node' (stage.part id) (stage'.part id) := by
  cases h with
  | create id' hdb hrooms =>
      by_cases heq : id' = id
      · subst heq
        simp only [RequestStage.part, if_true]
        exact .create Iff.rfl hrooms (mem_createRoom_iff.mpr (.inl rfl))
      · simp only [RequestStage.part, if_neg heq]
        refine .quiet _ Iff.rfl (mem_createRoom_iff.trans ?_)
        exact or_iff_right (Ne.symm heq)
  | insert =>
      rename_i id' room
      by_cases heq : id' = id
      · subst heq
        simp only [RequestStage.part, if_true]
        exact .insert ((AList.mem_insert _).mpr (.inl rfl)) Iff.rfl
      · simp only [RequestStage.part, if_neg heq]
        exact .quiet _ ((AList.mem_insert _).trans (or_iff_right (Ne.symm heq))) Iff.rfl
  | checkFound hfound =>
      rename_i id'
      by_cases heq : id' = id
      · simp only [RequestStage.part, if_pos heq]
        exact .check Iff.rfl Iff.rfl
      · simp only [RequestStage.part, if_neg heq]
        exact .quiet _ Iff.rfl Iff.rfl
  | dropFound room hroom =>
      rename_i id'
      by_cases heq : id' = id
      · subst heq
        simp only [RequestStage.part, if_true]
        exact .drop (fun hmem => (AList.mem_erase.mp hmem).1 rfl) Iff.rfl
      · simp only [RequestStage.part, if_neg heq]
        exact .quiet _ (AList.mem_erase.trans (and_iff_right (Ne.symm heq))) Iff.rfl
  | dropMissing hroom =>
      rename_i id'
      by_cases heq : id' = id
      · subst heq
        simp only [RequestStage.part, if_true]
        exact .drop (AList.lookup_eq_none.mp hroom) Iff.rfl
      · simp only [RequestStage.part, if_neg heq]
        exact .quiet _ Iff.rfl Iff.rfl
  | delete =>
      rename_i id'
      by_cases heq : id' = id
      · subst heq
        simp only [RequestStage.part, if_true]
        exact .delete Iff.rfl (fun hmem => (mem_deleteRoom_iff.mp hmem).1 rfl)
      · simp only [RequestStage.part, if_neg heq]
        exact .quiet _ Iff.rfl (mem_deleteRoom_iff.trans (and_iff_right (Ne.symm heq)))
  | _ => exact .quiet _ Iff.rfl Iff.rfl

/-- Some request has this part in the room. -/
def HasPart (s : NodeRun ρ ι κ) (id : Uuid) (p : Part) : Prop :=
  ∃ i, (s.requests i).part id = some p

/-- A step of a request changes the part of that request alone; any other step changes neither the
node nor a part. -/
inductive Change (s s' : NodeRun ρ ι κ) (id : Uuid) : Label ι κ → Prop
  | still (l : Label ι κ) : s'.node = s.node →
      (∀ i, (s'.requests i).part id = (s.requests i).part id) → Change s s' id l
  | request (i : ι) :
      PartChange id s.node s'.node ((s.requests i).part id) ((s'.requests i).part id) →
      (∀ j, j ≠ i → s'.requests j = s.requests j) → Change s s' id (.request i)

variable {s s' : NodeRun ρ ι κ} {i : ι} {p : Part} {l : Label ι κ}
  {parseStr : String → Except String Uuid}

omit [DecidableEq ρ] [DecidableEq κ] in
@[simp] lemma requests_setRequest_self :
    (s.setRequest i node stage).requests i = stage := Function.update_self ..

omit [DecidableEq ρ] [DecidableEq κ] in
lemma requests_setRequest_of_ne {j : ι} (h : j ≠ i) :
    (s.setRequest i node stage).requests j = s.requests j := Function.update_of_ne h ..

omit [DecidableEq ρ] [DecidableEq κ] in
/-- A new request has no part in any room. -/
lemma part_of_arrival (habsent : s.requests i = .absent) (hstage : stage.part id = none) (j : ι) :
    ((s.setRequest i s.node stage).requests j).part id = (s.requests j).part id := by
  by_cases hj : j = i
  · subst hj
    rw [requests_setRequest_self, habsent, hstage]
    rfl
  · rw [requests_setRequest_of_ne hj]

lemma change_of_step (h : Step parseStr s l s') (id : Uuid) : Change s s' id l := by
  cases h with
  | request hstep =>
      refine .request _ ?_ fun j hj => requests_setRequest_of_ne hj
      rw [requests_setRequest_self]
      exact partChange_of_requestStep hstep id
  | add name password habsent => exact .still _ rfl (part_of_arrival habsent rfl)
  | remove id' habsent => exact .still _ rfl (part_of_arrival habsent rfl)
  | join _ => exact .still _ rfl fun _ => rfl
  | connect _ _ => exact .still _ rfl fun _ => rfl

omit [DecidableEq ρ] [DecidableEq ι] [DecidableEq κ] in
/-- A part that another request has is there before and after. -/
lemma hasPart_of_ne (hother : ∀ j, j ≠ i → s'.requests j = s.requests j) (h : s.HasPart id p)
    (hi : (s.requests i).part id ≠ some p) : s'.HasPart id p := by
  obtain ⟨j, hj⟩ := h
  have hji : j ≠ i := by
    rintro rfl
    exact hi hj
  exact ⟨j, by rw [hother j hji]; exact hj⟩

omit [DecidableEq ρ] [DecidableEq ι] [DecidableEq κ] in
lemma hasPart_iff_of_part (h : ∀ i, (s'.requests i).part id = (s.requests i).part id) :
    s'.HasPart id p ↔ s.HasPart id p := by
  unfold HasPart
  simp only [h]

omit [DecidableEq ρ] [DecidableEq κ] in
lemma hasPart_iff_of_request (hother : ∀ j, j ≠ i → s'.requests j = s.requests j)
    (hi : (s'.requests i).part id = (s.requests i).part id) : s'.HasPart id p ↔ s.HasPart id p := by
  refine hasPart_iff_of_part fun j => ?_
  by_cases hj : j = i
  · rw [hj, hi]
  · rw [hother j hj]

/-- A stored room is in memory, or it is about to be deleted after it was taken out, or about to be
put in. -/
def Accounted (s : NodeRun ρ ι κ) : Prop :=
  ∀ id, id ∈ s.node.db.rooms →
    id ∈ s.node.rooms ∨ s.HasPart id .dropped ∨ s.HasPart id .pending

lemma Accounted.step (h : Accounted s) (hs : Step parseStr s l s') : Accounted s' := by
  intro id hstored
  cases change_of_step hs id with
  | still _ hnode hparts =>
      rw [hnode] at hstored ⊢
      rw [hasPart_iff_of_part hparts, hasPart_iff_of_part hparts]
      exact h id hstored
  | request i hchange hother =>
      have hkeep : ∀ q, s.HasPart id q → (s.requests i).part id ≠ some q → s'.HasPart id q :=
        fun q => hasPart_of_ne hother
      generalize hp : (s.requests i).part id = p at hchange
      generalize hp' : (s'.requests i).part id = p' at hchange
      cases hchange with
      | quiet _ hrooms hdb =>
          rw [hrooms, hasPart_iff_of_request hother (hp'.trans hp.symm),
            hasPart_iff_of_request hother (hp'.trans hp.symm)]
          exact h id (hdb.mp hstored)
      | check hrooms hdb =>
          obtain hmem | hpart | hpart := h id (hdb.mp hstored)
          · exact .inl (hrooms.mpr hmem)
          · exact .inr (.inl (hkeep _ hpart (by simp [hp])))
          · exact .inr (.inr (hkeep _ hpart (by simp [hp])))
      | create _ _ _ => exact .inr (.inr ⟨i, hp'⟩)
      | insert hmem _ => exact .inl hmem
      | drop _ _ => exact .inr (.inl ⟨i, hp'⟩)
      | delete _ hgone => exact absurd hstored hgone

/-! ### One task alone -/

section Alone

variable {node : NodeRooms ρ} {name password : String}

/-- The steps of one request, with no other task in between. -/
def RequestLeads (before after : NodeRooms ρ × RequestStage ρ) : Prop :=
  Relation.ReflTransGen (fun p q => RequestStep p.1 p.2 q.1 q.2) before after

/-- The steps of one connection at a node that does not change, and what it is sent. -/
inductive JoinLeads (parseStr : String → Except String Uuid) (node : NodeRooms ρ) :
    JoinStage → JoinStage → List (Bool × String) → Prop
  | refl (stage : JoinStage) : JoinLeads parseStr node stage stage []
  | tail {stage stage' stage'' : JoinStage} {sent sent' : List (Bool × String)} :
      JoinLeads parseStr node stage stage' sent → JoinStep parseStr node stage' stage'' sent' →
      JoinLeads parseStr node stage stage'' (sent ++ sent')

/-- A request that is alone does what `add_room` does. -/
lemma requestLeads_addRoom (hdb : id ∉ node.db.rooms) (hrooms : id ∉ node.rooms) (room : ρ) :
    let added := node.addRoom ⟨noFault, none, none⟩ id room name password
    RequestLeads (node, .adding name password) (added.2, .done added.1) := by
  intro added
  cases hc : node.cancelled with
  | true =>
      have hadded : added = (.error NodeRooms.closedError, node) := by
        simp only [added, NodeRooms.addRoom, hc, if_true]
      rw [hadded]
      exact .single (.addClosed hc)
  | false =>
      have hopen : RequestLeads (node, .adding name password) (node, .finding name password) :=
        .single (.addOpen hc)
      cases hfind : node.db.findRoomsByName noFault name with
      | error e =>
          have hadded : added = (.error e, node) := by
            simp only [added, NodeRooms.addRoom, hc, hfind, Bool.false_eq_true, if_false]
          rw [hadded]
          exact hopen.tail (.findErr e hfind)
      | ok models =>
          cases models with
          | cons model models =>
              have hadded : added = (.error (.other s!"Room '{name}' already exists"), node) := by
                simp only [added, NodeRooms.addRoom, hc, hfind, Bool.false_eq_true, if_false]
              rw [hadded]
              exact hopen.tail (.findSome model models hfind)
          | nil =>
              have hadded : added = (.ok (),
                  ((node.setDb (node.db.createRoom none none id name password).2).openRoom
                    room).insertRoom id room) := by
                simp only [added, NodeRooms.addRoom, hc, hfind, Bool.false_eq_true, if_false]
                rfl
              rw [hadded]
              have hfree := hopen.tail (c := (node, .creating name password)) (.findNone hfind)
              have hstored := hfree.tail
                (c := (_, .opening ⟨id, name, password⟩)) (.create id hdb hrooms)
              have hopened := hstored.tail (c := (_, .inserting id room)) (.openRoom room)
              exact hopened.tail .insert

/-- A request that is alone does what `remove_room` does. -/
lemma requestLeads_removeRoom (id : Uuid) :
    let removed := node.removeRoom ⟨none, none, none, none⟩ id
    RequestLeads (node, .removing id) (removed.2, .done removed.1) := by
  intro removed
  cases hc : node.cancelled with
  | true =>
      have hremoved : removed = (.error NodeRooms.closedError, node) := by
        simp only [removed, NodeRooms.removeRoom, hc, if_true]
      rw [hremoved]
      exact .single (.removeClosed hc)
  | false =>
      have hopen : RequestLeads (node, .removing id) (node, .checking id) :=
        .single (.removeOpen hc)
      cases hvalue : node.db.rooms.lookup id with
      | none =>
          have hexists : node.db.roomExists none id = .ok false := by
            rw [StorageDB.roomExists_eq, hvalue]
            rfl
          have hremoved :
              removed = (.error (.other s!"Room '{id.hyphenated}' not found"), node) := by
            simp only [removed, NodeRooms.removeRoom, hc, hexists, Bool.false_eq_true, if_false]
          rw [hremoved]
          exact hopen.tail (.checkMissing hexists)
      | some value =>
          have hexists : node.db.roomExists none id = .ok true := by
            rw [StorageDB.roomExists_eq, hvalue]
            rfl
          have hremoved : removed = (.ok (),
              (node.dropRoom id).setDb (node.db.deleteRoom none none none id).2) := by
            simp only [removed, NodeRooms.removeRoom, hc, hexists, Bool.false_eq_true, if_false,
              StorageDB.deleteRoom, StorageDB.get, hvalue]
          rw [hremoved]
          have hfound := hopen.tail (c := (node, .dropping id)) (.checkFound hexists)
          cases hroom : node.rooms.lookup id with
          | none =>
              rw [NodeRooms.dropRoom, hroom]
              exact (hfound.tail (c := (node, .deleting id)) (.dropMissing hroom)).tail .delete
          | some room =>
              rw [NodeRooms.dropRoom, hroom]
              have hdropped := hfound.tail
                (c := (node.eraseRoom id, .closing id room)) (.dropFound room hroom)
              exact (hdropped.tail (c := (_, .deleting id)) .closeRoom).tail .delete

omit [DecidableEq ρ] in
/-- A connection that is alone is answered as its payload is verified. -/
lemma joinLeads_of_verifyRoom (payload : List UInt8) (toString : Json → String) :
    match verifyRoom (node.handshakeEnv parseStr toString none none false) payload with
    | .ok id => JoinLeads parseStr node (.validating payload)
        (if id ∈ node.rooms then .admitted id else .dropped id) [(true, "Welcome to FernQ")]
    | .err message => JoinLeads parseStr node (.validating payload) .refused [(false, message)]
    | .panicked => False := by
  rw [verifyRoom_eq]
  dsimp only [NodeRooms.handshakeEnv]
  have hstart : JoinLeads parseStr node (.validating payload) (.validating payload) [] := .refl _
  cases hparse : parseValidate parseStr payload with
  | panicked => exact absurd hparse (parseValidate_ne_panicked _ _)
  | err e => exact hstart.tail (.invalid e hparse)
  | ok v =>
      obtain ⟨id, name, password⟩ := v
      have hvalid := hstart.tail (.valid id name password hparse)
      rw [Outcome.mapErr_ok, Outcome.ok_bind]
      dsimp only
      cases hexists : checkExists (node.db.roomExists none id) with
      | panicked => exact absurd hexists checkExists_ne_panicked
      | err message => exact hvalid.tail (.missing message hexists)
      | ok _ =>
          have hfound := hvalid.tail (.found hexists)
          rw [Outcome.ok_bind]
          cases hcheck : checkRoom (node.db.getRoom none id) name password with
          | panicked => exact absurd hcheck checkRoom_ne_panicked
          | err message => exact hfound.tail (.mismatch message hcheck)
          | ok _ =>
              have hwelcomed := (hfound.tail (.verified hcheck)).tail .welcome
              by_cases hmem : id ∈ node.rooms
              · have hadmitted := hwelcomed.tail (.handOver hmem)
                simpa [Outcome.ok_bind, if_pos hmem] using hadmitted
              · have hdropped := hwelcomed.tail (.drop hmem)
                simpa [Outcome.ok_bind, if_neg hmem] using hdropped

end Alone
end NodeRun

end Fernq
