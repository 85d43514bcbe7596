import Mathlib.Tactic
import Fernq.Base.Journal
import Fernq.Base.Transition
import Fernq.Server.Rooms

/-!
A node over all its lives (`ServerNode::{start, close, add_room, remove_room}` in
`fernqd/src/server/node.rs`, `StorageDB` in `fernqd/src/storage/db.rs`, `main` in
`fernqd/src/main.rs`): control requests in any number, call by call of the keyspace, any of which
may fail; the shutdown beside them; and at any moment the end of the process and its restart from
what is left on the disk.

* `NodeRooms.start`: the rooms of the store are opened and put into memory.
* `OpStep`: one step of a request; `Life.Step`, `lifetimes`: all the steps of a node.
* `addRoom_of_alone`, `removeRoom_of_alone`: a request beside which nothing runs does what the
  whole operation does.
-/

namespace Fernq

namespace NodeRooms

variable {ρ : Type} [DecidableEq ρ]

/-- A room that is stored is opened and put into memory. -/
def load (fresh : Uuid → ρ) (s : NodeRooms ρ) (model : RoomModel) : NodeRooms ρ :=
  (s.openRoom (fresh model.id)).insertRoom model.id (fresh model.id)

/-- 启动服务节点: all rooms of the store are loaded, or none if one of them cannot be read. -/
def start (s : NodeRooms ρ) (iterate : Uuid → Fault) (fresh : Uuid → ρ) : NodeRooms ρ :=
  match s.db.listAllRooms iterate with
  | .ok models => models.foldl (load fresh) s
  | .error _ => s

section Start

variable {s : NodeRooms ρ} {iterate : Uuid → Fault} {fresh : Uuid → ρ} {models : List RoomModel}
  {id : Uuid}

lemma mem_foldl_load :
    id ∈ (models.foldl (load fresh) s).rooms ↔ id ∈ s.rooms ∨ ∃ model ∈ models, model.id = id := by
  induction models generalizing s with
  | nil => simp
  | cons model models ih =>
      have hload : id ∈ (load fresh s model).rooms ↔ id = model.id ∨ id ∈ s.rooms :=
        AList.mem_insert _
      rw [List.foldl_cons, ih, hload]
      simp only [List.mem_cons, exists_eq_or_imp, eq_comm (a := id)]
      tauto

/-- The rooms that are loaded are open. -/
lemma isOpen_foldl_load (h : ∀ id room, s.rooms.lookup id = some room → s.isOpen room = true) :
    ∀ id room, (models.foldl (load fresh) s).rooms.lookup id = some room →
      (models.foldl (load fresh) s).isOpen room = true := by
  induction models generalizing s with
  | nil => exact h
  | cons model models ih =>
      refine ih fun id room hl => ?_
      show Function.update s.isOpen (fresh model.id) true room = true
      by_cases hroom : room = fresh model.id
      · rw [hroom, Function.update_self]
      · rw [Function.update_of_ne hroom]
        refine h id room ?_
        have hne : id ≠ model.id := by
          rintro rfl
          rw [load, insertRoom, AList.lookup_insert, Option.some.injEq] at hl
          exact hroom hl.symm
        rwa [load, insertRoom, AList.lookup_insert_ne hne] at hl

/-- All rooms of the store can be read. -/
def Readable (db : StorageDB) (iterate : Uuid → Fault) : Prop :=
  ∀ id value, db.rooms.lookup id = some value → iterate id = none ∧ ∃ model, value = .ok model

lemma listItems_of_readable {items : List (Sigma fun _ : Uuid => Except String RoomModel)}
    (h : ∀ item ∈ items, iterate item.1 = none ∧ ∃ model, item.2 = .ok model) :
    ∃ models : List RoomModel, StorageDB.listItems iterate items = .ok models ∧
      models.map Except.ok = items.map fun item => item.2 := by
  induction items with
  | nil => exact ⟨[], rfl, rfl⟩
  | cons item items ih =>
      rw [List.forall_mem_cons] at h
      obtain ⟨id, value⟩ := item
      obtain ⟨⟨hfault, model, rfl⟩, hrest⟩ := h
      obtain ⟨models, hmodels, hmap⟩ := ih hrest
      refine ⟨model :: models, ?_, by rw [List.map_cons, List.map_cons, hmap]⟩
      rw [StorageDB.listItems, show iterate id = none from hfault, hmodels]
      rfl

lemma listItems_of_not_readable {items : List (Sigma fun _ : Uuid => Except String RoomModel)}
    (h : ¬ ∀ item ∈ items, iterate item.1 = none ∧ ∃ model, item.2 = .ok model) :
    ∃ e, StorageDB.listItems iterate items = .error e := by
  induction items with
  | nil => simp at h
  | cons item items ih =>
      rw [List.forall_mem_cons, not_and_or] at h
      obtain ⟨id, value⟩ := item
      rw [StorageDB.listItems]
      cases hfault : iterate id with
      | some e => exact ⟨_, rfl⟩
      | none =>
          cases value with
          | error e => exact ⟨_, rfl⟩
          | ok model =>
              obtain ⟨e, he⟩ := ih (h.resolve_left fun hnot => hnot ⟨hfault, model, rfl⟩)
              exact ⟨e, by rw [he]; rfl⟩

lemma readable_iff {db : StorageDB} :
    Readable db iterate ↔
      ∀ item ∈ db.rooms.entries, iterate item.1 = none ∧ ∃ model, item.2 = .ok model := by
  constructor
  · rintro h ⟨id, value⟩ hmem
    exact h id value (AList.mem_lookup_iff.mpr hmem)
  · intro h id value hl
    exact h ⟨id, value⟩ (AList.mem_lookup_iff.mp hl)

/-- A node that has nothing in memory loads all rooms of its store, if all can be read. -/
lemma mem_start (hempty : s.rooms = ∅) (hread : Readable s.db iterate)
    (hkeys : ∀ id model, s.db.rooms.lookup id = some (.ok model) → model.id = id) :
    id ∈ (s.start iterate fresh).rooms ↔ id ∈ s.db.rooms := by
  obtain ⟨models, hmodels, hmap⟩ := listItems_of_readable (readable_iff.mp hread)
  have hstart : s.start iterate fresh = models.foldl (load fresh) s := by
    rw [start, StorageDB.listAllRooms, hmodels]
  rw [hstart, mem_foldl_load, hempty, or_iff_right (AList.notMem_empty id)]
  constructor
  · rintro ⟨model, hmem, rfl⟩
    have hvalue : Except.ok model ∈ s.db.rooms.entries.map fun item => item.2 :=
      hmap ▸ List.mem_map_of_mem hmem
    obtain ⟨⟨id, value⟩, hitem, rfl⟩ := List.mem_map.mp hvalue
    have hl := AList.mem_lookup_iff.mpr hitem
    rw [hkeys id model hl]
    exact AList.lookup_isSome.mp (by rw [hl]; rfl)
  · intro hmem
    obtain ⟨value, hl⟩ := Option.isSome_iff_exists.mp (AList.lookup_isSome.mpr hmem)
    obtain ⟨-, model, rfl⟩ := hread id value hl
    have hvalue : (Except.ok model : Except String RoomModel) ∈ models.map Except.ok := by
      rw [hmap]
      exact List.mem_map.mpr ⟨_, AList.mem_lookup_iff.mp hl, rfl⟩
    obtain ⟨model', hmodel', heq⟩ := List.mem_map.mp hvalue
    exact ⟨model', hmodel', Except.ok.inj heq ▸ hkeys id model hl⟩

/-- If one room of the store cannot be read, none is loaded. -/
lemma start_of_not_readable (h : ¬ Readable s.db iterate) : s.start iterate fresh = s := by
  obtain ⟨e, he⟩ := listItems_of_not_readable (mt readable_iff.mpr h)
  rw [start, StorageDB.listAllRooms, he]

end Start

end NodeRooms

/-- How far a control request is. -/
inductive OpStage (ρ : Type)
  | absent
  /-- `add_room`: before the look at the flag of the node -/
  | adding (name password : String)
  /-- before `find_rooms_by_name` -/
  | finding (name password : String)
  /-- before the `insert` of `save_room` -/
  | creating (name password : String)
  /-- before its `persist` -/
  | syncing (model : RoomModel)
  /-- before `Room::open` -/
  | opening (model : RoomModel)
  /-- before `rooms.insert` -/
  | inserting (model : RoomModel) (room : ρ)
  /-- `remove_room`: before the look at the flag of the node -/
  | removing (id : Uuid)
  /-- before `room_exists` -/
  | checking (id : Uuid)
  /-- before `rooms.remove` -/
  | dropping (id : Uuid)
  /-- before `Room::close` has returned -/
  | closing (id : Uuid) (room : ρ)
  /-- before the `get` of `delete_room` -/
  | looking (id : Uuid)
  /-- before its `remove` -/
  | erasing (id : Uuid)
  /-- before its `persist` -/
  | flushing (id : Uuid)
  | done (result : Except StorageError Unit)

/-- How far `ServerNode::close` is; `left` are the rooms that it has still to visit of those that
were there when it began. -/
inductive ShutStage
  | idle
  | cancelling
  | visiting (left : List Uuid)
  /-- in the `worker_set` -/
  | joining
  | returned

/-- What has happened in all lives of a node. -/
structure LifeLog where
  /-- the ids under which a room has ever been stored -/
  used : List Uuid
  /-- the rooms whose `add_room` has returned `Ok` -/
  added : List RoomModel
  /-- the ids under which a room has been taken out of the keyspace -/
  erased : List Uuid
  /-- the ids whose `remove_room` has returned `Ok` after its `delete_room` found the room -/
  removed : List Uuid

/-- A node, with the state of its keyspace and its control requests. -/
structure Life (σ ρ ι : Type) where
  disk : σ
  cancelled : Bool
  rooms : AList fun _ : Uuid => ρ
  isOpen : ρ → Bool
  close : ShutStage
  requests : ι → OpStage ρ
  log : LifeLog

/-- The keyspace of the rooms. -/
abbrev RoomDisk (σ : Type) := DurableMap Uuid (Except String RoomModel) σ

namespace Life

variable {σ ρ ι : Type} [DecidableEq ρ] [DecidableEq ι]

/-- The store as the node sees it. -/
def db (D : RoomDisk σ) (s : Life σ ρ ι) : StorageDB := ⟨D.contents s.disk⟩

/-- The node as the operations see it. -/
def node (D : RoomDisk σ) (s : Life σ ρ ι) : NodeRooms ρ := ⟨s.cancelled, s.db D, s.rooms, s.isOpen⟩

/-- The steps of a request: the node and the stage before, and after. -/
inductive OpStep (D : RoomDisk σ) (s : Life σ ρ ι) : OpStage ρ → Life σ ρ ι → OpStage ρ → Prop
  | addClosed {name password : String} : s.cancelled = true →
      OpStep D s (.adding name password) s (.done (.error NodeRooms.closedError))
  | addOpen {name password : String} : s.cancelled = false →
      OpStep D s (.adding name password) s (.finding name password)
  | findErr {name password : String} (iterate : Uuid → Fault) (e : StorageError) :
      (s.db D).findRoomsByName iterate name = .error e →
      OpStep D s (.finding name password) s (.done (.error e))
  | findSome {name password : String} (iterate : Uuid → Fault) (model : RoomModel)
      (models : List RoomModel) : (s.db D).findRoomsByName iterate name = .ok (model :: models) →
      OpStep D s (.finding name password) s
        (.done (.error (.other s!"Room '{name}' already exists")))
  | findNone {name password : String} (iterate : Uuid → Fault) :
      (s.db D).findRoomsByName iterate name = .ok [] →
      OpStep D s (.finding name password) s (.creating name password)
  | insertErr {name password : String} (e : String) :
      OpStep D s (.creating name password) s (.done (.error (.fjall e)))
  /-- under a new id -/
  | insertOk {name password : String} (id : Uuid) (disk : σ) : id ∉ s.log.used →
      D.Step s.disk (.insert id (.ok ⟨id, name, password⟩)) disk →
      OpStep D s (.creating name password)
        { s with disk := disk, log := { s.log with used := id :: s.log.used } }
        (.syncing ⟨id, name, password⟩)
  | syncErr {model : RoomModel} (e : String) (disk : σ) : D.Step s.disk .persistErr disk →
      OpStep D s (.syncing model) { s with disk := disk } (.done (.error (.fjall e)))
  | syncOk {model : RoomModel} (disk : σ) : D.Step s.disk .persist disk →
      OpStep D s (.syncing model) { s with disk := disk } (.opening model)
  | openRoom {model : RoomModel} (room : ρ) :
      OpStep D s (.opening model) { s with isOpen := Function.update s.isOpen room true }
        (.inserting model room)
  | insertRoom {model : RoomModel} {room : ρ} :
      OpStep D s (.inserting model room)
        { s with
          rooms := s.rooms.insert model.id room
          log := { s.log with added := model :: s.log.added } }
        (.done (.ok ()))
  | removeClosed {id : Uuid} : s.cancelled = true →
      OpStep D s (.removing id) s (.done (.error NodeRooms.closedError))
  | removeOpen {id : Uuid} : s.cancelled = false → OpStep D s (.removing id) s (.checking id)
  | checkErr {id : Uuid} (e : String) :
      OpStep D s (.checking id) s (.done (.error (.other
        s!"Failed to check room existence: {(StorageError.fjall e).display}")))
  | checkMissing {id : Uuid} : (s.db D).roomExists none id = .ok false →
      OpStep D s (.checking id) s (.done (.error (.other s!"Room '{id.hyphenated}' not found")))
  | checkFound {id : Uuid} : (s.db D).roomExists none id = .ok true →
      OpStep D s (.checking id) s (.dropping id)
  | dropFound {id : Uuid} (room : ρ) : s.rooms.lookup id = some room →
      OpStep D s (.dropping id) { s with rooms := s.rooms.erase id } (.closing id room)
  | dropMissing {id : Uuid} : s.rooms.lookup id = none → OpStep D s (.dropping id) s (.looking id)
  | closeRoom {id : Uuid} {room : ρ} :
      OpStep D s (.closing id room) { s with isOpen := Function.update s.isOpen room false }
        (.looking id)
  | lookErr {id : Uuid} (e : String) : OpStep D s (.looking id) s (.done (.error (.fjall e)))
  | lookMissing {id : Uuid} : id ∉ (s.db D).rooms → OpStep D s (.looking id) s (.done (.ok ()))
  | lookFound {id : Uuid} : id ∈ (s.db D).rooms → OpStep D s (.looking id) s (.erasing id)
  | eraseErr {id : Uuid} (e : String) : OpStep D s (.erasing id) s (.done (.error (.fjall e)))
  | eraseOk {id : Uuid} (disk : σ) : D.Step s.disk (.remove id) disk →
      OpStep D s (.erasing id)
        { s with disk := disk, log := { s.log with erased := id :: s.log.erased } } (.flushing id)
  | flushErr {id : Uuid} (e : String) (disk : σ) : D.Step s.disk .persistErr disk →
      OpStep D s (.flushing id) { s with disk := disk } (.done (.error (.fjall e)))
  | flushOk {id : Uuid} (disk : σ) : D.Step s.disk .persist disk →
      OpStep D s (.flushing id)
        { s with disk := disk, log := { s.log with removed := id :: s.log.removed } }
        (.done (.ok ()))

/-- Who takes a step. -/
inductive Label (ι : Type)
  | request (i : ι)
  /-- a request arrives -/
  | arrival
  /-- `close` is called, and cancels the token of the node -/
  | cancel
  | close
  /-- the process ends, and another one starts -/
  | restart

/-- The request at another stage. -/
def setRequest (s : Life σ ρ ι) (i : ι) (stage : OpStage ρ) : Life σ ρ ι :=
  { s with requests := Function.update s.requests i stage }

omit [DecidableEq ρ] in
@[simp] lemma requests_setRequest_self (s : Life σ ρ ι) (i : ι) (stage : OpStage ρ) :
    (s.setRequest i stage).requests i = stage := Function.update_self ..

omit [DecidableEq ρ] in
lemma requests_setRequest_of_ne {i j : ι} (h : j ≠ i) (s : Life σ ρ ι) (stage : OpStage ρ) :
    (s.setRequest i stage).requests j = s.requests j := Function.update_of_ne h ..

/-- A new process on the disk. -/
def boot (D : RoomDisk σ) (ι : Type) (disk : σ) (iterate : Uuid → Fault) (fresh : Uuid → ρ)
    (log : LifeLog) : Life σ ρ ι :=
  let node : NodeRooms ρ := (⟨false, ⟨D.contents disk⟩, ∅, fun _ => false⟩ : NodeRooms ρ).start
    iterate fresh
  { disk := disk
    cancelled := false
    rooms := node.rooms
    isOpen := node.isOpen
    close := .idle
    requests := fun _ => .absent
    log := log }

/-- The steps of a node and of its surroundings. -/
inductive Step (D : RoomDisk σ) : Life σ ρ ι → Label ι → Life σ ρ ι → Prop
  | request {s s' : Life σ ρ ι} {i : ι} {stage : OpStage ρ} :
      OpStep D s (s.requests i) s' stage → Step D s (.request i) (s'.setRequest i stage)
  | add {s : Life σ ρ ι} {i : ι} (name password : String) : s.requests i = .absent →
      Step D s .arrival (s.setRequest i (.adding name password))
  | remove {s : Life σ ρ ι} {i : ι} (id : Uuid) : s.requests i = .absent →
      Step D s .arrival (s.setRequest i (.removing id))
  | cancel {s : Life σ ρ ι} : s.close = .idle →
      Step D s .cancel { s with cancelled := true, close := .cancelling }
  | iterate {s : Life σ ρ ι} : s.close = .cancelling →
      Step D s .close { s with close := .visiting s.rooms.keys }
  /-- any room that is there may be visited, and its close waited for -/
  | visit {s : Life σ ρ ι} (left : List Uuid) (id : Uuid) (room : ρ) : s.close = .visiting left →
      s.rooms.lookup id = some room →
      Step D s .close { s with
        isOpen := Function.update s.isOpen room false
        close := .visiting (left.erase id) }
  /-- the room has been removed -/
  | skip {s : Life σ ρ ι} (left : List Uuid) (id : Uuid) : s.close = .visiting left →
      id ∉ s.rooms → Step D s .close { s with close := .visiting (left.erase id) }
  | clear {s : Life σ ρ ι} : s.close = .visiting [] →
      Step D s .close { s with rooms := ∅, close := .joining }
  | ret {s : Life σ ρ ι} : s.close = .joining → Step D s .close { s with close := .returned }
  | restart {s : Life σ ρ ι} (disk : σ) (iterate : Uuid → Fault) (fresh : Uuid → ρ) :
      D.Step s.disk .crash disk → Step D s .restart (boot D ι disk iterate fresh s.log)

/-- A disk that has been written by this program: the values are under their ids, and the ids are
known. -/
structure WellKept (D : RoomDisk σ) (disk : σ) (used : List Uuid) : Prop where
  keys : ∀ id model, D.Known disk id (.ok model) → model.id = id
  used : ∀ id value, D.Known disk id value → id ∈ used

/-- All lives of a node that finds such a disk. -/
def lifetimes (D : RoomDisk σ) (ρ ι : Type) [DecidableEq ρ] [DecidableEq ι] :
    Lts (Life σ ρ ι) (Label ι) where
  Init s := ∃ (disk : σ) (iterate : Uuid → Fault) (fresh : Uuid → ρ) (used : List Uuid),
    WellKept D disk used ∧ s = boot D ι disk iterate fresh ⟨used, [], [], []⟩
  Step := Step D

/-! ### A request alone -/

/-- The request takes steps, and nothing else does. -/
def Alone (D : RoomDisk σ) (i : ι) : Life σ ρ ι → Life σ ρ ι → Prop :=
  Relation.ReflTransGen fun s s' => Step D s (.request i) s'

/-- The node and the stage of an `add_room` that runs alone, from the node `start`. -/
inductive Adding (start : NodeRooms ρ) (name password : String) :
    NodeRooms ρ → OpStage ρ → Prop
  | adding : Adding start name password start (.adding name password)
  | finding : start.cancelled = false → Adding start name password start (.finding name password)
  | creating (iterate : Uuid → Fault) : start.cancelled = false →
      start.db.findRoomsByName iterate name = .ok [] →
      Adding start name password start (.creating name password)
  | syncing (iterate : Uuid → Fault) (id : Uuid) : start.cancelled = false →
      start.db.findRoomsByName iterate name = .ok [] →
      Adding start name password (start.setDb (start.db.createRoom none none id name password).2)
        (.syncing ⟨id, name, password⟩)
  | opening (iterate : Uuid → Fault) (id : Uuid) : start.cancelled = false →
      start.db.findRoomsByName iterate name = .ok [] →
      Adding start name password (start.setDb (start.db.createRoom none none id name password).2)
        (.opening ⟨id, name, password⟩)
  | inserting (iterate : Uuid → Fault) (id : Uuid) (room : ρ) : start.cancelled = false →
      start.db.findRoomsByName iterate name = .ok [] →
      Adding start name password
        ((start.setDb (start.db.createRoom none none id name password).2).openRoom room)
        (.inserting ⟨id, name, password⟩ room)
  | done (faults : AddFaults) (id : Uuid) (room : ρ) {result : Except StorageError Unit}
      {node : NodeRooms ρ} : start.addRoom faults id room name password = (result, node) →
      Adding start name password node (.done result)

/-- The node and the stage of a `remove_room` that runs alone, from the node `start`. -/
inductive Removing (start : NodeRooms ρ) (id : Uuid) : NodeRooms ρ → OpStage ρ → Prop
  | removing : Removing start id start (.removing id)
  | checking : start.cancelled = false → Removing start id start (.checking id)
  | dropping : start.cancelled = false → start.db.roomExists none id = .ok true →
      Removing start id start (.dropping id)
  | closing (room : ρ) : start.cancelled = false → start.db.roomExists none id = .ok true →
      start.rooms.lookup id = some room → Removing start id (start.eraseRoom id) (.closing id room)
  | looking : start.cancelled = false → start.db.roomExists none id = .ok true →
      Removing start id (start.dropRoom id) (.looking id)
  | erasing : start.cancelled = false → start.db.roomExists none id = .ok true →
      Removing start id (start.dropRoom id) (.erasing id)
  | flushing : start.cancelled = false → start.db.roomExists none id = .ok true →
      Removing start id ((start.dropRoom id).setDb ⟨start.db.rooms.erase id⟩) (.flushing id)
  | done (faults : RemoveFaults) {result : Except StorageError Unit} {node : NodeRooms ρ} :
      start.removeRoom faults id = (result, node) → Removing start id node (.done result)

section Alone

variable {D : RoomDisk σ} {s s' : Life σ ρ ι} {start : NodeRooms ρ} {stage stage' : OpStage ρ}
  {name password : String} {id : Uuid} {i : ι} {result : Except StorageError Unit}

/-- An `add_room` whose `create_room` fails. -/
lemma addRoom_of_createErr {faults : AddFaults} {room : ρ} {e : StorageError} {db : StorageDB}
    (hopen : start.cancelled = false)
    (hfind : start.db.findRoomsByName faults.iterate name = .ok [])
    (hcreate : start.db.createRoom faults.insert faults.persist id name password = (.error e, db)) :
    start.addRoom faults id room name password = (.error e, start.setDb db) := by
  rw [NodeRooms.addRoom, if_neg (by simp [hopen])]
  simp only [hfind, hcreate]

lemma addRoom_of_createOk {faults : AddFaults} {room : ρ} {model : RoomModel} {db : StorageDB}
    (hopen : start.cancelled = false)
    (hfind : start.db.findRoomsByName faults.iterate name = .ok [])
    (hcreate : start.db.createRoom faults.insert faults.persist id name password
      = (.ok model, db)) :
    start.addRoom faults id room name password
      = (.ok (), ((start.setDb db).openRoom room).insertRoom model.id room) := by
  rw [NodeRooms.addRoom, if_neg (by simp [hopen])]
  simp only [hfind, hcreate]

/-- A `remove_room` whose `delete_room` fails. -/
lemma removeRoom_of_deleteErr {faults : RemoveFaults} {e : StorageError} {db : StorageDB}
    (hopen : start.cancelled = false) (hcheck : faults.check = none)
    (hfound : start.db.roomExists none id = .ok true)
    (hdelete : start.db.deleteRoom faults.get faults.remove faults.persist id = (.error e, db)) :
    start.removeRoom faults id = (.error e, (start.dropRoom id).setDb db) := by
  rw [NodeRooms.removeRoom, if_neg (by simp [hopen])]
  simp only [hcheck, hfound, hdelete]

lemma removeRoom_of_deleteOk {faults : RemoveFaults} {existed : Bool} {db : StorageDB}
    (hopen : start.cancelled = false) (hcheck : faults.check = none)
    (hfound : start.db.roomExists none id = .ok true)
    (hdelete : start.db.deleteRoom faults.get faults.remove faults.persist id
      = (.ok existed, db)) :
    start.removeRoom faults id = (.ok (), (start.dropRoom id).setDb db) := by
  rw [NodeRooms.removeRoom, if_neg (by simp [hopen])]
  simp only [hcheck, hfound, hdelete]

/-- The keyspace has the key, and fails to remove it. -/
lemma deleteRoom_of_eraseErr {db : StorageDB} (hfound : db.roomExists none id = .ok true)
    (e : String) : db.deleteRoom none (some e) none id = (.error (.fjall e), db) := by
  rw [StorageDB.roomExists_eq, Except.ok.injEq] at hfound
  obtain ⟨value, hvalue⟩ := Option.isSome_iff_exists.mp hfound
  simp only [StorageDB.deleteRoom, StorageDB.get, hvalue]

/-- The keyspace has the key, and removes it. -/
lemma deleteRoom_of_flush {db : StorageDB} (hfound : db.roomExists none id = .ok true)
    (persist : Fault) : db.deleteRoom none none persist id
      = (persist.elim (.ok true) fun e => .error (.fjall e), ⟨db.rooms.erase id⟩) := by
  rw [StorageDB.roomExists_eq, Except.ok.injEq] at hfound
  obtain ⟨value, hvalue⟩ := Option.isSome_iff_exists.mp hfound
  simp only [StorageDB.deleteRoom, StorageDB.get, hvalue]
  cases persist <;> rfl

lemma setDb_dropRoom : (start.dropRoom id).setDb start.db = start.dropRoom id := by
  unfold NodeRooms.dropRoom
  cases start.rooms.lookup id <;> rfl

omit [DecidableEq ι] in
lemma Adding.opStep [Inhabited ρ] (h : Adding start name password (s.node D) stage)
    (hs : OpStep D s stage s' stage') : Adding start name password (s'.node D) stage' := by
  have failed (faults : AddFaults) (e : StorageError)
      (hadd : start.addRoom faults NodeRooms.hallId default name password = (.error e, s'.node D)) :
      Adding start name password (s'.node D) (.done (.error e)) := .done _ _ _ hadd
  generalize hnode : s.node D = node at h
  cases h with
  | adding =>
      subst hnode
      cases hs with
      | addClosed hc =>
          refine failed ⟨fun _ => none, none, none⟩ _ ?_
          rw [NodeRooms.addRoom, if_pos (show (s.node D).cancelled = true from hc)]
      | addOpen hc => exact .finding hc
  | finding hopen =>
      subst hnode
      cases hs with
      | findErr iterate e hfind =>
          refine failed ⟨iterate, none, none⟩ _ ?_
          rw [NodeRooms.addRoom, if_neg (by simp [hopen])]
          simp only [show (s.node D).db.findRoomsByName iterate name = _ from hfind]
      | findSome iterate model models hfind =>
          refine failed ⟨iterate, none, none⟩ _ ?_
          rw [NodeRooms.addRoom, if_neg (by simp [hopen])]
          simp only [show (s.node D).db.findRoomsByName iterate name = _ from hfind]
      | findNone iterate hfind => exact .creating iterate hopen hfind
  | creating iterate hopen hfind =>
      subst hnode
      cases hs with
      | insertErr e =>
          exact failed ⟨iterate, some e, none⟩ _ (addRoom_of_createErr hopen hfind rfl)
      | insertOk id disk hfresh hdisk =>
          have hnode : Life.node D { s with
              disk := disk, log := { s.log with used := id :: s.log.used } }
              = (s.node D).setDb ((s.node D).db.createRoom none none id name password).2 := by
            rw [node, db, D.contents_insert hdisk]
            rfl
          rw [hnode]
          exact .syncing iterate id hopen hfind
  | syncing iterate id hopen hfind =>
      have hkept (disk : σ) (hc : D.contents disk = D.contents s.disk) :
          Life.node D { s with disk := disk } = s.node D := by
        rw [node, db, hc]
        rfl
      cases hs with
      | syncErr e disk hdisk =>
          refine .done ⟨iterate, none, some e⟩ id default ?_
          rw [hkept disk (D.contents_persistErr hdisk), hnode]
          exact addRoom_of_createErr hopen hfind rfl
      | syncOk disk hdisk =>
          rw [hkept disk (D.contents_persist hdisk), hnode]
          exact .opening iterate id hopen hfind
  | opening iterate id hopen hfind =>
      cases hs with
      | openRoom room =>
          have hopened : Life.node D { s with isOpen := Function.update s.isOpen room true }
              = (s.node D).openRoom room := rfl
          rw [hopened, hnode]
          exact .inserting iterate id room hopen hfind
  | inserting iterate id room hopen hfind =>
      cases hs with
      | insertRoom =>
          refine .done ⟨iterate, none, none⟩ id room ?_
          have hinserted : Life.node D { s with
              rooms := s.rooms.insert id room
              log := { s.log with added := ⟨id, name, password⟩ :: s.log.added } }
              = (s.node D).insertRoom id room := rfl
          rw [hinserted, hnode]
          have hadd : start.addRoom ⟨iterate, none, none⟩ id room name password = _ :=
            addRoom_of_createOk hopen hfind rfl
          exact hadd
  | done faults id room hadd => cases hs

/-- An `add_room` beside which nothing runs does what the whole operation does, with the failures it
met and the id it chose. -/
theorem addRoom_of_alone [Inhabited ρ] (h : Alone D i s s')
    (hs : s.requests i = .adding name password) (hdone : s'.requests i = .done result) :
    ∃ faults id room, (s.node D).addRoom faults id room name password
      = (result, s'.node D) := by
  have hadding : Adding (s.node D) name password (s'.node D) (s'.requests i) := by
    clear hdone
    induction h with
    | refl =>
        rw [hs]
        exact .adding
    | tail _ hs ih =>
        cases hs with
        | request hs =>
            have hnext := ih.opStep hs
            rw [requests_setRequest_self]
            exact hnext
  rw [hdone] at hadding
  generalize hnode : s'.node D = node at hadding
  cases hadding with
  | done faults id room hadd => exact ⟨faults, id, room, hnode ▸ hadd⟩

omit [DecidableEq ι] in
lemma Removing.opStep (h : Removing start id (s.node D) stage)
    (hs : OpStep D s stage s' stage') : Removing start id (s'.node D) stage' := by
  generalize hnode : s.node D = node at h
  cases h with
  | removing =>
      subst hnode
      cases hs with
      | removeClosed hc =>
          refine .done ⟨none, none, none, none⟩ ?_
          rw [NodeRooms.removeRoom, if_pos (show (s.node D).cancelled = true from hc)]
      | removeOpen hc => exact .checking hc
  | checking hopen =>
      subst hnode
      cases hs with
      | checkErr e =>
          refine .done ⟨some e, none, none, none⟩ ?_
          rw [NodeRooms.removeRoom, if_neg (by simp [hopen])]
          rfl
      | checkMissing hmissing =>
          refine .done ⟨none, none, none, none⟩ ?_
          rw [NodeRooms.removeRoom, if_neg (by simp [hopen])]
          simp only [show (s.node D).db.roomExists none id = _ from hmissing]
      | checkFound hfound => exact .dropping hopen hfound
  | dropping hopen hfound =>
      subst hnode
      cases hs with
      | dropFound room hroom => exact .closing room hopen hfound hroom
      | dropMissing hroom =>
          have hsame : (s.node D).dropRoom id = s.node D := by
            rw [NodeRooms.dropRoom, show (s.node D).rooms.lookup id = _ from hroom]
          have hlooking := Removing.looking hopen hfound
          rwa [hsame] at hlooking
  | closing room hopen hfound hroom =>
      cases hs with
      | closeRoom =>
          have hclosed : Life.node D { s with isOpen := Function.update s.isOpen room false }
              = (s.node D).closeRoom room := rfl
          have hdrop : start.dropRoom id = (start.eraseRoom id).closeRoom room := by
            rw [NodeRooms.dropRoom, hroom]
          rw [hclosed, hnode, ← hdrop]
          exact .looking hopen hfound
  | looking hopen hfound =>
      have hdb : s.db D = start.db := by
        rw [← setDb_dropRoom] at hnode
        exact congrArg NodeRooms.db hnode
      cases hs with
      | lookErr e =>
          refine .done ⟨none, some e, none, none⟩ ?_
          rw [hnode, removeRoom_of_deleteErr hopen rfl hfound rfl, setDb_dropRoom]
      | lookMissing hmissing =>
          rw [hdb, ← AList.lookup_eq_none] at hmissing
          rw [StorageDB.roomExists_eq, hmissing] at hfound
          cases hfound
      | lookFound _ => exact hnode ▸ .erasing hopen hfound
  | erasing hopen hfound =>
      have hdb : s.db D = start.db := by
        rw [← setDb_dropRoom] at hnode
        exact congrArg NodeRooms.db hnode
      cases hs with
      | eraseErr e =>
          refine .done ⟨none, none, some e, none⟩ ?_
          have hdelete := deleteRoom_of_eraseErr hfound e
          rw [hnode, removeRoom_of_deleteErr hopen rfl hfound hdelete, setDb_dropRoom]
      | eraseOk disk hdisk =>
          have herased : Life.node D { s with
              disk := disk, log := { s.log with erased := id :: s.log.erased } }
              = (s.node D).setDb ⟨(s.db D).rooms.erase id⟩ := by
            rw [node, db, D.contents_remove hdisk]
            rfl
          rw [herased, hnode, hdb]
          exact .flushing hopen hfound
  | flushing hopen hfound =>
      have hkept (disk : σ) (log : LifeLog) (hc : D.contents disk = D.contents s.disk) :
          Life.node D { s with disk := disk, log := log } = s.node D := by
        rw [node, db, hc]
        rfl
      cases hs with
      | flushErr e disk hdisk =>
          refine .done ⟨none, none, none, some e⟩ ?_
          rw [hkept disk s.log (D.contents_persistErr hdisk), hnode]
          exact removeRoom_of_deleteErr hopen rfl hfound (deleteRoom_of_flush hfound (some e))
      | flushOk disk hdisk =>
          refine .done ⟨none, none, none, none⟩ ?_
          rw [hkept disk _ (D.contents_persist hdisk), hnode]
          exact removeRoom_of_deleteOk hopen rfl hfound (deleteRoom_of_flush hfound none)
  | done faults hremove => cases hs

/-- A `remove_room` beside which nothing runs does what the whole operation does, with the failures
it met. -/
theorem removeRoom_of_alone (h : Alone D i s s') (hs : s.requests i = .removing id)
    (hdone : s'.requests i = .done result) :
    ∃ faults, (s.node D).removeRoom faults id = (result, s'.node D) := by
  have hremoving : Removing (s.node D) id (s'.node D) (s'.requests i) := by
    clear hdone
    induction h with
    | refl =>
        rw [hs]
        exact .removing
    | tail _ hs ih =>
        cases hs with
        | request hs =>
            have hnext := ih.opStep hs
            rw [requests_setRequest_self]
            exact hnext
  rw [hdone] at hremoving
  generalize hnode : s'.node D = node at hremoving
  cases hremoving with
  | done faults hremove => exact ⟨faults, hnode ▸ hremove⟩

end Alone

end Life

end Fernq
