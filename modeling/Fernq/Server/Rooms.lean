import Mathlib.Tactic
import Fernq.Server.Storage

/-!
Adding and removing rooms (`ServerNode::add_room`, `ServerNode::remove_room` in
`fernqd/src/server/node.rs`): a room is in the store and in the map of the rooms in memory, and the
two are updated one after the other.

* `NodeRooms`: the store, the map, and which rooms are open.
* `addRoom`, `removeRoom`: the two operations, with the failures of the store as arguments.
* `failed_room_ops_unchanged_iff`: which failures leave everything as it was.
-/

namespace Fernq

/-- What the room operations of a node share: the store, the rooms in memory, and which of these
`Arc<Room>` are open. -/
structure NodeRooms (ρ : Type) where
  cancelled : Bool
  db : StorageDB
  rooms : AList fun _ : Uuid => ρ
  isOpen : ρ → Bool

/-- The failures of one call of `add_room`. -/
structure AddFaults where
  iterate : Uuid → Fault
  insert : Fault
  persist : Fault

/-- The failures of one call of `remove_room`. -/
structure RemoveFaults where
  check : Fault
  get : Fault
  remove : Fault
  persist : Fault

namespace NodeRooms

variable {ρ : Type} [DecidableEq ρ]

/-- `Room::new` and `Room::open`. -/
def openRoom (s : NodeRooms ρ) (room : ρ) : NodeRooms ρ :=
  { s with isOpen := Function.update s.isOpen room true }

/-- `Room::close`. -/
def closeRoom (s : NodeRooms ρ) (room : ρ) : NodeRooms ρ :=
  { s with isOpen := Function.update s.isOpen room false }

/-- `self.rooms.insert`. -/
def insertRoom (s : NodeRooms ρ) (id : Uuid) (room : ρ) : NodeRooms ρ :=
  { s with rooms := s.rooms.insert id room }

/-- `self.rooms.remove`. -/
def eraseRoom (s : NodeRooms ρ) (id : Uuid) : NodeRooms ρ :=
  { s with rooms := s.rooms.erase id }

def setDb (s : NodeRooms ρ) (db : StorageDB) : NodeRooms ρ := { s with db := db }

/-- The answer of a closed node. -/
def closedError : StorageError := .other "Server node is closed"

/-- 添加房间: `id` is the one that `Uuid::new_v4` returns, and `room` the new room. -/
def addRoom (s : NodeRooms ρ) (faults : AddFaults) (id : Uuid) (room : ρ) (name password : String) :
    Except StorageError Unit × NodeRooms ρ :=
  if s.cancelled then (.error closedError, s)
  else
    match s.db.findRoomsByName faults.iterate name with
    | .error e => (.error e, s)
    | .ok (_ :: _) => (.error (.other s!"Room '{name}' already exists"), s)
    | .ok [] =>
        match s.db.createRoom faults.insert faults.persist id name password with
        | (.error e, db) => (.error e, s.setDb db)
        | (.ok model, db) => (.ok (), ((s.setDb db).openRoom room).insertRoom model.id room)

/-- 从内存中移除并关闭房间. -/
def dropRoom (s : NodeRooms ρ) (id : Uuid) : NodeRooms ρ :=
  match s.rooms.lookup id with
  | some room => (s.eraseRoom id).closeRoom room
  | none => s

/-- 移除房间. -/
def removeRoom (s : NodeRooms ρ) (faults : RemoveFaults) (id : Uuid) :
    Except StorageError Unit × NodeRooms ρ :=
  if s.cancelled then (.error closedError, s)
  else
    match s.db.roomExists faults.check id with
    | .error e => (.error (.other s!"Failed to check room existence: {e.display}"), s)
    | .ok false => (.error (.other s!"Room '{id.hyphenated}' not found"), s)
    | .ok true =>
        match s.db.deleteRoom faults.get faults.remove faults.persist id with
        | (.error e, db) => (.error e, (s.dropRoom id).setDb db)
        | (.ok _, db) => (.ok (), (s.dropRoom id).setDb db)

/-- The same rooms are stored, the same are in memory, and the same are open. -/
structure Same (s s' : NodeRooms ρ) : Prop where
  db : ∀ id, s'.db.rooms.lookup id = s.db.rooms.lookup id
  rooms : ∀ id, s'.rooms.lookup id = s.rooms.lookup id
  isOpen : s'.isOpen = s.isOpen

/-- If the call has returned an error, all is as it was. -/
def FailsClean (s : NodeRooms ρ) (result : Except StorageError Unit × NodeRooms ρ) : Prop :=
  ∀ e, result.1 = .error e → Same s result.2

variable {s : NodeRooms ρ} {id : Uuid} {room : ρ} {name password : String}

omit [DecidableEq ρ] in
lemma Same.refl (s : NodeRooms ρ) : Same s s := ⟨fun _ => rfl, fun _ => rfl, rfl⟩

omit [DecidableEq ρ] in
lemma FailsClean.refl (s : NodeRooms ρ) (r : Except StorageError Unit) : FailsClean s (r, s) :=
  fun _ _ => Same.refl s

/-- A failed `add_room` has changed something exactly when the room was inserted and the persist
failed. -/
lemma failsClean_addRoom_iff (faults : AddFaults) :
    FailsClean s (s.addRoom faults id room name password) ↔
      ¬ (s.cancelled = false ∧ s.db.findRoomsByName faults.iterate name = .ok [] ∧
        faults.insert = none ∧ faults.persist ≠ none) := by
  rw [addRoom]
  cases hc : s.cancelled with
  | true => simp [FailsClean.refl]
  | false =>
    rw [if_neg Bool.false_ne_true]
    cases hfind : s.db.findRoomsByName faults.iterate name with
    | error e => simp [FailsClean.refl]
    | ok existing =>
      cases existing with
      | cons model models => simp [FailsClean.refl]
      | nil =>
        unfold StorageDB.createRoom StorageDB.saveRoom
        cases hinsert : faults.insert with
        | some e =>
          simp only [Except.map, reduceCtorEq, false_and, and_false, not_false_eq_true, iff_true]
          exact FailsClean.refl s (.error (.fjall e))
        | none =>
          cases hpersist : faults.persist with
          | none => simp [Except.map, FailsClean]
          | some e =>
            -- the room is stored now, and none of its name was
            simp only [Except.map, ne_eq, reduceCtorEq, not_false_eq_true, and_self,
              not_true_eq_false, iff_false]
            intro hclean
            have hsame := (hclean _ rfl).db id
            have hnew : s.db.rooms.lookup id = some (.ok ⟨id, name, password⟩) :=
              hsame.symm.trans (AList.lookup_insert _)
            obtain ⟨-, old, hold, hname⟩ :=
              StorageDB.findRoomsByName_eq_ok_nil_iff.mp hfind id _ hnew
            cases hold
            exact hname rfl

omit [DecidableEq ρ] in
lemma not_same_of_mem {s' : NodeRooms ρ} (hmem : id ∈ s.rooms) (hgone : s'.rooms.lookup id = none) :
    ¬ Same s s' := by
  intro hsame
  have hsome := AList.lookup_isSome.mpr hmem
  rw [← hsame.rooms id, hgone] at hsome
  cases hsome

lemma lookup_dropRoom (s : NodeRooms ρ) (id : Uuid) : (s.dropRoom id).rooms.lookup id = none := by
  unfold dropRoom
  split
  · exact AList.lookup_erase ..
  · assumption

lemma dropRoom_of_not_mem (h : id ∉ s.rooms) : s.dropRoom id = s := by
  rw [dropRoom, AList.lookup_eq_none.mpr h]

/-- A failed `remove_room` has changed something exactly when the room was taken out of the map
before the deletion failed, or the deletion was made and the persist failed. -/
lemma failsClean_removeRoom_iff (faults : RemoveFaults) :
    FailsClean s (s.removeRoom faults id) ↔
      ¬ (s.cancelled = false ∧ faults.check = none ∧ (s.db.rooms.lookup id).isSome ∧
        (id ∈ s.rooms ∧ (faults.get ≠ none ∨ faults.remove ≠ none) ∨
          faults.get = none ∧ faults.remove = none ∧ faults.persist ≠ none)) := by
  unfold removeRoom StorageDB.roomExists StorageDB.deleteRoom StorageDB.get
  cases hc : s.cancelled with
  | true => simp [FailsClean.refl]
  | false =>
    rw [if_neg Bool.false_ne_true]
    cases hcheck : faults.check with
    | some e => simp [Except.map, FailsClean.refl]
    | none =>
      cases hvalue : s.db.rooms.lookup id with
      | none => simp [Except.map, FailsClean.refl]
      | some value =>
        -- a call that fails before the deletion has only dropped the room
        have hearly : ∀ e, FailsClean s (.error e, (s.dropRoom id).setDb s.db) ↔ id ∉ s.rooms := by
          intro e
          constructor
          · intro hclean hmem
            have hgone : ((s.dropRoom id).setDb s.db).rooms.lookup id = none := lookup_dropRoom s id
            exact not_same_of_mem hmem hgone (hclean e rfl)
          · intro hmem
            rw [dropRoom_of_not_mem hmem]
            exact FailsClean.refl s (.error e)
        cases hget : faults.get with
        | some e => simpa [Except.map] using hearly (.fjall e)
        | none =>
          cases hremove : faults.remove with
          | some e => simpa [Except.map] using hearly (.fjall e)
          | none =>
            cases hpersist : faults.persist with
            | none => simp [Except.map, FailsClean]
            | some e =>
              simp only [Except.map, Option.isSome_some, ne_eq, reduceCtorEq, not_false_eq_true,
                and_self, or_true, not_true_eq_false, iff_false]
              intro hclean
              have hsame := (hclean _ rfl).db id
              rw [hvalue] at hsame
              have hgone : (s.db.rooms.erase id).lookup id = some value := hsame
              rw [AList.lookup_erase] at hgone
              cases hgone

/-- **Failed room operations change nothing, but for two kinds of failures.**  A call of `add_room`
that returns an error leaves the stored rooms, the rooms in memory and the open rooms as they were,
except when the store failed to persist the room it had inserted.  A call of `remove_room` that
returns an error does so, except when the deletion failed after the room had been taken out of
memory, or the store failed to persist the removal. -/
theorem failed_room_ops_unchanged_iff (s : NodeRooms ρ) :
    (∀ (faults : AddFaults) (id : Uuid) (room : ρ) (name password : String),
      FailsClean s (s.addRoom faults id room name password) ↔
        ¬ (s.cancelled = false ∧ s.db.findRoomsByName faults.iterate name = .ok [] ∧
          faults.insert = none ∧ faults.persist ≠ none)) ∧
    ∀ (faults : RemoveFaults) (id : Uuid),
      FailsClean s (s.removeRoom faults id) ↔
        ¬ (s.cancelled = false ∧ faults.check = none ∧ (s.db.rooms.lookup id).isSome ∧
          (id ∈ s.rooms ∧ (faults.get ≠ none ∨ faults.remove ≠ none) ∨
            faults.get = none ∧ faults.remove = none ∧ faults.persist ≠ none)) :=
  ⟨fun faults _ _ _ _ => failsClean_addRoom_iff faults,
    fun faults _ => failsClean_removeRoom_iff faults⟩

/-- A node with no rooms. -/
def emptyNode : NodeRooms ℕ where
  cancelled := false
  db := ⟨∅⟩
  rooms := ∅
  isOpen := fun _ => false

/-- The id of a new room. -/
def hallId : Uuid := ⟨List.replicate 16 2, rfl⟩

/-- The persist of `add_room` fails: the call returns an error, and the room is stored. -/
theorem failed_add_room_is_stored :
    let faults : AddFaults := ⟨fun _ => none, none, some "disk full"⟩
    let result := emptyNode.addRoom faults hallId 0 "hall" "pw"
    result.1 = .error (.fjall "disk full") ∧
      result.2.db.rooms.lookup hallId = some (.ok ⟨hallId, "hall", "pw"⟩) ∧
      emptyNode.db.rooms.lookup hallId = none ∧ ¬ FailsClean emptyNode result := by
  intro faults result
  have hresult : result.1 = .error (.fjall "disk full") := rfl
  have hstored : result.2.db.rooms.lookup hallId = some (.ok ⟨hallId, "hall", "pw"⟩) := rfl
  refine ⟨hresult, hstored, rfl, ?_⟩
  intro hclean
  have hsame := (hclean _ hresult).db hallId
  rw [hstored] at hsame
  cases hsame

end NodeRooms

end Fernq
