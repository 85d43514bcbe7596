import Mathlib.Tactic
import Mathlib.Data.List.AList
import Fernq.Protocol.Url

/-!
The room store (`fernqd/src/storage/db.rs`, `fernqd/src/storage/model.rs`): a keyspace from room ids
to serialised rooms.  Each operation of the keyspace may fail, and a persist that fails leaves what
was written before it visible.

* `StorageDB`: the keyspace; a value is what `RoomModel::from_bytes` makes of its bytes.
* `createRoom`, `getRoom`, `findRoomsByName`, `deleteRoom`, `roomExists`: the operations, with the
  failures of the keyspace as arguments.
* `findRoomsByName_eq_ok_nil_iff`: when no room of a name is found.
-/

namespace Fernq

/-- Storage 错误类型. -/
inductive StorageError
  | fjall (message : String)
  | serialization (message : String)
  | invalidData (message : String)
  | other (message : String)
  deriving DecidableEq

/-- The text of an error. -/
def StorageError.display : StorageError → String
  | .fjall e => s!"database error: {e}"
  | .serialization msg => s!"serialization error: {msg}"
  | .invalidData msg => s!"invalid data: {msg}"
  | .other msg => msg

/-- A stored room. -/
structure RoomModel where
  id : Uuid
  name : String
  password : String
  deriving DecidableEq

/-- 验证密码是否匹配. -/
def RoomModel.verifyPassword (room : RoomModel) (input : String) : Bool := room.password == input

/-- How an operation of the keyspace goes: it works, or it fails with a message. -/
abbrev Fault := Option String

/-- 数据库存储: the keyspace of the rooms.  A value is the room that `from_bytes` reads, or the message
with which it fails. -/
structure StorageDB where
  rooms : AList fun _ : Uuid => Except String RoomModel

namespace StorageDB

variable (db : StorageDB)

/-- `self.rooms.get(key)?`. -/
def get (fault : Fault) (id : Uuid) : Except StorageError (Option (Except String RoomModel)) :=
  match fault with
  | some e => .error (.fjall e)
  | none => .ok (db.rooms.lookup id)

/-- `RoomModel::from_bytes`. -/
def fromBytes (value : Except String RoomModel) : Except StorageError RoomModel :=
  match value with
  | .error e => .error (.serialization s!"decode failed: {e}")
  | .ok room => .ok room

/-- 保存房间: insert and persist. -/
def saveRoom (insert persist : Fault) (room : RoomModel) : Except StorageError Unit × StorageDB :=
  match insert with
  | some e => (.error (.fjall e), db)
  | none =>
      let db := ⟨db.rooms.insert room.id (.ok room)⟩
      match persist with
      | some e => (.error (.fjall e), db)
      | none => (.ok (), db)

/-- 创建房间, with the id that `Uuid::new_v4` returns. -/
def createRoom (insert persist : Fault) (id : Uuid) (name password : String) :
    Except StorageError RoomModel × StorageDB :=
  let room := ⟨id, name, password⟩
  let (saved, db) := db.saveRoom insert persist room
  (saved.map fun _ => room, db)

/-- 获取房间. -/
def getRoom (fault : Fault) (id : Uuid) : Except StorageError (Option RoomModel) :=
  match db.get fault id with
  | .error e => .error e
  | .ok none => .ok none
  | .ok (some value) => (fromBytes value).map some

/-- 列出所有房间: the items of an iteration, each of which may fail. -/
def listItems (iterate : Uuid → Fault) :
    List (Sigma fun _ : Uuid => Except String RoomModel) → Except StorageError (List RoomModel)
  | [] => .ok []
  | ⟨id, value⟩ :: items =>
      match iterate id with
      | some e => .error (.fjall e)
      | none =>
          match fromBytes value with
          | .error e => .error e
          | .ok room => (listItems iterate items).map (room :: ·)

def listAllRooms (iterate : Uuid → Fault) : Except StorageError (List RoomModel) :=
  listItems iterate db.rooms.entries

/-- The rooms of a name among the items of an iteration, each of which may fail. -/
def collectByName (iterate : Uuid → Fault) (name : String) :
    List (Sigma fun _ : Uuid => Except String RoomModel) → Except StorageError (List RoomModel)
  | [] => .ok []
  | ⟨id, value⟩ :: items =>
      match iterate id with
      | some e => .error (.fjall e)
      | none =>
          match fromBytes value with
          | .error e => .error e
          | .ok room =>
              (collectByName iterate name items).map fun rooms =>
                if room.name = name then room :: rooms else rooms

/-- 根据名称查找房间. -/
def findRoomsByName (iterate : Uuid → Fault) (name : String) :
    Except StorageError (List RoomModel) :=
  collectByName iterate name db.rooms.entries

/-- 删除房间: the value is looked up, and if it is there it is removed, and the keyspace persisted. -/
def deleteRoom (get remove persist : Fault) (id : Uuid) : Except StorageError Bool × StorageDB :=
  match db.get get id with
  | .error e => (.error e, db)
  | .ok none => (.ok false, db)
  | .ok (some _) =>
      match remove with
      | some e => (.error (.fjall e), db)
      | none =>
          let db := ⟨db.rooms.erase id⟩
          match persist with
          | some e => (.error (.fjall e), db)
          | none => (.ok true, db)

/-- 房间是否存在. -/
def roomExists (fault : Fault) (id : Uuid) : Except StorageError Bool :=
  (db.get fault id).map Option.isSome

variable {db} {id id' : Uuid} {name password : String} {iterate : Uuid → Fault}

lemma collectByName_eq_ok_nil_iff
    {items : List (Sigma fun _ : Uuid => Except String RoomModel)} :
    collectByName iterate name items = .ok [] ↔
      ∀ item ∈ items, iterate item.1 = none ∧ ∃ room, item.2 = .ok room ∧ room.name ≠ name := by
  induction items with
  | nil => simp [collectByName]
  | cons item items ih =>
      obtain ⟨id, value⟩ := item
      rw [List.forall_mem_cons, ← ih, collectByName]
      cases hfault : iterate id with
      | some e => simp
      | none =>
          cases value with
          | error e => simp [fromBytes]
          | ok room =>
              cases collectByName iterate name items with
              | error e => simp [fromBytes, Except.map]
              | ok rooms =>
                  by_cases hname : room.name = name
                  · simp [fromBytes, Except.map, hname]
                  · simp [fromBytes, Except.map, hname]

/-- No room of the name is found: every item is read, and none has it. -/
lemma findRoomsByName_eq_ok_nil_iff :
    db.findRoomsByName iterate name = .ok [] ↔
      ∀ id value, db.rooms.lookup id = some value →
        iterate id = none ∧ ∃ room, value = .ok room ∧ room.name ≠ name := by
  rw [findRoomsByName, collectByName_eq_ok_nil_iff]
  constructor
  · intro h id value hvalue
    exact h ⟨id, value⟩ (AList.mem_lookup_iff.mp hvalue)
  · rintro h ⟨id, value⟩ hmem
    exact h id value (AList.mem_lookup_iff.mpr hmem)

/-! ### When nothing fails -/

lemma roomExists_eq (id : Uuid) : db.roomExists none id = .ok (db.rooms.lookup id).isSome := rfl

/-- A room is got when one is stored that can be read. -/
lemma getRoom_eq_ok_some_iff {fault : Fault} {room : RoomModel} :
    db.getRoom fault id = .ok (some room) ↔ fault = none ∧
      db.rooms.lookup id = some (.ok room) := by
  unfold getRoom get
  cases fault with
  | some e => simp
  | none =>
      cases hvalue : db.rooms.lookup id with
      | none => simp
      | some value => cases value <;> simp [fromBytes, Except.map]

/-- A deletion leaves the other rooms. -/
lemma lookup_deleteRoom (id id' : Uuid) :
    (db.deleteRoom none none none id).2.rooms.lookup id'
      = if id' = id then none else db.rooms.lookup id' := by
  simp only [deleteRoom, get]
  cases hvalue : db.rooms.lookup id with
  | none =>
      split_ifs with heq
      · rw [heq]
        exact hvalue
      · rfl
  | some value =>
      split_ifs with heq
      · rw [heq]
        exact AList.lookup_erase ..
      · exact AList.lookup_erase_ne heq

lemma lookup_createRoom (id id' : Uuid) (name password : String) :
    (db.createRoom none none id name password).2.rooms.lookup id'
      = if id' = id then some (.ok ⟨id, name, password⟩) else db.rooms.lookup id' := by
  split_ifs with heq
  · rw [heq]
    exact AList.lookup_insert _
  · exact AList.lookup_insert_ne heq

end StorageDB

end Fernq
