import Mathlib.Tactic
import Fernq.Server.Admission

/-!
The control requests of a node (`handle_request` in `fernqd/src/main.rs`): rooms are added and
removed by name, password and id.

* `handleRequest`: the answer to a request, and the node after it.
* `addArgs`: what the command `add` passes to `add_room`.
* `handleRequest_add`: a room is added exactly when `add_room` accepts what it is passed.
* `exists_verifyRoom_added_iff`: when a client can get into a room that was added.
* `added_room_readable_iff`: when a client can name it.
-/

namespace Fernq

/-- A control request. -/
structure Request where
  cmd : String
  roomName : Option String
  password : Option String
  roomId : Option String
  deriving DecidableEq

/-- The answer to a control request. -/
structure Response where
  success : Bool
  data : Option Json
  error : Option String

namespace Response

def done (data : Json) : Response := ⟨true, some data, none⟩

def failed (error : String) : Response := ⟨false, none, some error⟩

end Response

/-- The failures of the store during one request. -/
structure RequestFaults where
  add : AddFaults
  remove : RemoveFaults
  list : Uuid → Fault

/-- What the command `add` passes to `add_room`: the name must not be empty, and the password must
be there. -/
def addArgs (req : Request) : Except String (String × String) :=
  let name := req.roomName.filter fun s => !s.isEmpty
  let pwd := req.password
  match name, pwd with
  | none, _ => .error "room_name is required"
  | some _, none => .error "password is required"
  | some name, some pwd => .ok (name, pwd)

/-- The id of the command `remove`. -/
def removeArgs (parseStr : String → Except String Uuid) (req : Request) : Except String Uuid :=
  match req.roomId.filter fun s => !s.isEmpty with
  | none => .error "room_id is required"
  | some idStr =>
      match parseStr idStr with
      | .ok id => .ok id
      | .error e => .error s!"Invalid UUID format: {e}"

/-- A room in the answer to `list`. -/
def listEntry (room : RoomModel) : Json :=
  .object [("id", .string room.id.hyphenated), ("name", .string room.name),
    ("password", .string room.password)]

namespace NodeRooms

variable {ρ : Type} [DecidableEq ρ]

/-- 获取房间列表: nothing when the store fails. -/
def listRooms (s : NodeRooms ρ) (iterate : Uuid → Fault) : List RoomModel :=
  match s.db.listAllRooms iterate with
  | .ok rooms => rooms
  | .error _ => []

/-- The answer to a request.  `id` and `room` are the id and the room that an `add` would create. -/
def handleRequest (parseStr : String → Except String Uuid) (s : NodeRooms ρ)
    (faults : RequestFaults) (id : Uuid) (room : ρ) (addr : String) (req : Request) :
    Response × NodeRooms ρ :=
  if req.cmd = "add" then
    match addArgs req with
    | .error e => (.failed e, s)
    | .ok (name, pwd) =>
        match s.addRoom faults.add id room name pwd with
        | (.ok (), s') => (.done (.string "room added"), s')
        | (.error e, s') => (.failed s!"Failed to add room: {e.display}", s')
  else if req.cmd = "remove" then
    match removeArgs parseStr req with
    | .error e => (.failed e, s)
    | .ok roomId =>
        match s.removeRoom faults.remove roomId with
        | (.ok (), s') => (.done (.string "room removed"), s')
        | (.error e, s') => (.failed s!"Failed to remove room: {e.display}", s')
  else if req.cmd = "list" then
    (.done (.array ((s.listRooms faults.list).map listEntry)), s)
  else if req.cmd = "address" then (.done (.string addr), s)
  else (.failed s!"Unknown command: {req.cmd}", s)

end NodeRooms

/-- The name that is passed on is not empty, and both are the ones in the request. -/
lemma addArgs_eq_ok_iff {req : Request} {name password : String} :
    addArgs req = .ok (name, password)
      ↔ req.roomName = some name ∧ name ≠ "" ∧ req.password = some password := by
  unfold addArgs
  dsimp only
  constructor
  · intro h
    split at h
    · cases h
    · cases h
    · rename_i n p hname hpwd
      obtain ⟨rfl, rfl⟩ : n = name ∧ p = password := by simpa using h
      obtain ⟨hroom, hne⟩ := Option.filter_eq_some_iff.mp hname
      exact ⟨hroom, by simpa using hne, hpwd⟩
  · rintro ⟨hroom, hne, hpwd⟩
    have hfilter : req.roomName.filter (fun s => !s.isEmpty) = some name :=
      Option.filter_eq_some_iff.mpr ⟨hroom, by simpa using hne⟩
    rw [hfilter, hpwd]

namespace NodeRooms

variable {ρ : Type} [DecidableEq ρ] {s s' : NodeRooms ρ} {faults : RequestFaults}
  {id : Uuid} {room : ρ} {addr name password : String} {roomId : Option String}
  {parseStr : String → Except String Uuid}

/-- A room that `add_room` accepts is stored under its id, with its name and its password. -/
lemma lookup_addRoom {faults : AddFaults}
    (h : (s.addRoom faults id room name password).1 = .ok ()) :
    (s.addRoom faults id room name password).2.db.rooms.lookup id
      = some (.ok ⟨id, name, password⟩) := by
  unfold addRoom at h ⊢
  split_ifs at h ⊢ with hclosed
  cases hfind : s.db.findRoomsByName faults.iterate name with
  | error e => simp [hfind] at h
  | ok existing =>
    cases existing with
    | cons model models => simp [hfind] at h
    | nil =>
      cases hinsert : faults.insert with
      | some e => simp [hfind, hinsert, StorageDB.createRoom, StorageDB.saveRoom, Except.map] at h
      | none =>
        cases hpersist : faults.persist with
        | some e =>
            simp [hfind, hinsert, hpersist, StorageDB.createRoom, StorageDB.saveRoom,
              Except.map] at h
        | none => exact (s.db.lookup_createRoom id id name password).trans (if_pos rfl)

/-- The command `add` succeeds when there is a name that is not empty, and a password, and
`add_room` accepts them. -/
lemma handleRequest_add :
    (s.handleRequest parseStr faults id room addr
        ⟨"add", some name, some password, roomId⟩).1.success = true
      ↔ name ≠ "" ∧ (s.addRoom faults.add id room name password).1 = .ok () := by
  rw [handleRequest, if_pos rfl]
  by_cases hne : name = ""
  · have hargs : addArgs ⟨"add", some name, some password, roomId⟩
        = .error "room_name is required" := by rw [hne]; rfl
    rw [hargs]
    simp [Response.failed, hne]
  · have hargs : addArgs ⟨"add", some name, some password, roomId⟩ = .ok (name, password) :=
      addArgs_eq_ok_iff.mpr ⟨rfl, hne, rfl⟩
    rw [hargs]
    dsimp only
    cases hadd : s.addRoom faults.add id room name password with
    | mk result node => cases result <;> simp [Response.done, Response.failed, hne]

/-- A client can get into a room that was added exactly when it can name it: its first frame passes
the checks of the id, the name and the password. -/
lemma exists_verifyRoom_added_iff {faults : AddFaults} {toString : Json → String}
    {welcomeElapsed : Bool} (hadd : (s.addRoom faults id room name password).1 = .ok ()) :
    (∃ payload, verifyRoom ((s.addRoom faults id room name password).2.handshakeEnv parseStr
        toString none none welcomeElapsed) payload = .ok id)
      ↔ ∃ payload, parseValidate parseStr payload = .ok (id, name, password) := by
  have hlookup := lookup_addRoom hadd
  refine exists_congr fun payload => ?_
  rw [verifyRoom_eq_ok_iff]
  dsimp only [handshakeEnv]
  rw [StorageDB.roomExists_eq, hlookup]
  constructor
  · rintro ⟨model, hparse, -, hget⟩
    obtain ⟨-, hmodel⟩ := StorageDB.getRoom_eq_ok_some_iff.mp hget
    obtain rfl : model = ⟨id, name, password⟩ := by simpa [hlookup] using hmodel.symm
    exact hparse
  · intro hparse
    exact ⟨⟨id, name, password⟩, hparse, rfl,
      StorageDB.getRoom_eq_ok_some_iff.mpr ⟨rfl, hlookup⟩⟩

/-- The rooms that were added and that a client can name. -/
theorem added_room_readable_iff (parseStr : String → Except String Uuid) (s : NodeRooms ρ)
    (faults : RequestFaults) (id : Uuid) (room : ρ) (addr name password : String)
    (roomId : Option String) (hparse : parseStr id.hyphenated = .ok id)
    (hadd : (s.handleRequest parseStr faults id room addr
      ⟨"add", some name, some password, roomId⟩).1.success = true) :
    (∃ payload, parseValidate parseStr payload = .ok (id, name, password))
      ↔ '?' ∉ name.toList ∧ password ≠ "" ∧ '&' ∉ password.toList := by
  obtain ⟨hne, -⟩ := handleRequest_add.mp hadd
  rw [exists_parseValidate_iff hparse]
  simp [hne]

/-- A room for guests. -/
theorem added_room_readable_hall :
    (∃ payload, parseValidate (fun s => if s = hallId.hyphenated then .ok hallId
        else .error "length") payload = .ok (hallId, "hall/1#a", "p=w?x"))
      ↔ '?' ∉ "hall/1#a".toList ∧ "p=w?x" ≠ "" ∧ '&' ∉ "p=w?x".toList :=
  added_room_readable_iff (fun s => if s = hallId.hyphenated then .ok hallId else .error _)
    emptyNode ⟨⟨fun _ => none, none, none⟩, ⟨none, none, none, none⟩, fun _ => none⟩ hallId 0
    "h:9147" "hall/1#a" "p=w?x" none (if_pos rfl) (by rfl)

/-- Three rooms that the command `add` creates and that no text names: one has `?` in its name, one
has no password, and one has `&` in its password. -/
theorem added_room_unreadable :
    let add (name password : String) := (emptyNode.handleRequest (fun _ => .error "length")
      ⟨⟨fun _ => none, none, none⟩, ⟨none, none, none, none⟩, fun _ => none⟩ hallId 0 "h:9147"
      ⟨"add", some name, some password, none⟩).1.success
    (add "a?b" "pw" = true ∧ add "hall" "" = true ∧ add "hall" "p&w" = true) ∧
      ¬ ∃ (parseStr : String → Except String Uuid) (payload : List UInt8),
        parseValidate parseStr payload = .ok (hallId, "a?b", "pw") ∨
          parseValidate parseStr payload = .ok (hallId, "hall", "") ∨
          parseValidate parseStr payload = .ok (hallId, "hall", "p&w") := by
  refine ⟨⟨rfl, rfl, rfl⟩, ?_⟩
  rintro ⟨parseStr, payload, h | h | h⟩
  · exact (of_parseValidate_eq_ok h).1.2 (by decide)
  · exact (of_parseValidate_eq_ok h).2.1 rfl
  · exact (of_parseValidate_eq_ok h).2.2 (by decide)

end NodeRooms

end Fernq
