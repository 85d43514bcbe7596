import Mathlib.Tactic
import Fernq.Server.Directory

/-!
Passwords stay in the node: who does not know the password of a room, and does not ask for it by
`--json` or `--show_pwd`, cannot tell two nodes apart that differ only in their passwords.

* `SamePublic`: two nodes with the same rooms, up to the passwords.
* `addRoom_same`, `removeRoom_same`, `handleRequest_same`: the operations do not look at passwords.
* `Contact`, `NodeRooms.strangers`: runs of `fernqctl` and attempts to connect.
* `passwords_stay_hidden`: the same contacts see the same.
-/

namespace Fernq

/-- What is no secret of a stored value. -/
def hidePassword (value : Except String RoomModel) : Except String (Uuid × String) :=
  value.map fun room => (room.id, room.name)

/-- An item of the store without the password. -/
def hideItem (item : Sigma fun _ : Uuid => Except String RoomModel) :
    Uuid × Except String (Uuid × String) := (item.1, hidePassword item.2)

/-- The rooms of two nodes are the same up to their passwords. -/
structure SamePublic {ρ : Type} (s t : NodeRooms ρ) : Prop where
  cancelled : t.cancelled = s.cancelled
  db : t.db.rooms.entries.map hideItem = s.db.rooms.entries.map hideItem
  rooms : t.rooms = s.rooms
  isOpen : t.isOpen = s.isOpen

/-! ### The store -/

section Store

variable {items items' : List (Sigma fun _ : Uuid => Except String RoomModel)} {id : Uuid}
  {iterate : Uuid → Fault} {name : String}

/-- The rule for two lists of items that are the same up to passwords. -/
lemma same_items_induction {P : List (Sigma fun _ : Uuid => Except String RoomModel) →
      List (Sigma fun _ : Uuid => Except String RoomModel) → Prop} (hnil : P [] [])
    (herror : ∀ id e items items', P items items' →
      P (⟨id, .error e⟩ :: items) (⟨id, .error e⟩ :: items'))
    (hok : ∀ id room room' items items', room'.id = room.id → room'.name = room.name →
      P items items' → P (⟨id, .ok room⟩ :: items) (⟨id, .ok room'⟩ :: items'))
    (h : items'.map hideItem = items.map hideItem) : P items items' := by
  induction items generalizing items' with
  | nil =>
      obtain rfl := List.map_eq_nil_iff.mp h
      exact hnil
  | cons item items ih =>
      cases items' with
      | nil => cases h
      | cons item' items' =>
        obtain ⟨hitem, hrest⟩ := List.cons.inj h
        obtain ⟨id, value⟩ := item
        obtain ⟨id', value'⟩ := item'
        obtain ⟨hid, hvalue⟩ := Prod.mk.inj hitem
        dsimp only at hid hvalue
        subst hid
        cases value with
        | error e =>
          cases value' with
          | error e' =>
              cases hvalue
              exact herror _ _ _ _ (ih hrest)
          | ok room' => cases hvalue
        | ok room =>
          cases value' with
          | error e' => cases hvalue
          | ok room' =>
              obtain ⟨hroom, hname⟩ := Prod.mk.inj (Except.ok.inj hvalue)
              exact hok _ _ _ _ _ hroom hname (ih hrest)

/-- The values under a key are the same. -/
lemma dlookup_same (h : items'.map hideItem = items.map hideItem) (id : Uuid) :
    (items'.dlookup id).map hidePassword = (items.dlookup id).map hidePassword := by
  refine same_items_induction (P := fun items items' =>
    (items'.dlookup id).map hidePassword = (items.dlookup id).map hidePassword) rfl ?_ ?_ h
  · intro key e items items' ih
    by_cases hkey : id = key
    · subst hkey
      rw [List.dlookup_cons_eq, List.dlookup_cons_eq]
    · rwa [List.dlookup_cons_ne _ _ hkey, List.dlookup_cons_ne _ _ hkey]
  · intro key room room' items items' hid hname ih
    by_cases hkey : id = key
    · subst hkey
      rw [List.dlookup_cons_eq, List.dlookup_cons_eq]
      simp only [Option.map_some, hidePassword, Except.map, hid, hname]
    · rwa [List.dlookup_cons_ne _ _ hkey, List.dlookup_cons_ne _ _ hkey]

lemma listItems_same (h : items'.map hideItem = items.map hideItem) (iterate : Uuid → Fault) :
    (StorageDB.listItems iterate items').map (List.map fun room => (room.id, room.name))
      = (StorageDB.listItems iterate items).map (List.map fun room => (room.id, room.name)) := by
  refine same_items_induction (P := fun items items' =>
    (StorageDB.listItems iterate items').map (List.map fun room => (room.id, room.name))
      = (StorageDB.listItems iterate items).map (List.map fun room => (room.id, room.name)))
    rfl ?_ ?_ h
  · intro key e items items' ih
    rw [StorageDB.listItems, StorageDB.listItems]
    cases iterate key <;> rfl
  · intro key room room' items items' hid hname ih
    rw [StorageDB.listItems, StorageDB.listItems]
    cases iterate key with
    | some e => rfl
    | none =>
        dsimp only [StorageDB.fromBytes]
        cases hlist : StorageDB.listItems iterate items <;>
          cases hlist' : StorageDB.listItems iterate items' <;>
          simp_all [Except.map]

lemma collectByName_same (h : items'.map hideItem = items.map hideItem) (iterate : Uuid → Fault)
    (name : String) :
    (StorageDB.collectByName iterate name items').map List.length
      = (StorageDB.collectByName iterate name items).map List.length := by
  refine same_items_induction (P := fun items items' =>
    (StorageDB.collectByName iterate name items').map List.length
      = (StorageDB.collectByName iterate name items).map List.length) rfl ?_ ?_ h
  · intro key e items items' ih
    rw [StorageDB.collectByName, StorageDB.collectByName]
    cases iterate key <;> rfl
  · intro key room room' items items' hid hname ih
    rw [StorageDB.collectByName, StorageDB.collectByName]
    cases iterate key with
    | some e => rfl
    | none =>
        dsimp only [StorageDB.fromBytes]
        rw [hname]
        cases hlist : StorageDB.collectByName iterate name items <;>
          cases hlist' : StorageDB.collectByName iterate name items' <;>
          by_cases hroom : room.name = name <;>
          simp_all [Except.map]

lemma kerase_same (h : items'.map hideItem = items.map hideItem) (id : Uuid) :
    (items'.kerase id).map hideItem = (items.kerase id).map hideItem := by
  have herase (items : List (Sigma fun _ : Uuid => Except String RoomModel)) :
      (items.kerase id).map hideItem = (items.map hideItem).eraseP fun item => id = item.1 := by
    rw [List.eraseP_map]
    rfl
  rw [herase, herase, h]

end Store

/-! ### The operations of the node -/

section Operations

variable {ρ : Type} {s t : NodeRooms ρ} {id : Uuid} {room : ρ} {name password addr : String}

lemma SamePublic.lookup (h : SamePublic s t) (id : Uuid) :
    (t.db.rooms.lookup id).map hidePassword = (s.db.rooms.lookup id).map hidePassword :=
  dlookup_same h.db id

lemma SamePublic.isSome_lookup (h : SamePublic s t) (id : Uuid) :
    (t.db.rooms.lookup id).isSome = (s.db.rooms.lookup id).isSome := by
  have hlookup := congrArg Option.isSome (h.lookup id)
  rwa [Option.isSome_map, Option.isSome_map] at hlookup

lemma SamePublic.insert (h : SamePublic s t) (id : Uuid) (value : Except String RoomModel) :
    (t.db.rooms.insert id value).entries.map hideItem
      = (s.db.rooms.insert id value).entries.map hideItem := by
  rw [AList.entries_insert, AList.entries_insert, List.map_cons, List.map_cons,
    kerase_same h.db id]

lemma SamePublic.erase (h : SamePublic s t) (id : Uuid) :
    (t.db.rooms.erase id).entries.map hideItem = (s.db.rooms.erase id).entries.map hideItem :=
  kerase_same h.db id

variable [DecidableEq ρ]

/-- `add_room` looks at names only. -/
lemma addRoom_same (h : SamePublic s t) (faults : AddFaults) (id : Uuid) (room : ρ)
    (name password : String) :
    (t.addRoom faults id room name password).1 = (s.addRoom faults id room name password).1 ∧
      SamePublic (s.addRoom faults id room name password).2
        (t.addRoom faults id room name password).2 := by
  unfold NodeRooms.addRoom
  rw [h.cancelled]
  split_ifs
  · exact ⟨rfl, h⟩
  have hfind := collectByName_same h.db faults.iterate name
  change (t.db.findRoomsByName faults.iterate name).map _
    = (s.db.findRoomsByName faults.iterate name).map _ at hfind
  cases hs : s.db.findRoomsByName faults.iterate name with
  | error e =>
      cases ht : t.db.findRoomsByName faults.iterate name with
      | error e' =>
          rw [hs, ht] at hfind
          cases hfind
          exact ⟨rfl, h⟩
      | ok models => rw [hs, ht] at hfind; cases hfind
  | ok models =>
      cases ht : t.db.findRoomsByName faults.iterate name with
      | error e => rw [hs, ht] at hfind; cases hfind
      | ok models' =>
          rw [hs, ht] at hfind
          have hlen : models'.length = models.length := Except.ok.inj hfind
          cases models with
          | cons model models =>
              cases models' with
              | nil => cases hlen
              | cons model' models' => exact ⟨rfl, h⟩
          | nil =>
              obtain rfl := List.length_eq_zero_iff.mp hlen
              unfold StorageDB.createRoom StorageDB.saveRoom
              cases faults.insert with
              | some e => exact ⟨rfl, h.cancelled, h.db, h.rooms, h.isOpen⟩
              | none =>
                  cases faults.persist with
                  | some e => exact ⟨rfl, h.cancelled, h.insert id _, h.rooms, h.isOpen⟩
                  | none =>
                      refine ⟨rfl, h.cancelled, h.insert id _, ?_, ?_⟩
                      · exact congrArg (fun rooms => rooms.insert id room) h.rooms
                      · exact congrArg (fun isOpen => Function.update isOpen room true) h.isOpen

lemma dropRoom_same (h : SamePublic s t) (id : Uuid) :
    SamePublic (s.dropRoom id) (t.dropRoom id) := by
  unfold NodeRooms.dropRoom
  rw [h.rooms]
  cases s.rooms.lookup id with
  | none => exact h
  | some room =>
      refine ⟨h.cancelled, h.db, ?_, ?_⟩
      · exact congrArg (fun rooms => rooms.erase id) h.rooms
      · exact congrArg (fun isOpen => Function.update isOpen room false) h.isOpen

/-- `remove_room` does not look at the room. -/
lemma removeRoom_same (h : SamePublic s t) (faults : RemoveFaults) (id : Uuid) :
    (t.removeRoom faults id).1 = (s.removeRoom faults id).1 ∧
      SamePublic (s.removeRoom faults id).2 (t.removeRoom faults id).2 := by
  have hdrop := dropRoom_same h id
  have hsome := h.isSome_lookup id
  unfold NodeRooms.removeRoom StorageDB.roomExists StorageDB.deleteRoom StorageDB.get
  rw [h.cancelled]
  split_ifs
  · exact ⟨rfl, h⟩
  cases faults.check with
  | some e => exact ⟨rfl, h⟩
  | none =>
    cases hs : s.db.rooms.lookup id with
    | none =>
        have ht : t.db.rooms.lookup id = none := by
          rw [hs] at hsome
          exact Option.not_isSome_iff_eq_none.mp (by simp [hsome])
        rw [ht]
        exact ⟨rfl, h⟩
    | some value =>
        obtain ⟨value', ht⟩ : ∃ value', t.db.rooms.lookup id = some value' := by
          rw [hs] at hsome
          exact Option.isSome_iff_exists.mp hsome
        rw [ht]
        cases faults.get with
        | some e => exact ⟨rfl, hdrop.cancelled, h.db, hdrop.rooms, hdrop.isOpen⟩
        | none =>
          cases faults.remove with
          | some e => exact ⟨rfl, hdrop.cancelled, h.db, hdrop.rooms, hdrop.isOpen⟩
          | none =>
            cases faults.persist with
            | some e => exact ⟨rfl, hdrop.cancelled, h.erase id, hdrop.rooms, hdrop.isOpen⟩
            | none => exact ⟨rfl, hdrop.cancelled, h.erase id, hdrop.rooms, hdrop.isOpen⟩

omit [DecidableEq ρ] in
/-- The rooms that are listed are the same up to their passwords. -/
lemma listRooms_same (h : SamePublic s t) (iterate : Uuid → Fault) :
    (t.listRooms iterate).map (fun room => (room.id, room.name))
      = (s.listRooms iterate).map fun room => (room.id, room.name) := by
  have hitems := listItems_same h.db iterate
  unfold NodeRooms.listRooms StorageDB.listAllRooms
  cases hs : StorageDB.listItems iterate s.db.rooms.entries with
  | error e =>
      cases ht : StorageDB.listItems iterate t.db.rooms.entries with
      | error e' => rfl
      | ok models' => rw [hs, ht] at hitems; cases hitems
  | ok models =>
      cases ht : StorageDB.listItems iterate t.db.rooms.entries with
      | error e' => rw [hs, ht] at hitems; cases hitems
      | ok models' =>
          rw [hs, ht] at hitems
          exact Except.ok.inj hitems

/-- Answers that are the same up to the passwords in a list of rooms. -/
inductive SameAnswer : Response → Response → Prop
  | refl (resp : Response) : SameAnswer resp resp
  | listed {models models' : List RoomModel} :
      models'.map (fun room => (room.id, room.name))
        = models.map (fun room => (room.id, room.name)) →
      SameAnswer (.done (.array (models.map listEntry))) (.done (.array (models'.map listEntry)))

/-- Requests are handled in the same way, and only `list` is answered with passwords. -/
lemma handleRequest_same (h : SamePublic s t) (parseStr : String → Except String Uuid)
    (faults : RequestFaults) (id : Uuid) (room : ρ) (addr : String) (req : Request) :
    (req.cmd ≠ "list" → (t.handleRequest parseStr faults id room addr req).1
      = (s.handleRequest parseStr faults id room addr req).1) ∧
    SameAnswer (s.handleRequest parseStr faults id room addr req).1
      (t.handleRequest parseStr faults id room addr req).1 ∧
    SamePublic (s.handleRequest parseStr faults id room addr req).2
      (t.handleRequest parseStr faults id room addr req).2 := by
  unfold NodeRooms.handleRequest
  split_ifs with hadd hremove hlist haddress
  · cases addArgs req with
    | error e => exact ⟨fun _ => rfl, .refl _, h⟩
    | ok args =>
        obtain ⟨name, password⟩ := args
        obtain ⟨hresult, hnode⟩ := addRoom_same h faults.add id room name password
        dsimp only
        cases hs : s.addRoom faults.add id room name password with
        | mk result s' =>
          cases ht : t.addRoom faults.add id room name password with
          | mk result' t' =>
            rw [hs, ht] at hresult hnode
            obtain rfl : result' = result := hresult
            cases result' <;> exact ⟨fun _ => rfl, .refl _, hnode⟩
  · cases removeArgs parseStr req with
    | error e => exact ⟨fun _ => rfl, .refl _, h⟩
    | ok roomId =>
        obtain ⟨hresult, hnode⟩ := removeRoom_same h faults.remove roomId
        dsimp only
        cases hs : s.removeRoom faults.remove roomId with
        | mk result s' =>
          cases ht : t.removeRoom faults.remove roomId with
          | mk result' t' =>
            rw [hs, ht] at hresult hnode
            obtain rfl : result' = result := hresult
            cases result' <;> exact ⟨fun _ => rfl, .refl _, hnode⟩
  · exact ⟨fun hcmd => absurd hlist hcmd, .listed (listRooms_same h faults.list), h⟩
  · exact ⟨fun _ => rfl, .refl _, h⟩
  · exact ⟨fun _ => rfl, .refl _, h⟩

end Operations

/-! ### Runs of the client -/

section Visits

variable {ρ : Type} [DecidableEq ρ] {s t : NodeRooms ρ} {env : CtlEnv} {addr : String}

/-- The passwords of a list are not printed, unless they are asked for. -/
lemma show_same {cli : Cli} {resp resp' : Response} (h : SameAnswer resp resp')
    (hjson : cli.json = false) (hshow : cli.showPwd = false) (hcommand : cli.command = .list) :
    cli.show env resp' = cli.show env resp := by
  cases h with
  | refl => rfl
  | @listed models models' hmodels =>
      have hlen := congrArg List.length hmodels
      rw [List.length_map, List.length_map] at hlen
      have hrow : roomRow env false = (fun room : Uuid × String =>
          env.paint .dimmed room.1.hyphenated ++ " " ++ padRight 20 ' ' room.2 ++ " " ++
            env.paint .yellow "******") ∘ fun room => (room.id, room.name) := rfl
      have htable : roomTable env false models' = roomTable env false models := by
        have hnil : models' = [] ↔ models = [] := by
          rw [← List.length_eq_zero_iff, hlen, List.length_eq_zero_iff]
        unfold roomTable
        rw [hrow, ← List.map_map, ← List.map_map, hmodels, hlen]
        simp only [hnil]
      have hline (models : List RoomModel) :
          cli.show env (.done (.array (models.map listEntry)))
            = .ok (roomTable env false models) := by
        unfold Cli.show
        rw [if_neg (by simp [hjson]), if_neg (by simp [Response.done]), hcommand, hshow]
        dsimp only [Response.done]
        rw [printRoomList_eq]
      rw [hline, hline, htable]

/-- A run of the client that asks for no passwords. -/
def Visit.Discreet (v : Visit ρ) : Prop :=
  v.cli.command = .list → v.cli.json = false ∧ v.cli.showPwd = false

/-- The answers to a request are the same, but for lists of rooms that may be lost. -/
lemma exchange_same (hserde : env.serde.Lawful) (h : SamePublic s t) (addr : String) (v : Visit ρ)
    (req : Request) :
    SamePublic (s.exchange env addr v req).2 (t.exchange env addr v req).2 ∧
    ((t.exchange env addr v req).1 = (s.exchange env addr v req).1 ∨
      req.cmd = "list" ∧ ((∃ e, (s.exchange env addr v req).1 = .error e) ∨
        (∃ e, (t.exchange env addr v req).1 = .error e) ∨
        ∃ resp resp', (s.exchange env addr v req).1 = .ok resp ∧
          (t.exchange env addr v req).1 = .ok resp' ∧ SameAnswer resp resp')) := by
  unfold NodeRooms.exchange
  rcases controlTask_visit hserde v req with htask | ⟨⟨error, htask⟩, -⟩ | htask
  · rw [htask]
    dsimp only [NodeRooms.serveControl]
    obtain ⟨heq, hanswer, hnode⟩ :=
      handleRequest_same h env.parseStr v.faults v.id v.room addr req
    refine ⟨hnode, ?_⟩
    by_cases hlist : req.cmd = "list"
    · refine .inr ⟨hlist, ?_⟩
      cases hs : sendRequest env.serde (v.stream (answerText env.serde
          (some (s.handleRequest env.parseStr v.faults v.id v.room addr req).1))) req with
      | error e => exact .inl ⟨e, rfl⟩
      | ok resp =>
        cases ht : sendRequest env.serde (v.stream (answerText env.serde
            (some (t.handleRequest env.parseStr v.faults v.id v.room addr req).1))) req with
        | error e => exact .inr (.inl ⟨e, rfl⟩)
        | ok resp' =>
          have hresp := sendRequest_visit hserde
            (by simpa using plain_handleRequest addr s req env.parseStr v.faults v.id v.room) hs
          have hresp' := sendRequest_visit hserde
            (by simpa using plain_handleRequest addr t req env.parseStr v.faults v.id v.room) ht
          rw [Option.some.inj hresp, Option.some.inj hresp'] at hanswer
          exact .inr (.inr ⟨resp, resp', rfl, rfl, hanswer⟩)
    · rw [heq hlist]
      exact .inl rfl
  · rw [htask]
    exact ⟨h, .inl rfl⟩
  · rw [htask]
    exact ⟨h, .inl rfl⟩

/-- What the client prints is the same, unless it has lost the answer of one of the nodes. -/
lemma visit_same (hserde : env.serde.Lawful) (h : SamePublic s t) {v : Visit ρ} (hv : v.Discreet)
    (addr : String) :
    ((t.visit env addr v).1 = (s.visit env addr v).1 ∨
      (s.visit env addr v).1 = .error v.cli.cannotConnect ∨
      (t.visit env addr v).1 = .error v.cli.cannotConnect) ∧
    SamePublic (s.visit env addr v).2 (t.visit env addr v).2 := by
  rcases v.request_cases env.parseStr with ⟨e, hreq⟩ | ⟨req, hreq⟩
  · rw [visit_of_error hreq, visit_of_error hreq]
    exact ⟨.inl rfl, h⟩
  · rw [visit_of_request hreq, visit_of_request hreq]
    obtain ⟨hnode, hanswer⟩ := exchange_same hserde h addr v req
    refine ⟨?_, hnode⟩
    rcases hanswer with heq | ⟨hlist, ⟨e, he⟩ | ⟨e, he⟩ | ⟨resp, resp', hs, ht, hresp⟩⟩
    · exact .inl (by rw [heq])
    · exact .inr (.inl (by rw [he]; rfl))
    · exact .inr (.inr (by rw [he]; rfl))
    · have hcommand := Commands.eq_list_of_request hreq hlist
      obtain ⟨hjson, hshow⟩ := hv hcommand
      rw [hs, ht]
      exact .inl (show_same hresp hjson hshow hcommand)

end Visits

/-! ### Attempts to connect -/

section Attempts

variable {ρ : Type} {s t : NodeRooms ρ} {parseStr : String → Except String Uuid}
  {payload : List UInt8}

/-- The text of a first frame has the password of the room that it names. -/
def KnowsPassword (parseStr : String → Except String Uuid) (db : StorageDB) (payload : List UInt8) :
    Prop :=
  ∃ id room, parseValidate parseStr payload = .ok (id, room.name, room.password) ∧
    db.rooms.lookup id = some (.ok room)

lemma roomExists_same (h : SamePublic s t) (fault : Fault) (id : Uuid) :
    t.db.roomExists fault id = s.db.roomExists fault id := by
  cases fault with
  | some e => rfl
  | none => exact congrArg Except.ok (h.isSome_lookup id)

/-- A password that is wrong for both nodes is refused by both in the same way. -/
lemma checkRoom_same (h : SamePublic s t) (fault : Fault) (id : Uuid) (name password : String)
    (hs : ∀ room, s.db.rooms.lookup id = some (.ok room) → room.name = name →
      room.password ≠ password)
    (ht : ∀ room, t.db.rooms.lookup id = some (.ok room) → room.name = name →
      room.password ≠ password) :
    checkRoom (t.db.getRoom fault id) name password
      = checkRoom (s.db.getRoom fault id) name password := by
  have hlookup := h.lookup id
  unfold StorageDB.getRoom StorageDB.get
  cases fault with
  | some e => rfl
  | none =>
    cases hsl : s.db.rooms.lookup id with
    | none =>
        rw [hsl, Option.map_none, Option.map_eq_none_iff] at hlookup
        rw [hlookup]
    | some value =>
        rw [hsl, Option.map_some, Option.map_eq_some_iff] at hlookup
        obtain ⟨value', htl, hvalue⟩ := hlookup
        rw [htl]
        cases value with
        | error e =>
          cases value' with
          | error e' =>
              cases hvalue
              rfl
          | ok room' => cases hvalue
        | ok room =>
          cases value' with
          | error e' => cases hvalue
          | ok room' =>
              obtain ⟨-, hname⟩ := Prod.mk.inj (Except.ok.inj hvalue)
              change (if room'.name ≠ name then _ else
                  if ¬ room'.verifyPassword password then _ else _)
                = if room.name ≠ name then _ else if ¬ room.verifyPassword password then _ else _
              rw [hname]
              by_cases hroom : room.name = name
              · have hwrong := hs room hsl hroom
                have hwrong' := ht room' htl (hname.trans hroom)
                rw [if_neg (not_not.mpr hroom), if_neg (not_not.mpr hroom),
                  if_pos (by simpa [RoomModel.verifyPassword] using hwrong'),
                  if_pos (by simpa [RoomModel.verifyPassword] using hwrong)]
              · rw [if_pos hroom, if_pos hroom]

lemma verifyRoom_same (h : SamePublic s t) (toString : Json → String)
    (existsFault getFault : Fault) (elapsed : Bool)
    (hs : ¬ KnowsPassword parseStr s.db payload) (ht : ¬ KnowsPassword parseStr t.db payload) :
    verifyRoom (t.handshakeEnv parseStr toString existsFault getFault elapsed) payload
      = verifyRoom (s.handshakeEnv parseStr toString existsFault getFault elapsed) payload := by
  rw [verifyRoom_eq, verifyRoom_eq]
  dsimp only [NodeRooms.handshakeEnv]
  cases hparse : parseValidate parseStr payload with
  | err e => rfl
  | panicked => rfl
  | ok named =>
      obtain ⟨id, name, password⟩ := named
      have hcheck := checkRoom_same h getFault id name password
        (fun room hl hname hpassword => hs ⟨id, room, hname ▸ hpassword ▸ hparse, hl⟩)
        (fun room hl hname hpassword => ht ⟨id, room, hname ▸ hpassword ▸ hparse, hl⟩)
      change (checkExists (t.db.roomExists existsFault id) >>= fun _ =>
          checkRoom (t.db.getRoom getFault id) name password >>= fun _ => pure id)
        = (checkExists (s.db.roomExists existsFault id) >>= fun _ =>
          checkRoom (s.db.getRoom getFault id) name password >>= fun _ => pure id)
      rw [roomExists_same h, hcheck]

/-- What becomes of a connection depends on the node only by the room that is verified, and by
whether it is in memory. -/
lemma addConnection_congr {env env' : HandshakeEnv} {reads : List ReadResult}
    (hverify : ∀ headerInfo payload reader, firstFrame reads = .ok (headerInfo, payload, reader) →
      verifyRoom env' payload = verifyRoom env payload)
    (htext : env'.toString = env.toString) (helapsed : env'.welcomeElapsed = env.welcomeElapsed)
    (hmemory : env'.inMemory = env.inMemory) :
    addConnection env' reads = addConnection env reads := by
  unfold addConnection
  cases hfirst : firstFrame reads with
  | err e => rfl
  | panicked => rfl
  | ok first =>
      obtain ⟨headerInfo, payload, reader⟩ := first
      dsimp only
      rw [hverify _ _ _ hfirst, htext, helapsed, hmemory]

end Attempts

/-! ### Strangers -/

/-- An attempt to connect: what is read from the connection, and what fails on the way. -/
structure Attempt where
  reads : List ReadResult
  existsFault : Fault
  getFault : Fault
  welcomeElapsed : Bool

/-- What is done to a node from outside. -/
inductive Contact (ρ : Type)
  | visit (v : Visit ρ)
  | attempt (a : Attempt)

/-- What is seen of it outside. -/
inductive Seen
  | printed (result : Except String (List String))
  | effects (effects : List HandshakeEffect)

section Strangers

variable {ρ : Type} [DecidableEq ρ]

def NodeRooms.contact (env : CtlEnv) (addr : String) (toString : Json → String) (s : NodeRooms ρ) :
    Contact ρ → Seen × NodeRooms ρ
  | .visit v => (.printed (s.visit env addr v).1, (s.visit env addr v).2)
  | .attempt a =>
      (.effects (addConnection (s.handshakeEnv env.parseStr toString a.existsFault a.getFault
        a.welcomeElapsed) a.reads), s)

/-- Who is in contact does not ask for passwords, and does not know that of a room. -/
def Contact.Stranger (env : CtlEnv) (s : NodeRooms ρ) : Contact ρ → Prop
  | .visit v => v.Discreet
  | .attempt a => ∀ headerInfo payload reader,
      firstFrame a.reads = .ok (headerInfo, payload, reader) →
      ¬ KnowsPassword env.parseStr s.db payload

/-- The client has not got its answer. -/
def Contact.Lost (contact : Contact ρ) (seen : Seen) : Prop :=
  ∃ v, contact = .visit v ∧ seen = .printed (.error v.cli.cannotConnect)

/-- Contacts of strangers with a node, one after the other. -/
def NodeRooms.strangers (ρ : Type) [DecidableEq ρ] (env : CtlEnv) (addr : String)
    (toString : Json → String) : Lts (NodeRooms ρ) (Contact ρ × Seen) where
  Init _ := True
  Step s event s' :=
    event.1.Stranger env s ∧ s.contact env addr toString event.1 = (event.2, s')

/-- What is seen is the same, if the answer has not been lost. -/
def Alike (event event' : Contact ρ × Seen) : Prop :=
  event'.2 = event.2 ∨ event.1.Lost event.2 ∨ event'.1.Lost event'.2

variable {env : CtlEnv} {addr : String} {toString : Json → String} {s t s' t' : NodeRooms ρ}

lemma contact_same (addr : String) (toString : Json → String) (hserde : env.serde.Lawful)
    (h : SamePublic s t) {contact : Contact ρ} (hs : contact.Stranger env s)
    (ht : contact.Stranger env t) :
    Alike (contact, (s.contact env addr toString contact).1)
        (contact, (t.contact env addr toString contact).1) ∧
      SamePublic (s.contact env addr toString contact).2
        (t.contact env addr toString contact).2 := by
  cases contact with
  | visit v =>
      obtain ⟨hprinted, hnode⟩ := visit_same hserde h hs addr
      refine ⟨?_, hnode⟩
      rcases hprinted with heq | hlost | hlost
      · exact .inl (congrArg Seen.printed heq)
      · exact .inr (.inl ⟨v, rfl, congrArg Seen.printed hlost⟩)
      · exact .inr (.inr ⟨v, rfl, congrArg Seen.printed hlost⟩)
  | attempt a =>
      refine ⟨.inl (congrArg Seen.effects (addConnection_congr ?_ rfl rfl ?_)), h⟩
      · intro headerInfo payload reader hfirst
        exact verifyRoom_same h toString a.existsFault a.getFault a.welcomeElapsed
          (hs _ _ _ hfirst) (ht _ _ _ hfirst)
      · funext id
        simp only [NodeRooms.handshakeEnv, h.rooms]

/-- **Passwords stay in the node.**  Two nodes whose rooms differ in nothing but their passwords are
in contact with the same strangers: runs of `fernqctl` that do not list rooms by `--json` or
`--show_pwd`, and attempts to connect without the password of the room.  All that is seen of the
nodes is the same, but for answers that were lost, and they keep differing in nothing but the
passwords. -/
theorem passwords_stay_hidden (env : CtlEnv) (addr : String) (toString : Json → String)
    (hserde : env.serde.Lawful) (hsame : SamePublic s t)
    {events events' : List (Contact ρ × Seen)}
    (hrun : (NodeRooms.strangers ρ env addr toString).Run s events s')
    (hrun' : (NodeRooms.strangers ρ env addr toString).Run t events' t')
    (hcontacts : List.Forall₂ (fun event event' => event'.1 = event.1) events events') :
    List.Forall₂ Alike events events' ∧ SamePublic s' t' := by
  refine hrun.lockstep ?_ hrun' hcontacts hsame
  rintro s t ⟨contact, seen⟩ ⟨contact', seen'⟩ s' t' hsame rfl ⟨hs, hstep⟩ ⟨ht, hstep'⟩
  obtain ⟨halike, hnodes⟩ := contact_same addr toString hserde hsame hs ht
  dsimp only at hstep hstep'
  rw [hstep, hstep'] at halike hnodes
  exact ⟨halike, hnodes⟩

end Strangers

/-! ### Two nodes -/

/-- A node with one room. -/
def plazaWith (password : String) : NodeRooms ℕ :=
  { plazaNode with db := ⟨.singleton plazaId (.ok ⟨plazaId, "plaza", password⟩)⟩ }

/-- The request of the command `list` and its text. -/
def listRequest : Request := ⟨"list", none, none, none⟩

def listText : List UInt8 := utf8Bytes "\x7b\"cmd\":\"list\"\x7d"

/-- The answer to `list`. -/
def plazaAnswer (password : String) : Response :=
  .done (.array [listEntry ⟨plazaId, "plaza", password⟩])

def plazaAnswerText (password : String) : List UInt8 :=
  utf8Bytes ("\x7b\"success\":true,\"data\":[\x7b\"id\":\"" ++ plazaId.hyphenated ++
    "\",\"name\":\"plaza\",\"password\":\"" ++ password ++ "\"\x7d]\x7d")

def plazaTable : List (List (String × Json) × List UInt8) :=
  [(listRequest.fields, listText), ((plazaAnswer "red").fields, plazaAnswerText "red"),
    ((plazaAnswer "blue").fields, plazaAnswerText "blue")]

noncomputable def plazaCtl : CtlEnv :=
  { tableEnv plazaTable with parseStr := plazaEnv.parseStr }

lemma lawful_plazaTable : plazaCtl.serde.Lawful :=
  lawful_tableSerde (by unfold Separated; decide +kernel) (by decide +kernel)

def plazaListing : Visit ℕ := .direct .list (by simp) plazaId 0

/-- Someone joins with the password `pw`. -/
def plazaAttempt : Attempt := ⟨chunkedReads, none, none, false⟩

lemma visit_plazaListing {password : String} (hpassword : password = "red" ∨ password = "blue") :
    (plazaWith password).visit plazaCtl "h:9147" plazaListing
      = (.ok (roomTable plazaCtl false [⟨plazaId, "plaza", password⟩]), plazaWith password) := by
  have htext : plazaCtl.serde.toVec listRequest.fields = .ok listText :=
    toVec_table (List.mem_cons_self ..) (by simp [plazaTable, listRequest, plazaAnswer,
      Response.done, Request.fields, Response.fields])
  have hanswer : plazaCtl.serde.toVec (plazaAnswer password).fields
      = .ok (plazaAnswerText password) := by
    rcases hpassword with rfl | rfl
    · exact toVec_table (.tail _ (.head _)) (by simp [plazaTable, listRequest, plazaAnswer,
        Response.done, Request.fields, Response.fields, listEntry])
    · exact toVec_table (.tail _ (.tail _ (.head _))) (by simp [plazaTable, listRequest,
        plazaAnswer, Response.done, Request.fields, Response.fields, listEntry])
  have hhandle : (plazaWith password).handleRequest plazaCtl.parseStr noFaults plazaId 0 "h:9147"
      listRequest = (plazaAnswer password, plazaWith password) := rfl
  have hprinted : plazaListing.cli.show plazaCtl (plazaAnswer password)
      = .ok (roomTable plazaCtl false [⟨plazaId, "plaza", password⟩]) := by
    change Except.ok (printRoomList plazaCtl
      (some (.array ([⟨plazaId, "plaza", password⟩].map listEntry))) false) = _
    rw [printRoomList_eq]
  rw [← hprinted]
  exact visit_eq_of_exchange rfl
    (exchange_direct lawful_plazaTable _ htext (by decide +kernel) hhandle hanswer)

/-- The password `pw` is wrong. -/
lemma stranger_plazaAttempt {password : String} (hpassword : password ≠ "pw") :
    (Contact.attempt plazaAttempt).Stranger plazaCtl (plazaWith password) := by
  have hfirst : firstFrame chunkedReads
      = .ok (⟨joinChannel, "a", "fernq", joinUrl.length, 0⟩, joinUrl,
          ⟨[], chunkedReads.drop 1⟩) := by decide +kernel
  have hparse : parseValidate plazaEnv.parseStr joinUrl = .ok (plazaId, "plaza", "pw") := by
    decide +kernel
  rintro headerInfo payload reader h ⟨id, room, hknown, hl⟩
  cases hfirst.symm.trans h
  obtain ⟨hid, hnamed⟩ := Prod.mk.inj (Outcome.ok.inj (hparse.symm.trans hknown))
  obtain ⟨-, hroom⟩ := Prod.mk.inj hnamed
  subst hid
  have hstored : (plazaWith password).db.rooms.lookup plazaId
      = some (.ok ⟨plazaId, "plaza", password⟩) := rfl
  cases hstored.symm.trans hl
  exact hpassword hroom.symm

/-- What is seen of a listing of the rooms and of the attempt, at a node with one room. -/
noncomputable def plazaEvents (password : String) : List (Contact ℕ × Seen) :=
  [(.visit plazaListing, .printed (.ok (roomTable plazaCtl false [⟨plazaId, "plaza", password⟩]))),
    (.attempt plazaAttempt,
      .effects [.respond (verifyFrame printVerify "a" joinChannel false "密码错误"), .shutdown])]

lemma run_plazaEvents {password : String} (hpassword : password = "red" ∨ password = "blue") :
    (NodeRooms.strangers ℕ plazaCtl "h:9147" printVerify).Run (plazaWith password)
      (plazaEvents password) (plazaWith password) := by
  have hfirst : firstFrame chunkedReads
      = .ok (⟨joinChannel, "a", "fernq", joinUrl.length, 0⟩, joinUrl,
          ⟨[], chunkedReads.drop 1⟩) := by decide +kernel
  have hrefused : verifyRoom ((plazaWith password).handshakeEnv plazaEnv.parseStr printVerify none
      none false) joinUrl = .err "密码错误" := by
    rcases hpassword with rfl | rfl <;> decide +kernel
  have hwrong : password ≠ "pw" := by rcases hpassword with rfl | rfl <;> decide
  have heffects : addConnection ((plazaWith password).handshakeEnv plazaEnv.parseStr printVerify
      none none false) chunkedReads
      = [.respond (verifyFrame printVerify "a" joinChannel false "密码错误"), .shutdown] :=
    addConnection_of_refused printsReplies_printVerify hfirst hrefused
  have hlisting : (NodeRooms.strangers ℕ plazaCtl "h:9147" printVerify).Step (plazaWith password)
      (.visit plazaListing,
        .printed (.ok (roomTable plazaCtl false [⟨plazaId, "plaza", password⟩])))
      (plazaWith password) :=
    ⟨fun _ => ⟨rfl, rfl⟩,
      congrArg (fun r => (Seen.printed r.1, r.2)) (visit_plazaListing hpassword)⟩
  have hattempt : (NodeRooms.strangers ℕ plazaCtl "h:9147" printVerify).Step (plazaWith password)
      (.attempt plazaAttempt,
        .effects [.respond (verifyFrame printVerify "a" joinChannel false "密码错误"), .shutdown])
      (plazaWith password) :=
    ⟨stranger_plazaAttempt hwrong,
      congrArg (fun effects => (Seen.effects effects, plazaWith password)) heffects⟩
  exact .cons hlisting (.single hattempt)

/-- The two nodes cannot be told apart. -/
theorem passwords_stay_hidden_plaza :
    List.Forall₂ Alike (plazaEvents "red") (plazaEvents "blue") ∧
      SamePublic (plazaWith "red") (plazaWith "blue") := by
  have hsame : SamePublic (plazaWith "red") (plazaWith "blue") := ⟨rfl, rfl, rfl, rfl⟩
  exact passwords_stay_hidden plazaCtl "h:9147" printVerify lawful_plazaTable hsame
    (run_plazaEvents (.inl rfl)) (run_plazaEvents (.inr rfl)) (.cons rfl (.cons rfl .nil))

end Fernq
