import Mathlib.Tactic
import Fernq.Protocol.Replies
import Fernq.Server.Directory
import Fernq.Server.Receive

/-!
From the command line to a guest: a room that `fernqctl` has added lets in whoever has its URL.

* `Hosts`: a room is stored and in memory.
* `hosts_of_added`, `hosts_of_run`: a room that was added, and the runs that do not remove it.
* `added_room_admits_guests`: the frame that `create_validate` makes of the URL is welcomed, and the
  guest reads the welcome.
-/

namespace Fernq

/-- The room is stored, and in memory. -/
structure Hosts {ρ : Type} (s : NodeRooms ρ) (room : RoomModel) : Prop where
  stored : s.db.rooms.lookup room.id = some (.ok room)
  inMemory : room.id ∈ s.rooms

/-! ### The room of a node -/

section Node

variable {ρ : Type} [DecidableEq ρ] {s s' : NodeRooms ρ} {host : RoomModel} {env : CtlEnv}
  {addr : String}

/-- A room that `add_room` accepts is hosted. -/
lemma hosts_addRoom {faults : AddFaults} {id : Uuid} {room : ρ} {name password : String}
    (h : (s.addRoom faults id room name password).1 = .ok ()) :
    Hosts (s.addRoom faults id room name password).2 ⟨id, name, password⟩ := by
  refine ⟨NodeRooms.lookup_addRoom h, ?_⟩
  unfold NodeRooms.addRoom at h ⊢
  split_ifs at h ⊢
  cases hfind : s.db.findRoomsByName faults.iterate name with
  | error e => simp [hfind] at h
  | ok existing =>
    cases existing with
    | cons model models => simp [hfind] at h
    | nil =>
      unfold StorageDB.createRoom StorageDB.saveRoom at h ⊢
      cases hinsert : faults.insert with
      | some e => simp [hfind, hinsert, Except.map] at h
      | none =>
        cases hpersist : faults.persist with
        | some e => simp [hfind, hinsert, hpersist, Except.map] at h
        | none => exact AList.mem_insert _ |>.mpr (.inl rfl)

/-- Other rooms may be added. -/
lemma Hosts.addRoom (h : Hosts s host) (faults : AddFaults) {id : Uuid} (hne : host.id ≠ id)
    (room : ρ) (name password : String) :
    Hosts (s.addRoom faults id room name password).2 host := by
  unfold NodeRooms.addRoom
  split_ifs
  · exact h
  cases s.db.findRoomsByName faults.iterate name with
  | error e => exact h
  | ok existing =>
    cases existing with
    | cons model models => exact h
    | nil =>
      unfold StorageDB.createRoom StorageDB.saveRoom
      cases faults.insert with
      | some e => exact ⟨h.stored, h.inMemory⟩
      | none =>
        have hstored : (s.db.rooms.insert id (.ok ⟨id, name, password⟩)).lookup host.id
            = some (.ok host) := (AList.lookup_insert_ne hne).trans h.stored
        cases faults.persist with
        | some e => exact ⟨hstored, h.inMemory⟩
        | none => exact ⟨hstored, AList.mem_insert _ |>.mpr (.inr h.inMemory)⟩

/-- Other rooms may be removed. -/
lemma Hosts.removeRoom (h : Hosts s host) (faults : RemoveFaults) {id : Uuid} (hne : host.id ≠ id) :
    Hosts (s.removeRoom faults id).2 host := by
  have hmemory : host.id ∈ (s.dropRoom id).rooms := by
    unfold NodeRooms.dropRoom
    split
    · exact AList.mem_erase.mpr ⟨hne, h.inMemory⟩
    · exact h.inMemory
  have herased : (s.db.rooms.erase id).lookup host.id = some (.ok host) :=
    (AList.lookup_erase_ne hne).trans h.stored
  refine ⟨?_, ?_⟩
  · rcases s.removeRoom_cases faults id with ⟨hdb, -⟩ | ⟨-, -, -, hdb, -⟩
    · exact hdb ▸ h.stored
    · exact hdb ▸ herased
  · unfold NodeRooms.removeRoom
    split_ifs
    · exact h.inMemory
    split
    · exact h.inMemory
    · exact h.inMemory
    · split <;> exact hmemory

/-- Requests leave the room, unless they remove it. -/
lemma Hosts.handleRequest (h : Hosts s host) {parseStr : String → Except String Uuid}
    {req : Request} (hstays : req.cmd = "remove" → removeArgs parseStr req ≠ .ok host.id)
    (faults : RequestFaults) {id : Uuid} (hne : host.id ≠ id) (room : ρ) (addr : String) :
    Hosts (s.handleRequest parseStr faults id room addr req).2 host := by
  unfold NodeRooms.handleRequest
  split_ifs with hadd hremove
  · cases addArgs req with
    | error e => exact h
    | ok args =>
        obtain ⟨name, password⟩ := args
        have hnode := h.addRoom faults.add hne room name password
        dsimp only
        cases hresult : s.addRoom faults.add id room name password with
        | mk result s' =>
            rw [hresult] at hnode
            cases result <;> exact hnode
  · cases hargs : removeArgs parseStr req with
    | error e => exact h
    | ok key =>
        have hkey : host.id ≠ key := fun heq => hstays hremove (by rw [hargs, heq])
        have hnode := h.removeRoom faults.remove hkey
        dsimp only
        cases hresult : s.removeRoom faults.remove key with
        | mk result s' =>
            rw [hresult] at hnode
            cases result <;> exact hnode
  · exact h
  · exact h
  · exact h

/-- The run of the client does not remove the room. -/
def Spares (env : CtlEnv) (id : Uuid) (v : Visit ρ) : Prop :=
  ∀ text, v.cli.command = .remove text → env.parseStr text ≠ .ok id

omit [DecidableEq ρ] in
/-- What is removed is what the command names. -/
lemma removeArgs_of_spares {v : Visit ρ} (h : Spares env host.id v) {req : Request}
    (hreq : v.cli.command.request env.parseStr = .ok (some req)) :
    req.cmd = "remove" → removeArgs env.parseStr req ≠ .ok host.id := by
  intro hcmd hargs
  rcases Commands.request_eq_some hreq with
    ⟨name, password, -, rfl⟩ | ⟨text, key, hcommand, hparse, rfl⟩ | ⟨-, rfl⟩ | ⟨-, rfl⟩
  · simp at hcmd
  · by_cases hne : text = ""
    · rw [hne] at hargs
      cases hargs
    · rw [NodeRooms.removeArgs_of_parse hne hparse] at hargs
      exact h text hcommand (hparse.trans hargs)
  · simp at hcmd
  · simp at hcmd

/-- A session of `fernqctl` that does not remove the room leaves it. -/
lemma hosts_of_run (hserde : env.serde.Lawful)
    {events : List (Visit ρ × Except String (List String))}
    (hrun : (NodeRooms.visits ρ env addr).Run s events s') (h : Hosts s host)
    (hspares : ∀ event ∈ events, Spares env host.id event.1) : Hosts s' host := by
  induction hrun with
  | nil => exact h
  | @cons s event s₁ events s₂ hs _ ih =>
      refine ih ?_ fun event hmem => hspares event (List.mem_cons_of_mem _ hmem)
      have hspare := hspares event (List.mem_cons_self ..)
      obtain ⟨v, printed⟩ := event
      obtain ⟨hfresh, hvisit⟩ := hs
      dsimp only at hfresh hvisit hspare
      have hne : host.id ≠ v.id := by
        intro heq
        rw [← heq, h.stored] at hfresh
        cases hfresh
      rcases v.request_cases env.parseStr with ⟨e, hreq⟩ | ⟨req, hreq⟩
      · obtain ⟨-, rfl⟩ := Prod.mk.inj ((visit_of_error hreq).symm.trans hvisit)
        exact h
      · obtain ⟨-, rfl⟩ := Prod.mk.inj ((visit_of_request hreq).symm.trans hvisit)
        have hhandled :=
          h.handleRequest (removeArgs_of_spares hspare hreq) v.faults hne v.room addr
        rcases exchange_cases hserde addr s v req with
          ⟨resp, -, hhandle⟩ | ⟨-, hsame, -⟩ | ⟨-, hsame | hhandle⟩
        · rw [hhandle] at hhandled
          exact hhandled
        · exact hsame.symm ▸ h
        · exact hsame.symm ▸ h
        · exact hhandle.symm ▸ hhandled

lemma handleRequest_add_snd {parseStr : String → Except String Uuid} {faults : RequestFaults}
    {id : Uuid} {room : ρ} {name password : String} (hne : name ≠ "") :
    (s.handleRequest parseStr faults id room addr ⟨"add", some name, some password, none⟩).2
      = (s.addRoom faults.add id room name password).2 := by
  rw [NodeRooms.handleRequest, if_pos rfl, addArgs_eq_ok_iff.mpr ⟨rfl, hne, rfl⟩]
  dsimp only
  cases s.addRoom faults.add id room name password with
  | mk result s' => cases result <;> rfl

/-- A room that `fernqctl` reports to have added is hosted. -/
lemma hosts_of_added (hserde : env.serde.Lawful) {v : Visit ρ} {name password : String}
    {lines : List String} (hcommand : v.cli.command = .add name password)
    (hjson : v.cli.json = false)
    (hadd : (NodeRooms.visits ρ env addr).Step s (v, .ok lines) s') :
    Hosts s' ⟨v.id, name, password⟩ ∧ name ≠ "" := by
  obtain ⟨-, hvisit⟩ := hadd
  dsimp only at hvisit
  set req : Request := ⟨"add", some name, some password, none⟩ with hreq
  have hsent : v.cli.command.request env.parseStr = .ok (some req) := by
    rw [hcommand]
    rfl
  obtain ⟨hprinted, hnode⟩ := Prod.mk.inj ((visit_of_request hsent).symm.trans hvisit)
  obtain ⟨resp, hanswer, hshow⟩ := Except.bind_eq_ok_iff.mp hprinted
  have hanswer := Except.mapError_eq_ok_iff.mp hanswer
  have hsuccess : resp.success = true := by
    by_contra hfailed
    rw [Cli.show, if_neg (by simp [hjson]), if_pos hfailed] at hshow
    cases hshow
  rcases exchange_cases hserde addr s v req with
    ⟨resp', hanswer', hhandle⟩ | ⟨⟨error, hanswer'⟩, -⟩ | ⟨⟨e, hanswer'⟩, -⟩
  · cases hanswer'.symm.trans hanswer
    have hadded :
        (s.handleRequest env.parseStr v.faults v.id v.room addr req).1.success = true := by
      rw [hhandle]
      exact hsuccess
    obtain ⟨hne, hok⟩ := NodeRooms.handleRequest_add.mp hadded
    have hsnd := congrArg Prod.snd hhandle
    rw [hreq, handleRequest_add_snd hne] at hsnd
    rw [← hnode, ← hsnd]
    exact ⟨hosts_addRoom hok, hne⟩
  · cases hanswer'.symm.trans hanswer
    cases hsuccess
  · cases hanswer'.symm.trans hanswer

end Node

/-! ### The frame of a guest -/

section Guest

variable {guest name password address : String} {channelId : ChannelId} {id : Uuid}
  {frame : List UInt8} {given : String} {parseStr : String → Except String Uuid}

lemma roomUrl_pos : 0 < (roomUrl address id name password).utf8ByteSize := by
  have hscheme : "fernq://".utf8ByteSize = 8 := by decide
  simp only [roomUrl, roomBase, roomPath, String.utf8ByteSize_append, hscheme]
  omega

/-- A URL that fits one frame is sent in it. -/
lemma createValidate_of_fits (channelId : ChannelId) (hne : address ≠ "")
    (haddress : ∀ c ∈ address.toList, c ∉ addressEnd)
    (hvalid : validateAndNormalizeAddress address = .ok address) (hpos : 0 < guest.utf8ByteSize)
    (hle : guest.utf8ByteSize ≤ maxNameLength)
    (hfits : (roomUrl address id name password).utf8ByteSize ≤ maxPayloadLen guest "fernq") :
    createValidate guest channelId (roomUrl address id name password)
      = .ok (address, validateFrame guest channelId (roomUrl address id name password)) := by
  obtain ⟨hencode, -, -⟩ := validateFrame_carries channelId hpos hle roomUrl_pos hfits
  rw [createValidate_roomUrl hne haddress hvalid, hencode]
  rfl

/-- The frame that the client makes of a URL, if it makes one. -/
lemma frame_of_createValidate (hne : address ≠ "") (haddress : ∀ c ∈ address.toList, c ∉ addressEnd)
    (hvalid : validateAndNormalizeAddress address = .ok address) (hpos : 0 < guest.utf8ByteSize)
    (hle : guest.utf8ByteSize ≤ maxNameLength)
    (hsent : createValidate guest channelId (roomUrl address id name password)
      = .ok (given, frame)) :
    given = address ∧ frame = validateFrame guest channelId (roomUrl address id name password) ∧
      (roomUrl address id name password).utf8ByteSize ≤ maxPayloadLen guest "fernq" := by
  by_cases hfits : (roomUrl address id name password).utf8ByteSize ≤ maxPayloadLen guest "fernq"
  · rw [createValidate_of_fits channelId hne haddress hvalid hpos hle hfits] at hsent
    cases hsent
    exact ⟨rfl, rfl, hfits⟩
  · obtain ⟨e, he⟩ : ∃ e, (generateMessageDataStream .header true false channelId guest "fernq"
        (utf8Bytes (roomUrl address id name password)) >>= singleFrame) = .err e :=
      encode_singleFrame_of_lt (by rw [utf8Bytes_length]; omega)
    rw [createValidate_roomUrl hne haddress hvalid, ← Outcome.bind_assoc, he] at hsent
    cases hsent

/-- The header of the frame is read by the node. -/
lemma decodeHeader_validateFrame (channelId : ChannelId) {url : String}
    (hfits : url.utf8ByteSize ≤ maxPayloadLen guest "fernq")
    (hle : guest.utf8ByteSize ≤ maxNameLength) :
    ∃ n, decodeHeader ((validateFrame guest channelId url).take fixedHeaderLen)
        = .ok (.header, .new true true false, n) ∧ n ≤ maxFrameSize := by
  have hfix : fixedHeaderLen = 11 := rfl
  have hlen : (validateFrame guest channelId url).length ≤ fixedHeaderLen + maxFrameSize := by
    have hmax : maxPayloadLen guest "fernq" ≤ 8192 - 41 - guest.utf8ByteSize - 5 := by
      rw [maxPayloadLen]
      exact le_of_eq rfl
    have hname : maxNameLength = 128 := rfl
    have hfixed : messageFixedLen = 41 := rfl
    have hfernq : "fernq".utf8ByteSize = 5 := by decide
    have hframe : maxFrameSize = 8192 := rfl
    rw [validateFrame, messageFrame_length, utf8Bytes_length]
    omega
  obtain ⟨header, rest, hcut, hheader, hlisten⟩ := exists_listenHeader_messageFrame hlen
  have htake : (validateFrame guest channelId url).take fixedHeaderLen = header := by
    rw [validateFrame, hcut, ← hheader, List.take_left]
  refine ⟨rest.length, htake ▸ decodeHeader_of_listenHeader hlisten, ?_⟩
  rw [validateFrame, hcut, List.length_append, hheader] at hlen
  omega

/-- The guest reads the welcome. -/
lemma welcome_is_read (channelId : ChannelId) {toString : Json → String}
    {fromStr : String → Except String Json} (hpos : 0 < guest.utf8ByteSize)
    (hle : guest.utf8ByteSize ≤ maxNameLength)
    (hprint : PrintsReplies toString)
    (hread : fromStr (toString (verifyObject true "Welcome to FernQ"))
      = .ok (verifyObject true "Welcome to FernQ")) :
    ∃ payload, IsReply guest channelId
        (verifyFrame toString guest channelId true "Welcome to FernQ") payload ∧
      parseVerifyResponse fromStr payload = .ok (true, "Welcome to FernQ") := by
  refine ⟨_, isReply_messageFrame hpos hle ?_, parseVerifyResponse_verifyObject hread⟩
  have hwelcome : "Welcome to FernQ".utf8ByteSize = 16 := by decide
  have hlen := (hprint true "Welcome to FernQ").2
  have hname : maxNameLength = 128 := rfl
  rw [maxPayloadLen_reply, utf8Bytes_length]
  omega

end Guest

/-- **A room that was added lets its guests in.**  Let `fernqctl` have reported that it added a room
whose name has no `?` and whose password is not empty and has no `&`.  As long as no later run of it
removes the room, whoever makes a first frame of the URL of the room, with an address in its normal
form, by `create_validate` is welcomed and handed over to the room under its name, however the frame
is cut into pieces, when no call of the node fails or times out; and reads the welcome. -/
theorem added_room_admits_guests {ρ : Type} [DecidableEq ρ] (env : CtlEnv) (addr : String)
    (hserde : env.serde.Lawful) {s s' s'' : NodeRooms ρ} {v : Visit ρ} {name password : String}
    {lines : List String} {events : List (Visit ρ × Except String (List String))}
    (hcommand : v.cli.command = .add name password) (hjson : v.cli.json = false)
    (hadd : (NodeRooms.visits ρ env addr).Step s (v, .ok lines) s')
    (hrun : (NodeRooms.visits ρ env addr).Run s' events s'')
    (hspares : ∀ event ∈ events, Spares env v.id event.1) (hname : '?' ∉ name.toList)
    (hpassword : password ≠ "" ∧ '&' ∉ password.toList)
    (hparse : env.parseStr v.id.hyphenated = .ok v.id) {guest address given : String}
    {channelId : ChannelId} {frame : List UInt8} {reads : List ReadResult}
    (hguest : 0 < guest.utf8ByteSize ∧ guest.utf8ByteSize ≤ maxNameLength)
    (haddress : address ≠ "" ∧ ∀ c ∈ address.toList, c ∉ addressEnd)
    (hvalid : validateAndNormalizeAddress address = .ok address)
    (hsent : createValidate guest channelId (roomUrl address v.id name password)
      = .ok (given, frame))
    (hframe : FirstFrameComplete reads frame) (toString : Json → String)
    (fromStr : String → Except String Json) (hprint : PrintsReplies toString)
    (hread : fromStr (toString (verifyObject true "Welcome to FernQ"))
      = .ok (verifyObject true "Welcome to FernQ")) :
    ∃ response payload stream,
      addConnection (s''.handshakeEnv env.parseStr toString none none false) reads
        = [.respond response, .addConn v.id guest stream] ∧
      IsReply guest channelId response payload ∧
      parseVerifyResponse fromStr payload = .ok (true, "Welcome to FernQ") := by
  obtain ⟨hhosts, hne⟩ := hosts_of_added hserde hcommand hjson hadd
  have hhosts := hosts_of_run hserde hrun hhosts hspares
  obtain ⟨-, rfl, hfits⟩ := frame_of_createValidate haddress.1 haddress.2 hvalid hguest.1 hguest.2
    hsent
  set url := roomUrl address v.id name password with hurl
  have hurlPos : 0 < url.utf8ByteSize := roomUrl_pos
  obtain ⟨-, -, hmessage⟩ := validateFrame_carries channelId hguest.1 hguest.2 hurlPos hfits
  obtain ⟨n, hheader, hn⟩ := decodeHeader_validateFrame channelId hfits hguest.2
  have hval : parseValidate env.parseStr (utf8Bytes url) = .ok (v.id, name, password) :=
    parseValidate_roomUrl ⟨fun h => haddress.2 _ h (by decide), fun h => haddress.2 _ h (by decide)⟩
      ⟨hne, hname⟩ hpassword hparse
  have hauth : Authenticated env.parseStr s''.db (validateFrame guest channelId url) v.id
      ⟨channelId, guest, "fernq", url.utf8ByteSize, 0⟩ :=
    ⟨⟨_, _, _, hheader⟩, utf8Bytes url, ⟨v.id, name, password⟩, hmessage, hval, hhosts.stored⟩
  obtain ⟨payload, reader, hfirst, hroom⟩ : ∃ payload reader,
      firstFrame reads = .ok (⟨channelId, guest, "fernq", url.utf8ByteSize, 0⟩, payload, reader) ∧
      verifyRoom (s''.handshakeEnv env.parseStr toString none none false) payload = .ok v.id :=
    verified_of_authenticated hframe hauth hheader (by decide) (by decide) (.inl (by decide)) hn
  have heffects := addConnection_of_verified hprint hfirst hroom
  obtain ⟨text, hreply, htext⟩ := welcome_is_read channelId hguest.1 hguest.2 hprint hread
  refine ⟨_, text, reader.intoInner, ?_, hreply, htext⟩
  rw [heffects]
  have hmemory : (s''.handshakeEnv env.parseStr toString none none false).inMemory v.id = true :=
    decide_eq_true hhosts.inMemory
  rw [hmemory]
  rfl

/-! ### A guest -/

/-- The URL of the room that has been added, and the first frame of a guest. -/
def hallUrl : String := roomUrl "h:9147" NodeRooms.hallId "hall" "pw"

def hallFrame : List UInt8 := validateFrame "a" joinChannel hallUrl

def hallReads : List ReadResult :=
  [.data ⟨hallFrame.take 20, by decide +kernel, by decide +kernel⟩,
    .data ⟨hallFrame.drop 20, by decide +kernel, by decide +kernel⟩]

/-- `serde_json::from_str` on the text of the welcome. -/
def readWelcome (s : String) : Except String Json :=
  if s = printVerify (verifyObject true "Welcome to FernQ") then
    .ok (verifyObject true "Welcome to FernQ")
  else .error "expected value"

lemma complete_hallReads : FirstFrameComplete hallReads hallFrame := by
  have hheader : decodeHeader (hallFrame.take fixedHeaderLen)
      = .ok (.header, .new true true false, hallFrame.length - fixedHeaderLen) := by decide +kernel
  refine ⟨⟨[], ?_⟩, by decide +kernel, fun t f n h => ?_⟩
  · have hbytes : dataBytes hallReads = hallFrame.take 20 ++ hallFrame.drop 20 := rfl
    rw [hbytes, List.take_append_drop, List.append_nil]
  · rw [hheader] at h
    cases h
    decide +kernel

lemma step_hallVisit : (NodeRooms.visits ℕ (tableEnv hallTable) "h:9147").Step NodeRooms.emptyNode
    (hallVisit, .ok ["✓ Room 'hall' added successfully"]) hallNode := ⟨rfl, visit_hall⟩

/-- The room that has been added lets in a guest whose frame comes in two pieces. -/
theorem added_room_admits_guests_hall : ∃ response payload stream,
    addConnection (hallNode.handshakeEnv parseHallId printVerify none none false) hallReads
        = [.respond response, .addConn NodeRooms.hallId "a" stream] ∧
      IsReply "a" joinChannel response payload ∧
      parseVerifyResponse readWelcome payload = .ok (true, "Welcome to FernQ") := by
  have hparse : parseHallId NodeRooms.hallId.hyphenated = .ok NodeRooms.hallId := if_pos rfl
  have hvalid : validateAndNormalizeAddress "h:9147" = .ok "h:9147" := by decide +kernel
  have haddress : ∀ c ∈ "h:9147".toList, c ∉ addressEnd := by simp [addressEnd]
  have hsent : createValidate "a" joinChannel hallUrl = .ok ("h:9147", hallFrame) :=
    createValidate_of_fits joinChannel (by decide) haddress hvalid (by decide) (by decide)
      (by decide +kernel)
  exact added_room_admits_guests (tableEnv hallTable) "h:9147" lawful_hallTable rfl rfl
    step_hallVisit (.nil hallNode) (by simp) (by decide) (by decide) hparse (by decide)
    ⟨by decide, haddress⟩ hvalid hsent complete_hallReads printVerify readWelcome
    printsReplies_printVerify (if_pos rfl)

end Fernq
