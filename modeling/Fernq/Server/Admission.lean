import Mathlib.Tactic
import Fernq.Server.Handshake
import Fernq.Server.Rooms

/-!
Who is admitted to a room (`ServerNode::add_connection` in `fernqd/src/server/node.rs`), over the
room store and the rooms in memory.

* `Authenticated`: the first frame parses, and its room id, room name and password are those of a
  stored room.
* `firstFrame_of_complete`: a first frame that is there is read and parsed as it is.
* `verifyRoom_eq_ok_iff`: which texts are accepted.
* `admitted_iff_authenticated`: a connection is handed over only if it has authenticated, when it
  has it is, and otherwise it is told so at most once.
-/

namespace Fernq

/-- What `add_connection` finds at a node whose store and map do not change: the failures of the two
look-ups in the store, and the timer of the welcome, are arguments. -/
def NodeRooms.handshakeEnv {ρ : Type} (s : NodeRooms ρ) (parseStr : String → Except String Uuid)
    (toString : Json → String) (existsFault getFault : Fault) (welcomeElapsed : Bool) :
    HandshakeEnv where
  parseStr := parseStr
  toString := toString
  roomExists := s.db.roomExists existsFault
  getRoom := s.db.getRoom getFault
  inMemory id := id ∈ s.rooms
  welcomeElapsed := welcomeElapsed

/-- The first frame is there: a fixed header and the body it announces, if it decodes. -/
structure FirstFrameComplete (reads : List ReadResult) (frame : List UInt8) : Prop where
  bytes : ∃ rest, dataBytes reads = frame ++ rest
  header_le : fixedHeaderLen ≤ frame.length
  length : ∀ t f n, decodeHeader (frame.take fixedHeaderLen) = .ok (t, f, n) →
    frame.length = fixedHeaderLen + n

/-- The frame parses, and it names a stored room with its name and its password. -/
structure Authenticated (parseStr : String → Except String Uuid) (db : StorageDB)
    (frame : List UInt8) (id : Uuid) (headerInfo : MessageHeader) : Prop where
  header : ∃ t f n, decodeHeader (frame.take fixedHeaderLen) = .ok (t, f, n)
  credentials : ∃ payload room, parseMessage frame = .ok (headerInfo, payload) ∧
    parseValidate parseStr payload = .ok (id, room.name, room.password) ∧
    db.rooms.lookup id = some (.ok room)

section Complete

variable {reads : List ReadResult} {frame : List UInt8}

/-- A first frame that is there is read as it is: the checks of the header and the parser decide. -/
lemma firstFrame_of_complete (h : FirstFrameComplete reads frame) :
    ∃ reader, firstFrame reads = do
      let _bodyLen ← checkHeader (frame.take fixedHeaderLen)
      let (headerInfo, payload) ← (parseMessage frame).mapErr FirstFrameError.message
      return (headerInfo, payload, reader) := by
  obtain ⟨rest, hbytes⟩ := h.bytes
  have hlen := h.header_le
  have hnew : (BufReader.new reads).pendingBytes
      = frame.take fixedHeaderLen ++ (frame.drop fixedHeaderLen ++ rest) := by
    rw [← List.append_assoc, List.take_append_drop]
    exact hbytes
  obtain ⟨between, hhead, hbetween⟩ := BufReader.readExact_append hnew
  rw [List.length_take_of_le hlen] at hhead
  cases hcheck : checkHeader (frame.take fixedHeaderLen) with
  | err e =>
      refine ⟨between, ?_⟩
      rw [firstFrame, hhead]
      simp [ReadExact.filled, hcheck]
  | panicked =>
      refine absurd hcheck (checkHeader_ne_panicked ?_)
      rw [List.length_take]
      omega
  | ok n =>
      obtain ⟨t, f, hdec⟩ := decodeHeader_of_checkHeader hcheck
      have hbody := h.length t f n hdec
      have hdrop : (frame.drop fixedHeaderLen).length = n := by
        rw [List.length_drop]
        omega
      obtain ⟨reader, hread, -⟩ := BufReader.readExact_append hbetween
      rw [hdrop] at hread
      refine ⟨reader, ?_⟩
      have hframed : Framed reads (.done (frame.take fixedHeaderLen)) n
          (.done (frame.drop fixedHeaderLen)) reader :=
        ⟨⟨between, hhead, hread⟩, by simp, hcheck, by simp⟩
      rw [firstFrame_of_framed hframed, bufferedFrame, ReadExact.filled, ReadExact.filled,
        List.take_append_drop]
      rfl

/-- The header that the checks let pass, and the frame that parses. -/
lemma parsed_of_firstFrame (h : FirstFrameComplete reads frame) {headerInfo : MessageHeader}
    {payload : List UInt8} {reader : BufReader}
    (hfirst : firstFrame reads = .ok (headerInfo, payload, reader)) :
    (∃ t f n, decodeHeader (frame.take fixedHeaderLen) = .ok (t, f, n)) ∧
      parseMessage frame = .ok (headerInfo, payload) := by
  obtain ⟨reader', heq⟩ := firstFrame_of_complete h
  rw [hfirst] at heq
  obtain ⟨n, hcheck, heq⟩ := Outcome.bind_eq_ok.mp heq.symm
  obtain ⟨t, f, hdec⟩ := decodeHeader_of_checkHeader hcheck
  refine ⟨⟨t, f, n, hdec⟩, ?_⟩
  cases hparse : parseMessage frame with
  | ok v =>
      rw [hparse] at heq
      cases heq
      rfl
  | err e =>
      rw [hparse] at heq
      cases heq
  | panicked =>
      rw [hparse] at heq
      cases heq

end Complete

/-! ### The checks of the room -/

/-- 检查这个房间是否存在. -/
def checkExists (found : Except StorageError Bool) : Outcome String Unit :=
  match found with
  | .error _ => .err "系统错误"
  | .ok false => .err "房间不存在"
  | .ok true => .ok ()

/-- 获取房间, 比较房间名字, 验证密码. -/
def checkRoom (got : Except StorageError (Option RoomModel)) (roomName roomPass : String) :
    Outcome String Unit :=
  match got with
  | .error _ => .err "系统错误"
  | .ok none => .err "房间不存在"
  | .ok (some room) =>
      if room.name ≠ roomName then .err "房间名称不匹配"
      else if ¬ room.verifyPassword roomPass then .err "密码错误"
      else .ok ()

section Verify

variable {env : HandshakeEnv} {payload : List UInt8} {id : Uuid}

/-- The checks one after the other. -/
lemma verifyRoom_eq (env : HandshakeEnv) (payload : List UInt8) :
    verifyRoom env payload = do
      let (roomId, roomName, roomPass) ←
        (parseValidate env.parseStr payload).mapErr fun _ => "验证信息格式错误"
      checkExists (env.roomExists roomId)
      checkRoom (env.getRoom roomId) roomName roomPass
      return roomId := by
  rw [verifyRoom]
  refine bind_congr fun parsed => ?_
  obtain ⟨roomId, roomName, roomPass⟩ := parsed
  dsimp only
  rcases env.roomExists roomId with e | found
  · rfl
  · cases found with
    | false => rfl
    | true =>
        rcases env.getRoom roomId with e | got
        · rfl
        · cases got with
          | none => rfl
          | some room =>
              simp only [checkExists, checkRoom, Outcome.ok_bind]
              by_cases hname : room.name = roomName
              · by_cases hpass : room.verifyPassword roomPass = true
                · simp [hname, hpass]
                · simp [hname, hpass]
              · simp [hname]

lemma checkRoom_eq_ok_iff {got : Except StorageError (Option RoomModel)}
    {roomName roomPass : String} :
    checkRoom got roomName roomPass = .ok () ↔
      ∃ room, got = .ok (some room) ∧ room.name = roomName ∧ room.password = roomPass := by
  rcases got with e | got
  · simp [checkRoom]
  · cases got with
    | none => simp [checkRoom]
    | some room =>
        by_cases hname : room.name = roomName
        · by_cases hpass : room.password = roomPass
          · simp [checkRoom, RoomModel.verifyPassword, hname, hpass]
          · simp [checkRoom, RoomModel.verifyPassword, hname, hpass]
        · simp [checkRoom, hname]

lemma checkExists_eq_ok_iff {found : Except StorageError Bool} :
    checkExists found = .ok () ↔ found = .ok true := by
  rcases found with e | found
  · simp [checkExists]
  · cases found <;> simp [checkExists]

lemma checkExists_ne_panicked {found : Except StorageError Bool} :
    checkExists found ≠ .panicked := by
  unfold checkExists
  split <;> simp

lemma checkRoom_ne_panicked {got : Except StorageError (Option RoomModel)}
    {roomName roomPass : String} : checkRoom got roomName roomPass ≠ .panicked := by
  unfold checkRoom
  split
  · simp
  · simp
  · split_ifs <;> simp

/-- The text that is accepted for a room. -/
lemma verifyRoom_eq_ok_iff :
    verifyRoom env payload = .ok id ↔
      ∃ room, parseValidate env.parseStr payload = .ok (id, room.name, room.password) ∧
        env.roomExists id = .ok true ∧ env.getRoom id = .ok (some room) := by
  rw [verifyRoom_eq]
  constructor
  · intro h
    obtain ⟨⟨roomId, roomName, roomPass⟩, hparse, h⟩ := Outcome.bind_eq_ok.mp h
    obtain ⟨_, hexists, h⟩ := Outcome.bind_eq_ok.mp h
    obtain ⟨_, hroom, h⟩ := Outcome.bind_eq_ok.mp h
    cases h
    obtain ⟨room, hget, rfl, rfl⟩ := checkRoom_eq_ok_iff.mp hroom
    refine ⟨room, ?_, checkExists_eq_ok_iff.mp hexists, hget⟩
    cases hval : parseValidate env.parseStr payload with
    | ok v =>
        rw [hval] at hparse
        exact congrArg Outcome.ok (Outcome.ok.inj hparse)
    | err e =>
        rw [hval] at hparse
        cases hparse
    | panicked =>
        rw [hval] at hparse
        cases hparse
  · rintro ⟨room, hparse, hexists, hget⟩
    rw [hparse, Outcome.mapErr_ok, Outcome.ok_bind]
    dsimp only
    rw [checkExists_eq_ok_iff.mpr hexists, Outcome.ok_bind,
      checkRoom_eq_ok_iff.mpr ⟨room, hget, rfl, rfl⟩]
    rfl

end Verify

/-! ### Who is admitted -/

section Admit

variable {ρ : Type} {s : NodeRooms ρ} {parseStr : String → Except String Uuid}
  {toString : Json → String} {existsFault getFault : Fault} {elapsed : Bool}
  {reads : List ReadResult} {frame : List UInt8} {id : Uuid} {headerInfo : MessageHeader}

/-- A text that is accepted names a stored room. -/
lemma stored_of_verifyRoom {payload : List UInt8}
    (h : verifyRoom (s.handshakeEnv parseStr toString existsFault getFault elapsed) payload
      = .ok id) :
    ∃ room, parseValidate parseStr payload = .ok (id, room.name, room.password) ∧
      s.db.rooms.lookup id = some (.ok room) := by
  obtain ⟨room, hparse, -, hget⟩ := verifyRoom_eq_ok_iff.mp h
  exact ⟨room, hparse, (StorageDB.getRoom_eq_ok_some_iff.mp hget).2⟩

/-- A frame that is accepted has authenticated. -/
lemma authenticated_of_verified (hframe : FirstFrameComplete reads frame) {payload : List UInt8}
    {reader : BufReader} (hfirst : firstFrame reads = .ok (headerInfo, payload, reader))
    (hroom : verifyRoom (s.handshakeEnv parseStr toString existsFault getFault elapsed) payload
      = .ok id) :
    Authenticated parseStr s.db frame id headerInfo := by
  obtain ⟨hheader, hparse⟩ := parsed_of_firstFrame hframe hfirst
  obtain ⟨room, hval, hstored⟩ := stored_of_verifyRoom hroom
  exact ⟨hheader, payload, room, hparse, hval, hstored⟩

/-- A first frame that has authenticated and passes the checks of its header is accepted. -/
lemma verified_of_authenticated (hframe : FirstFrameComplete reads frame)
    (h : Authenticated parseStr s.db frame id headerInfo) {t : MessageType} {f : MessageFlags}
    {n : ℕ} (hdec : decodeHeader (frame.take fixedHeaderLen) = .ok (t, f, n)) (hping : t ≠ .ping)
    (hpong : t ≠ .pong) (hend : f.endStream ∨ f.endChannel) (hn : n ≤ maxFrameSize) :
    ∃ payload reader, firstFrame reads = .ok (headerInfo, payload, reader) ∧
      verifyRoom (s.handshakeEnv parseStr toString none none elapsed) payload = .ok id := by
  obtain ⟨payload, room, hparse, hval, hstored⟩ := h.credentials
  obtain ⟨reader, hfirst⟩ := firstFrame_of_complete hframe
  have hcheck : checkHeader (frame.take fixedHeaderLen) = .ok n := by
    have hmiddle : ¬ (¬ f.endStream ∧ ¬ f.endChannel) := by tauto
    rw [checkHeader, hdec, Outcome.mapErr_ok, Outcome.ok_bind]
    dsimp only
    rw [if_neg (by tauto), if_neg hmiddle, if_neg (by omega)]
  rw [hcheck, Outcome.ok_bind, hparse] at hfirst
  refine ⟨payload, reader, hfirst, verifyRoom_eq_ok_iff.mpr ⟨room, hval, ?_, ?_⟩⟩
  · show Except.ok (s.db.rooms.lookup id).isSome = _
    rw [hstored]
    rfl
  · exact StorageDB.getRoom_eq_ok_some_iff.mpr ⟨rfl, hstored⟩

end Admit

/-- **Who is admitted has authenticated.**  Let the first frame of a connection be there.  The
connection is handed over to a room only if the frame has authenticated for it, and then under its
source name.  When it has, the checks of its header pass, the room is in memory and nothing fails,
the connection is handed over after one response, the welcome.  When it has authenticated for no
room, it is shut down, after a refusal or without a response, or the task aborts. -/
theorem admitted_iff_authenticated {ρ : Type} {reads : List ReadResult} {frame : List UInt8}
    (hframe : FirstFrameComplete reads frame) (s : NodeRooms ρ)
    (parseStr : String → Except String Uuid) (toString : Json → String) :
    (∀ existsFault getFault elapsed id connName stream,
      .addConn id connName stream
          ∈ addConnection (s.handshakeEnv parseStr toString existsFault getFault elapsed) reads →
        ∃ headerInfo, Authenticated parseStr s.db frame id headerInfo ∧
          connName = headerInfo.source) ∧
    (∀ id headerInfo t f n, Authenticated parseStr s.db frame id headerInfo →
      decodeHeader (frame.take fixedHeaderLen) = .ok (t, f, n) → t ≠ .ping → t ≠ .pong →
      (f.endStream ∨ f.endChannel) → n ≤ maxFrameSize → id ∈ s.rooms → PrintsReplies toString →
      ∃ stream, addConnection (s.handshakeEnv parseStr toString none none false) reads
        = [.respond (verifyFrame toString headerInfo.source headerInfo.channelId true
              "Welcome to FernQ"), .addConn id headerInfo.source stream]) ∧
    ((∀ id headerInfo, ¬ Authenticated parseStr s.db frame id headerInfo) →
      ∀ existsFault getFault elapsed,
        addConnection (s.handshakeEnv parseStr toString existsFault getFault elapsed) reads
            ∈ [[.shutdown], [.panicked]] ∨
          ∃ headerInfo payload message response, parseMessage frame = .ok (headerInfo, payload) ∧
            createVerifyResponse toString headerInfo.source headerInfo.channelId false message
              = .ok response ∧
            addConnection (s.handshakeEnv parseStr toString existsFault getFault elapsed) reads
              = [.respond response, .shutdown]) := by
  refine ⟨?_, ?_, ?_⟩
  · intro existsFault getFault elapsed id connName stream hadd
    obtain ⟨headerInfo, payload, reader, hfirst, hroom, hname, -⟩ := verified_of_addConn hadd
    exact ⟨headerInfo, authenticated_of_verified hframe hfirst hroom, hname⟩
  · intro id headerInfo t f n hauth hdec hping hpong hend hn hmem hprint
    obtain ⟨payload, reader, hfirst, hroom⟩ :=
      verified_of_authenticated hframe hauth hdec hping hpong hend hn
    refine ⟨reader.intoInner, ?_⟩
    rw [addConnection_of_verified hprint hfirst hroom]
    simp [NodeRooms.handshakeEnv, hmem]
  · intro hnone existsFault getFault elapsed
    cases hfirst : firstFrame reads with
    | err e =>
        rw [addConnection, hfirst]
        simp
    | panicked =>
        rw [addConnection, hfirst]
        simp
    | ok v =>
        obtain ⟨headerInfo, payload, reader⟩ := v
        obtain ⟨-, hparse⟩ := parsed_of_firstFrame hframe hfirst
        rw [addConnection, hfirst]
        dsimp only
        cases hroom : verifyRoom (s.handshakeEnv parseStr toString existsFault getFault elapsed)
            payload with
        | ok id =>
            exact absurd (authenticated_of_verified hframe hfirst hroom) (hnone id headerInfo)
        | panicked => exact absurd hroom verifyRoom_ne_panicked
        | err message =>
            cases hresponse : createVerifyResponse toString headerInfo.source headerInfo.channelId
                false message with
            | ok response =>
                refine .inr ⟨headerInfo, payload, message, response, hparse, hresponse, ?_⟩
                simp [NodeRooms.handshakeEnv, hresponse]
            | err e => simp [NodeRooms.handshakeEnv, hresponse]
            | panicked => simp [NodeRooms.handshakeEnv, hresponse]

/-- A node with the plaza, stored and in memory. -/
def plazaNode : NodeRooms ℕ where
  cancelled := false
  db := ⟨.singleton plazaId (.ok ⟨plazaId, "plaza", "pw"⟩)⟩
  rooms := .singleton plazaId 0
  isOpen := fun _ => true

/-- The client that joins is welcomed and handed over. -/
theorem admitted_iff_authenticated_plaza :
    ∃ stream, addConnection
        (plazaNode.handshakeEnv plazaEnv.parseStr printVerify none none false) chunkedReads
      = [.respond welcome, .addConn plazaId "a" stream] := by
  have hheader : decodeHeader (joinFrame.take fixedHeaderLen)
      = .ok (.header, .new true true false, 101) := by decide +kernel
  have hframe : FirstFrameComplete chunkedReads joinFrame := by
    refine ⟨⟨[1, 2, 3], rfl⟩, by decide +kernel, fun t f n h => ?_⟩
    rw [hheader] at h
    cases h
    decide +kernel
  have hauth : Authenticated plazaEnv.parseStr plazaNode.db joinFrame plazaId
      ⟨joinChannel, "a", "fernq", joinUrl.length, 0⟩ := by
    refine ⟨⟨_, _, _, hheader⟩, joinUrl, ⟨plazaId, "plaza", "pw"⟩, ?_, ?_, rfl⟩
    · decide +kernel
    · decide +kernel
  have hmem : plazaId ∈ plazaNode.rooms := List.mem_singleton_self _
  obtain ⟨-, hadmitted, -⟩ :=
    admitted_iff_authenticated hframe plazaNode plazaEnv.parseStr printVerify
  exact hadmitted plazaId ⟨joinChannel, "a", "fernq", joinUrl.length, 0⟩ .header
    (.new true true false) 101 hauth hheader (by decide) (by decide) (.inl (by decide)) (by decide)
    hmem printsReplies_printVerify

end Fernq
