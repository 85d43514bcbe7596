import Mathlib.Tactic
import Fernq.Protocol.Bounds
import Fernq.Protocol.Validate
import Fernq.Server.Reader
import Fernq.Server.Storage

/-!
The first frame of a connection (`ServerNode::add_connection` in
`fernqd/src/server/node.rs`): what is read, what is checked, and what is done to the
connection.

* `firstFrame`: the two reads and the checks of the frame.
* `verifyRoom`: the checks of the room id, the room name and the password.
* `addConnection`: the responses, the shutdown and the hand-over to the room, in order.
* `handover_keeps_bytes_iff`: which bytes the room still gets to read.
* `acts_on_received_iff`: when a connection whose first frame is cut is shut down.
-/

namespace Fernq

/-- What `add_connection` calls or looks up besides the connection: `Uuid::parse_str`, the
JSON printer, the storage, the rooms in memory, and whether the timer fires while the welcome
is written. -/
structure HandshakeEnv where
  parseStr : String → Except String Uuid
  toString : Json → String
  roomExists : Uuid → Except StorageError Bool
  getRoom : Uuid → Except StorageError (Option RoomModel)
  inMemory : Uuid → Bool
  welcomeElapsed : Bool

/-- Why a connection is shut down without a response. -/
inductive FirstFrameError
  | headerElapsed
  | header (e : ProtocolError)
  | heartbeat
  | middleFrame
  | tooLarge (bodyLen : ℕ)
  | bodyElapsed
  | message (e : ProtocolError)
  deriving DecidableEq

/-- The zeroed buffer of `n` bytes after the read. -/
def ReadExact.filled (r : ReadExact) (n : ℕ) : List UInt8 :=
  match r with
  | .done bytes => bytes
  | .failed received _ => received ++ List.replicate (n - received.length) 0
  | .elapsed => List.replicate n 0

/-- The checks of the fixed header: the length of the body to read. -/
def checkHeader (header : List UInt8) : Outcome FirstFrameError ℕ := do
  let (msgtype, flags, bodyLen) ← (decodeHeader header).mapErr .header
  if msgtype = .ping ∨ msgtype = .pong then .err .heartbeat
  else if ¬ flags.endStream ∧ ¬ flags.endChannel then .err .middleFrame
  else if bodyLen > maxFrameSize then .err (.tooLarge bodyLen)
  else .ok bodyLen

/-- The reads and checks of the first frame.  Only the outer result of `timeout` is looked at:
after an inner error the buffer is used as it is. -/
def firstFrame (reads : List ReadResult) :
    Outcome FirstFrameError (MessageHeader × List UInt8 × BufReader) :=
  let (headerRead, reader) := (BufReader.new reads).readExact fixedHeaderLen
  if headerRead = .elapsed then .err .headerElapsed
  else do
    let header := headerRead.filled fixedHeaderLen
    let bodyLen ← checkHeader header
    let (bodyRead, reader) := reader.readExact bodyLen
    if bodyRead = .elapsed then .err .bodyElapsed
    else do
      let frame := header ++ bodyRead.filled bodyLen
      let (headerInfo, payload) ← (parseMessage frame).mapErr .message
      return (headerInfo, payload, reader)

/-- The checks of the validation text: the room to hand over to, or the message of the
refusal. -/
def verifyRoom (env : HandshakeEnv) (payload : List UInt8) : Outcome String Uuid := do
  let (roomId, roomName, roomPass) ←
    (parseValidate env.parseStr payload).mapErr fun _ => "验证信息格式错误"
  match env.roomExists roomId with
  | .error _ => .err "系统错误"
  | .ok false => .err "房间不存在"
  | .ok true =>
      match env.getRoom roomId with
      | .error _ => .err "系统错误"
      | .ok none => .err "房间不存在"
      | .ok (some room) =>
          if room.name ≠ roomName then .err "房间名称不匹配"
          else if ¬ room.verifyPassword roomPass then .err "密码错误"
          else .ok roomId

/-- What is done to the connection. -/
inductive HandshakeEffect
  /-- `write_all` of a verification response -/
  | respond (response : List UInt8)
  | shutdown
  /-- `room.add_conn` of a connection with what is left of the stream -/
  | addConn (roomId : Uuid) (connName : String) (stream : List ReadResult)
  /-- the room is not in memory, and the connection is dropped -/
  | dropConn
  | panicked
  deriving DecidableEq

/-- 验证第一条消息，通过后移交. -/
def addConnection (env : HandshakeEnv) (reads : List ReadResult) : List HandshakeEffect :=
  match firstFrame reads with
  | .panicked => [.panicked]
  | .err _ => [.shutdown]
  | .ok (headerInfo, payload, reader) =>
      let stream := reader.intoInner
      match verifyRoom env payload with
      | .panicked => [.panicked]
      | .err message =>
          match createVerifyResponse env.toString headerInfo.source headerInfo.channelId false
            message with
          | .panicked => [.panicked]
          | .err _ => [.shutdown]
          | .ok response => [.respond response, .shutdown]
      | .ok roomId =>
          match createVerifyResponse env.toString headerInfo.source headerInfo.channelId true
            "Welcome to FernQ" with
          | .panicked => [.panicked]
          | .err _ => [.shutdown]
          | .ok response =>
              if env.welcomeElapsed then [.respond response, .shutdown]
              else if env.inMemory roomId then
                [.respond response, .addConn roomId headerInfo.source stream]
              else [.respond response, .dropConn]

/-! ### The first frame -/

section FirstFrame

variable {reads : List ReadResult} {header payload : List UInt8} {headerInfo : MessageHeader}
  {reader : BufReader}

/-- The headers that are accepted for a body of `n` bytes. -/
lemma checkHeader_eq_ok_iff {n : ℕ} :
    checkHeader header = .ok n ↔ ∃ t f, decodeHeader header = .ok (t, f, n) ∧
      (t = .header ∨ t = .body) ∧ (f.endStream = true ∨ f.endChannel = true) ∧
      n ≤ maxFrameSize := by
  rw [checkHeader]
  cases hdec : decodeHeader header with
  | err e => simp
  | panicked => simp
  | ok v =>
      obtain ⟨t, f, m⟩ := v
      rw [Outcome.mapErr_ok, Outcome.ok_bind]
      dsimp only
      constructor
      · intro h
        split_ifs at h with hbeat hmiddle hlarge
        obtain rfl := Outcome.ok.inj h
        refine ⟨t, f, rfl, ?_, ?_, not_lt.mp hlarge⟩
        · cases t with
          | header => exact .inl rfl
          | body => exact .inr rfl
          | ping => exact absurd (.inl rfl) hbeat
          | pong => exact absurd (.inr rfl) hbeat
        · rwa [not_and_or, not_not, not_not] at hmiddle
      · rintro ⟨t', f', hv, hkind, hends, hle⟩
        obtain ⟨rfl, rfl, rfl⟩ : t = t' ∧ f = f' ∧ m = n := by simpa using hv
        have hbeat : ¬ (t = .ping ∨ t = .pong) := by
          rcases hkind with rfl | rfl <;> simp
        have hmiddle : ¬ (¬ f.endStream = true ∧ ¬ f.endChannel = true) := by
          rwa [not_and_or, not_not, not_not]
        rw [if_neg hbeat, if_neg hmiddle, if_neg (not_lt.mpr hle)]

/-- A header is accepted for a body of `n` bytes when it decodes to that length. -/
lemma decodeHeader_of_checkHeader {n : ℕ} (h : checkHeader header = .ok n) :
    ∃ t f, decodeHeader header = .ok (t, f, n) := by
  obtain ⟨t, f, hdec, -⟩ := checkHeader_eq_ok_iff.mp h
  exact ⟨t, f, hdec⟩

lemma checkHeader_ne_panicked (h : fixedHeaderLen ≤ header.length) :
    checkHeader header ≠ .panicked := by
  rw [checkHeader]
  cases hdec : decodeHeader header with
  | ok v =>
      rw [Outcome.mapErr_ok, Outcome.ok_bind]
      dsimp only
      split_ifs <;> simp
  | err e => simp
  | panicked => exact absurd hdec (decodeHeader_ne_panicked h)

/-- The filled buffer has the length of the buffer. -/
lemma length_filled {r r' : BufReader} {n : ℕ} {read : ReadExact}
    (h : r.readExact n = (read, r')) : (read.filled n).length = n := by
  cases read with
  | done bytes => exact BufReader.readExact_length h
  | failed received e =>
      have hlt := BufReader.readLoop_failed h
      rw [ReadExact.filled, List.length_append, List.length_replicate]
      simp only [List.length_nil, zero_add] at hlt
      omega
  | elapsed => exact List.length_replicate ..

/-- The two reads of a first frame that passes both of its checks: neither timed out, and the
header allows the body. -/
structure Framed (reads : List ReadResult) (headerRead : ReadExact) (bodyLen : ℕ)
    (bodyRead : ReadExact) (reader : BufReader) : Prop where
  exists_between : ∃ between,
    (BufReader.new reads).readExact fixedHeaderLen = (headerRead, between) ∧
      between.readExact bodyLen = (bodyRead, reader)
  header_ne : headerRead ≠ .elapsed
  check : checkHeader (headerRead.filled fixedHeaderLen) = .ok bodyLen
  body_ne : bodyRead ≠ .elapsed

/-- The buffered frame: what was received, and zeros for what was not. -/
def bufferedFrame (headerRead : ReadExact) (bodyLen : ℕ) (bodyRead : ReadExact) : List UInt8 :=
  headerRead.filled fixedHeaderLen ++ bodyRead.filled bodyLen

/-- What the first frame comes to is what its two reads and the parser of the frame say. -/
lemma firstFrame_of_framed {headerRead bodyRead : ReadExact} {n : ℕ}
    (h : Framed reads headerRead n bodyRead reader) :
    firstFrame reads = (do
      let (headerInfo, payload) ←
        (parseMessage (bufferedFrame headerRead n bodyRead)).mapErr FirstFrameError.message
      return (headerInfo, payload, reader)) := by
  obtain ⟨⟨between, hhead, hbody⟩, hne, hcheck, hne'⟩ := h
  rw [firstFrame, hhead]
  dsimp only
  rw [if_neg hne, hcheck, Outcome.ok_bind, hbody]
  dsimp only
  rw [if_neg hne']
  rfl

/-- Without such reads the frame is refused. -/
lemma framed_of_not_err (h : ∀ e, firstFrame reads ≠ .err e) :
    ∃ headerRead n bodyRead reader, Framed reads headerRead n bodyRead reader := by
  cases hhead : (BufReader.new reads).readExact fixedHeaderLen with
  | mk headerRead between =>
    by_cases hne : headerRead = .elapsed
    · refine absurd ?_ (h .headerElapsed)
      rw [firstFrame, hhead]
      exact if_pos hne
    · cases hcheck : checkHeader (headerRead.filled fixedHeaderLen) with
      | err e =>
          refine absurd ?_ (h e)
          rw [firstFrame, hhead]
          dsimp only
          rw [if_neg hne, hcheck, Outcome.err_bind]
      | panicked =>
          exact absurd hcheck (checkHeader_ne_panicked (length_filled hhead).ge)
      | ok n =>
          cases hbody : between.readExact n with
          | mk bodyRead reader =>
            by_cases hne' : bodyRead = .elapsed
            · refine absurd ?_ (h .bodyElapsed)
              rw [firstFrame, hhead]
              dsimp only
              rw [if_neg hne, hcheck, Outcome.ok_bind, hbody]
              exact if_pos hne'
            · exact ⟨headerRead, n, bodyRead, reader, ⟨between, hhead, hbody⟩, hne, hcheck, hne'⟩

/-- The reads are determined by the script. -/
lemma Framed.unique {headerRead headerRead' bodyRead bodyRead' : ReadExact} {n n' : ℕ}
    {reader' : BufReader} (h : Framed reads headerRead n bodyRead reader)
    (h' : Framed reads headerRead' n' bodyRead' reader') :
    headerRead = headerRead' ∧ n = n' ∧ bodyRead = bodyRead' ∧ reader = reader' := by
  obtain ⟨⟨between, hhead, hbody⟩, -, hcheck, -⟩ := h
  obtain ⟨⟨between', hhead', hbody'⟩, -, hcheck', -⟩ := h'
  rw [hhead, Prod.mk.injEq] at hhead'
  obtain ⟨rfl, rfl⟩ := hhead'
  rw [hcheck, Outcome.ok.injEq] at hcheck'
  subst hcheck'
  rw [hbody, Prod.mk.injEq] at hbody'
  exact ⟨rfl, rfl, hbody'⟩

/-- A first frame that is accepted has been framed, and it parses. -/
lemma framed_of_firstFrame (h : firstFrame reads = .ok (headerInfo, payload, reader)) :
    ∃ headerRead n bodyRead, Framed reads headerRead n bodyRead reader ∧
      parseMessage (bufferedFrame headerRead n bodyRead) = .ok (headerInfo, payload) := by
  have hne : ∀ e, firstFrame reads ≠ .err e := by simp [h]
  obtain ⟨headerRead, n, bodyRead, reader', hframed⟩ := framed_of_not_err hne
  rw [firstFrame_of_framed hframed, Outcome.bind_eq_ok] at h
  obtain ⟨⟨info, pay⟩, hparse, h⟩ := h
  cases h
  refine ⟨headerRead, n, bodyRead, hframed, ?_⟩
  cases hp : parseMessage (bufferedFrame headerRead n bodyRead) with
  | ok v =>
      rw [hp, Outcome.mapErr_ok, Outcome.ok.injEq] at hparse
      rw [hparse]
  | err e =>
      rw [hp] at hparse
      cases hparse
  | panicked =>
      rw [hp] at hparse
      cases hparse

end FirstFrame

/-! ### What is done -/

section Effects

variable {env : HandshakeEnv} {reads : List ReadResult} {headerInfo : MessageHeader}
  {payload : List UInt8} {reader : BufReader}

/-- The printer writes a JSON text: it is not empty, and a byte of the message takes six bytes
at most. -/
def PrintsReplies (toString : Json → String) : Prop :=
  ∀ state message, 0 < (toString (verifyObject state message)).utf8ByteSize ∧
    (toString (verifyObject state message)).utf8ByteSize ≤ 6 * message.utf8ByteSize + 32

/-- The effect sends a verification response or hands the connection over. -/
def HandshakeEffect.Acts : HandshakeEffect → Prop
  | .respond _ | .addConn _ _ _ => True
  | _ => False

/-- The text of a refusal is short. -/
lemma utf8ByteSize_of_verifyRoom {message : String} (h : verifyRoom env payload = .err message) :
    message.utf8ByteSize ≤ 24 := by
  have htexts : ∀ m ∈ ["验证信息格式错误", "系统错误", "房间不存在", "房间名称不匹配", "密码错误"],
      m.utf8ByteSize ≤ 24 := by decide
  refine htexts message ?_
  rw [verifyRoom] at h
  cases hval : parseValidate env.parseStr payload with
  | ok v =>
      obtain ⟨roomId, roomName, roomPass⟩ := v
      rw [hval, Outcome.mapErr_ok, Outcome.ok_bind] at h
      dsimp only at h
      split at h
      · cases h
        simp
      · cases h
        simp
      · split at h
        · cases h
          simp
        · cases h
          simp
        · split_ifs at h
          · cases h
            simp
          · cases h
            simp
  | err e =>
      rw [hval] at h
      cases h
      simp
  | panicked =>
      rw [hval] at h
      cases h

lemma verifyRoom_ne_panicked : verifyRoom env payload ≠ .panicked := by
  rw [verifyRoom]
  cases hval : parseValidate env.parseStr payload with
  | ok v =>
      rw [Outcome.mapErr_ok, Outcome.ok_bind]
      dsimp only
      split
      · simp
      · simp
      · split
        · simp
        · simp
        · split_ifs <;> simp
  | err e => simp
  | panicked => exact absurd hval (parseValidate_ne_panicked _ _)

/-- The name in an accepted first frame leaves room for a reply. -/
lemma createVerifyResponse_of_firstFrame (hprint : PrintsReplies env.toString)
    (h : firstFrame reads = .ok (headerInfo, payload, reader)) {state : Bool} {message : String}
    (hshort : message.utf8ByteSize ≤ 24) :
    createVerifyResponse env.toString headerInfo.source headerInfo.channelId state message
      = .ok (verifyFrame env.toString headerInfo.source headerInfo.channelId state message) := by
  obtain ⟨headerRead, n, bodyRead, -, hparse⟩ := framed_of_firstFrame h
  obtain ⟨next, hname⟩ := readName_of_parseMessage hparse
  obtain ⟨hpos, hle⟩ := utf8ByteSize_of_readName hname
  obtain ⟨htext, hfits⟩ := hprint state message
  exact createVerifyResponse_eq_ok hpos hle htext (by omega)

/-- A first frame whose credentials are refused. -/
lemma addConnection_of_refused (hprint : PrintsReplies env.toString)
    (h : firstFrame reads = .ok (headerInfo, payload, reader)) {message : String}
    (hroom : verifyRoom env payload = .err message) :
    addConnection env reads
      = [.respond (verifyFrame env.toString headerInfo.source headerInfo.channelId false message),
          .shutdown] := by
  rw [addConnection, h]
  dsimp only
  rw [hroom]
  dsimp only
  rw [createVerifyResponse_of_firstFrame hprint h (utf8ByteSize_of_verifyRoom hroom)]

/-- A first frame whose credentials are right. -/
lemma addConnection_of_verified (hprint : PrintsReplies env.toString)
    (h : firstFrame reads = .ok (headerInfo, payload, reader)) {roomId : Uuid}
    (hroom : verifyRoom env payload = .ok roomId) :
    addConnection env reads
      = .respond (verifyFrame env.toString headerInfo.source headerInfo.channelId true
            "Welcome to FernQ") ::
          [if env.welcomeElapsed then .shutdown
            else if env.inMemory roomId then
              .addConn roomId headerInfo.source reader.intoInner
            else .dropConn] := by
  rw [addConnection, h]
  dsimp only
  rw [hroom]
  dsimp only
  rw [createVerifyResponse_of_firstFrame hprint h (by decide)]
  split_ifs <;> rfl

/-- A first frame that is accepted is answered. -/
lemma exists_respond (hprint : PrintsReplies env.toString)
    (h : firstFrame reads = .ok (headerInfo, payload, reader)) :
    ∃ r, .respond r ∈ addConnection env reads := by
  cases hroom : verifyRoom env payload with
  | ok roomId =>
      rw [addConnection_of_verified hprint h hroom]
      exact ⟨_, List.mem_cons_self⟩
  | err message =>
      rw [addConnection_of_refused hprint h hroom]
      exact ⟨_, List.mem_cons_self⟩
  | panicked => exact absurd hroom verifyRoom_ne_panicked

/-- A connection that is answered or handed over had its first frame accepted. -/
lemma firstFrame_of_acts {x : HandshakeEffect} (hx : x ∈ addConnection env reads)
    (hacts : x.Acts) : ∃ v, firstFrame reads = .ok v := by
  cases h : firstFrame reads with
  | ok v => exact ⟨v, rfl⟩
  | err e =>
      rw [addConnection, h, List.mem_singleton] at hx
      rw [hx] at hacts
      cases hacts
  | panicked =>
      rw [addConnection, h, List.mem_singleton] at hx
      rw [hx] at hacts
      cases hacts

/-- A connection that is handed over had its credentials verified, and it keeps the script its
reader had left. -/
lemma verified_of_addConn {roomId : Uuid} {connName : String} {stream : List ReadResult}
    (h : .addConn roomId connName stream ∈ addConnection env reads) :
    ∃ headerInfo payload reader, firstFrame reads = .ok (headerInfo, payload, reader) ∧
      verifyRoom env payload = .ok roomId ∧ connName = headerInfo.source ∧
      stream = reader.intoInner := by
  obtain ⟨⟨headerInfo, payload, reader⟩, hfirst⟩ := firstFrame_of_acts h trivial
  refine ⟨headerInfo, payload, reader, hfirst, ?_⟩
  rw [addConnection, hfirst] at h
  dsimp only at h
  split at h
  · simp at h
  · split at h <;> simp at h
  · rename_i hroom
    split at h
    · simp at h
    · simp at h
    · split_ifs at h
      · simp at h
      · simp only [List.mem_cons, reduceCtorEq, HandshakeEffect.addConn.injEq, List.not_mem_nil,
          or_false, false_or] at h
        rw [h.1]
        exact ⟨hroom, h.2⟩
      · simp at h

end Effects

/-! ### The hand-over -/

section Plaza

/-- The id of a room. -/
def plazaId : Uuid := ⟨List.replicate 16 1, rfl⟩

/-- The channel of a handshake. -/
def joinChannel : ChannelId := ⟨⟨List.replicate 16 7, rfl⟩⟩

/-- The compact JSON text of a verification reply whose message needs no escapes. -/
def printVerify : Json → String
  | .object [("message", .string m), ("state", .bool b)] =>
      "\x7b\"message\":\"" ++ m ++ "\",\"state\":" ++ (if b then "true" else "false") ++ "\x7d"
  | _ => "null"

/-- `Uuid::parse_str` on the id of the room. -/
def parsePlazaId (s : String) : Except String Uuid :=
  if s = plazaId.hyphenated then .ok plazaId else .error "invalid length"

/-- A node with one room, stored and in memory. -/
def plazaEnv : HandshakeEnv where
  parseStr := parsePlazaId
  toString := printVerify
  roomExists id := .ok (id = plazaId)
  getRoom id := if id = plazaId then .ok (some ⟨plazaId, "plaza", "pw"⟩) else .ok none
  inMemory id := id = plazaId
  welcomeElapsed := false

/-- The validation text and the first frame of a client that joins under the name `a`. -/
def joinUrl : List UInt8 :=
  utf8Bytes "fernq://h/01010101-0101-0101-0101-010101010101#plaza?room_pass=pw"

def joinFrame : List UInt8 :=
  messageFrame .header (.new true true false) joinChannel "a" "fernq" joinUrl.length 0 joinUrl

/-- The welcome. -/
def welcome : List UInt8 := verifyFrame printVerify "a" joinChannel true "Welcome to FernQ"

lemma printsReplies_printVerify : PrintsReplies printVerify := by
  intro state message
  have hobj : verifyObject state message
      = .object [("message", .string message), ("state", .bool state)] := rfl
  have hopen : "\x7b\"message\":\"".utf8ByteSize = 12 := by decide
  have hkey : "\",\"state\":".utf8ByteSize = 10 := by decide
  have hstate : (if state then "true" else "false").utf8ByteSize ≤ 5 := by cases state <;> decide
  have hclose : "\x7d".utf8ByteSize = 1 := by decide
  rw [hobj, printVerify, String.utf8ByteSize_append, String.utf8ByteSize_append,
    String.utf8ByteSize_append, String.utf8ByteSize_append, hopen, hkey, hclose]
  omega

/-- The client is welcomed and handed over with what its reader had left of the script. -/
lemma addConnection_plaza {reads : List ReadResult} {reader : BufReader}
    (h : firstFrame reads
      = .ok (⟨joinChannel, "a", "fernq", joinUrl.length, 0⟩, joinUrl, reader)) :
    addConnection plazaEnv reads
      = [.respond welcome, .addConn plazaId "a" reader.intoInner] := by
  have hroom : verifyRoom plazaEnv joinUrl = .ok plazaId := by decide +kernel
  rw [addConnection_of_verified printsReplies_printVerify h hroom]
  rfl

end Plaza

/-- **The hand-over keeps the bytes behind the first frame exactly when a read ended there.**
Let a connection be handed over whose bytes begin with a whole frame.  The bytes the room can
still read are those behind the frame if and only if the frame ends with one of the chunks in
which the socket was read. -/
theorem handover_keeps_bytes_iff (env : HandshakeEnv) {reads : List ReadResult}
    {frame rest : List UInt8} {t : MessageType} {f : MessageFlags} {bodyLen : ℕ} {roomId : Uuid}
    {connName : String} {stream : List ReadResult} (hbytes : dataBytes reads = frame ++ rest)
    (hheader : decodeHeader (frame.take fixedHeaderLen) = .ok (t, f, bodyLen))
    (hlen : frame.length = fixedHeaderLen + bodyLen)
    (hadd : .addConn roomId connName stream ∈ addConnection env reads) :
    dataBytes stream = rest
      ↔ ∃ before after, reads = dataScript before ++ after ∧ chunkBytes before = frame := by
  obtain ⟨headerInfo, payload, reader, hfirst, -, -, rfl⟩ := verified_of_addConn hadd
  obtain ⟨headerRead, n, bodyRead, ⟨⟨between, hhead, hbody⟩, -, hcheck, -⟩, -⟩ :=
    framed_of_firstFrame hfirst
  have hnew : (BufReader.new reads).pendingBytes = frame ++ rest := hbytes
  obtain ⟨r₁, r₂, hr₁, hr₂, -⟩ := BufReader.readExact_split hnew hlen
  -- the header is received whole
  have hhead' := hhead.symm.trans hr₁
  rw [Prod.mk.injEq] at hhead'
  obtain ⟨rfl, rfl⟩ := hhead'
  obtain ⟨t', f', hdec⟩ := decodeHeader_of_checkHeader hcheck
  rw [ReadExact.filled, hheader, Outcome.ok.injEq, Prod.mk.injEq, Prod.mk.injEq] at hdec
  obtain ⟨-, -, rfl⟩ := hdec
  -- and so is the body
  have hbody' := hbody.symm.trans hr₂
  rw [Prod.mk.injEq] at hbody'
  obtain ⟨rfl, rfl⟩ := hbody'
  have hframe : frame.take fixedHeaderLen ++ frame.drop fixedHeaderLen = frame :=
    List.take_append_drop ..
  have hiff := intoInner_eq_rest_iff hhead hbody (by decide) (hbytes.trans (by rw [hframe]))
  rwa [hframe] at hiff

/-- A client that sends its first frame and three bytes in two chunks. -/
def chunkedReads : List ReadResult :=
  [.data ⟨joinFrame, by decide +kernel, by decide +kernel⟩,
    .data ⟨[1, 2, 3], by decide, by decide⟩]

/-- The three bytes are kept. -/
theorem handover_keeps_bytes_iff_chunked :
    dataBytes (chunkedReads.drop 1) = [1, 2, 3]
      ↔ ∃ before after, chunkedReads = dataScript before ++ after ∧
        chunkBytes before = joinFrame := by
  have hbytes : dataBytes chunkedReads = joinFrame ++ [1, 2, 3] := rfl
  have hheader : decodeHeader (joinFrame.take fixedHeaderLen)
      = .ok (.header, .new true true false, 101) := by decide +kernel
  have hlen : joinFrame.length = fixedHeaderLen + 101 := by decide +kernel
  have hfirst : firstFrame chunkedReads
      = .ok (⟨joinChannel, "a", "fernq", joinUrl.length, 0⟩, joinUrl,
          ⟨[], chunkedReads.drop 1⟩) := by decide +kernel
  have hadd : .addConn plazaId "a" (chunkedReads.drop 1)
      ∈ addConnection plazaEnv chunkedReads := by
    rw [addConnection_plaza hfirst]
    exact List.mem_cons_of_mem _ List.mem_cons_self
  exact handover_keeps_bytes_iff plazaEnv hbytes hheader hlen hadd

/-- The same client, with all bytes in one chunk. -/
def pipelinedReads : List ReadResult :=
  [.data ⟨joinFrame ++ [1, 2, 3], by decide +kernel, by decide +kernel⟩]

/-- The three bytes are lost. -/
theorem handover_loses_pipelined_bytes :
    dataBytes pipelinedReads = joinFrame ++ [1, 2, 3] ∧
      decodeHeader (joinFrame.take fixedHeaderLen) = .ok (.header, .new true true false, 101) ∧
      joinFrame.length = fixedHeaderLen + 101 ∧
      addConnection plazaEnv pipelinedReads = [.respond welcome, .addConn plazaId "a" []] ∧
      dataBytes [] ≠ [1, 2, 3] := by
  have hfirst : firstFrame pipelinedReads
      = .ok (⟨joinChannel, "a", "fernq", joinUrl.length, 0⟩, joinUrl, ⟨[1, 2, 3], []⟩) := by
    decide +kernel
  refine ⟨?_, by decide +kernel, by decide +kernel, addConnection_plaza hfirst, by decide⟩
  exact List.append_nil _

/-! ### Frames that are cut -/

section Cut

variable {env : HandshakeEnv} {reads : List ReadResult}

/-- The read ended in an end of file or an I/O error. -/
def ReadExact.IsCut (r : ReadExact) : Prop := ∃ received e, r = .failed received e

/-- The header and the body it announces are received whole. -/
def Received (reads : List ReadResult) : Prop :=
  ∃ header between t f n body reader,
    (BufReader.new reads).readExact fixedHeaderLen = (.done header, between) ∧
      decodeHeader header = .ok (t, f, n) ∧ between.readExact n = (.done body, reader)

/-- The header, or the body it announces, ends in an end of file or an I/O error. -/
def Cut (reads : List ReadResult) : Prop :=
  ((BufReader.new reads).readExact fixedHeaderLen).1.IsCut ∨
    ∃ header between t f n,
      (BufReader.new reads).readExact fixedHeaderLen = (.done header, between) ∧
        decodeHeader header = .ok (t, f, n) ∧ (between.readExact n).1.IsCut

/-- The zeros behind what was received of a cut frame make it one that the parser refuses. -/
def CutRefused (reads : List ReadResult) : Prop :=
  ∀ headerRead n bodyRead reader, Framed reads headerRead n bodyRead reader →
    headerRead.IsCut ∨ bodyRead.IsCut →
    ∃ e, parseMessage (bufferedFrame headerRead n bodyRead) = .err e

lemma exists_done_of_not_cut {r : ReadExact} (hne : r ≠ .elapsed) (hcut : ¬ r.IsCut) :
    ∃ bytes, r = .done bytes := by
  cases r with
  | done bytes => exact ⟨bytes, rfl⟩
  | failed received e => exact absurd ⟨received, e, rfl⟩ hcut
  | elapsed => exact absurd rfl hne

/-- A framed first frame with neither part cut is received. -/
lemma Framed.received {headerRead bodyRead : ReadExact} {n : ℕ} {reader : BufReader}
    (h : Framed reads headerRead n bodyRead reader)
    (hcut : ¬ (headerRead.IsCut ∨ bodyRead.IsCut)) : Received reads := by
  rw [not_or] at hcut
  obtain ⟨header, rfl⟩ := exists_done_of_not_cut h.header_ne hcut.1
  obtain ⟨body, rfl⟩ := exists_done_of_not_cut h.body_ne hcut.2
  obtain ⟨between, hhead, hbody⟩ := h.exists_between
  obtain ⟨t, f, hdec⟩ := decodeHeader_of_checkHeader h.check
  exact ⟨header, between, t, f, n, body, reader, hhead, hdec, hbody⟩

/-- A first frame that is received whole has no part cut. -/
lemma Framed.not_cut_of_received {headerRead bodyRead : ReadExact} {n : ℕ} {reader : BufReader}
    (h : Framed reads headerRead n bodyRead reader) (hrec : Received reads) :
    ¬ (headerRead.IsCut ∨ bodyRead.IsCut) := by
  obtain ⟨between, hhead, hbody⟩ := h.exists_between
  obtain ⟨header, between', t, f, n', body, reader', hhead', hdec, hbody'⟩ := hrec
  rw [hhead, Prod.mk.injEq] at hhead'
  obtain ⟨rfl, rfl⟩ := hhead'
  obtain ⟨t', f', hdec'⟩ := decodeHeader_of_checkHeader h.check
  rw [ReadExact.filled, hdec, Outcome.ok.injEq, Prod.mk.injEq, Prod.mk.injEq] at hdec'
  obtain ⟨-, -, rfl⟩ := hdec'
  rw [hbody, Prod.mk.injEq] at hbody'
  obtain ⟨rfl, -⟩ := hbody'
  rintro (⟨_, _, hcut⟩ | ⟨_, _, hcut⟩) <;> cases hcut

/-- A framed first frame of a script that is cut is itself cut. -/
lemma Framed.cut_of_cut {headerRead bodyRead : ReadExact} {n : ℕ} {reader : BufReader}
    (h : Framed reads headerRead n bodyRead reader) (hcut : Cut reads) :
    headerRead.IsCut ∨ bodyRead.IsCut := by
  obtain ⟨between, hhead, hbody⟩ := h.exists_between
  rcases hcut with hcut | ⟨header, between', t, f, n', hhead', hdec, hcut⟩
  · rw [hhead] at hcut
    exact Or.inl hcut
  · rw [hhead, Prod.mk.injEq] at hhead'
    obtain ⟨rfl, rfl⟩ := hhead'
    obtain ⟨t', f', hdec'⟩ := decodeHeader_of_checkHeader h.check
    rw [ReadExact.filled, hdec, Outcome.ok.injEq, Prod.mk.injEq, Prod.mk.injEq] at hdec'
    obtain ⟨-, -, rfl⟩ := hdec'
    rw [hbody] at hcut
    exact Or.inr hcut

/-- A framed first frame with a part cut is one of a script that is cut. -/
lemma Framed.cut {headerRead bodyRead : ReadExact} {n : ℕ} {reader : BufReader}
    (h : Framed reads headerRead n bodyRead reader)
    (hcut : headerRead.IsCut ∨ bodyRead.IsCut) : Cut reads := by
  obtain ⟨between, hhead, hbody⟩ := h.exists_between
  by_cases hhcut : headerRead.IsCut
  · exact Or.inl (by rwa [hhead])
  · obtain ⟨header, rfl⟩ := exists_done_of_not_cut h.header_ne hhcut
    obtain ⟨t, f, hdec⟩ := decodeHeader_of_checkHeader h.check
    refine Or.inr ⟨header, between, t, f, n, hhead, hdec, ?_⟩
    rw [hbody]
    exact hcut.resolve_left hhcut

/-- **The handshake acts on received bytes exactly when the zeros of cut frames are refused.**
A connection is answered or handed over only if its first frame was received whole, and it is
shut down without an answer whenever a read of its first frame ended in an end of file or an
I/O error, if and only if each cut frame that passes the checks of the header is refused by the
parser. -/
theorem acts_on_received_iff (env : HandshakeEnv) (hprint : PrintsReplies env.toString)
    (reads : List ReadResult) :
    (((∃ x ∈ addConnection env reads, x.Acts) → Received reads) ∧
      (Cut reads → addConnection env reads = [.shutdown])) ↔ CutRefused reads := by
  constructor
  · rintro ⟨hreceived, hcutdown⟩ headerRead n bodyRead reader hframed hcut
    have hdown := hcutdown (hframed.cut hcut)
    have hfirst := firstFrame_of_framed hframed
    cases hparse : parseMessage (bufferedFrame headerRead n bodyRead) with
    | err e => exact ⟨e, rfl⟩
    | ok v =>
        obtain ⟨headerInfo, payload⟩ := v
        rw [hparse, Outcome.mapErr_ok, Outcome.ok_bind] at hfirst
        obtain ⟨r, hr⟩ := exists_respond hprint hfirst
        exact absurd hcut (hframed.not_cut_of_received (hreceived ⟨_, hr, trivial⟩))
    | panicked =>
        rw [hparse] at hfirst
        rw [addConnection, hfirst] at hdown
        cases hdown
  · intro hrefused
    refine ⟨?_, ?_⟩
    · rintro ⟨x, hx, hacts⟩
      obtain ⟨⟨headerInfo, payload, reader⟩, hfirst⟩ := firstFrame_of_acts hx hacts
      obtain ⟨headerRead, n, bodyRead, hframed, hparse⟩ := framed_of_firstFrame hfirst
      refine hframed.received ?_
      intro hcut
      obtain ⟨e, he⟩ := hrefused _ _ _ _ hframed hcut
      rw [hparse] at he
      cases he
    · intro hcut
      by_cases herr : ∃ e, firstFrame reads = .err e
      · obtain ⟨e, he⟩ := herr
        rw [addConnection, he]
      · obtain ⟨headerRead, n, bodyRead, reader, hframed⟩ :=
          framed_of_not_err fun e he => herr ⟨e, he⟩
        obtain ⟨e, he⟩ := hrefused _ _ _ _ hframed (hframed.cut_of_cut hcut)
        rw [addConnection, firstFrame_of_framed hframed, he]
        rfl

/-- A first frame that is received whole. -/
theorem acts_on_received_iff_chunked :
    (((∃ x ∈ addConnection plazaEnv chunkedReads, x.Acts) → Received chunkedReads) ∧
      (Cut chunkedReads → addConnection plazaEnv chunkedReads = [.shutdown]))
      ↔ CutRefused chunkedReads :=
  acts_on_received_iff plazaEnv printsReplies_printVerify chunkedReads

/-- A client that ends its stream before the checksum of its first frame. -/
def cutReads : List ReadResult :=
  [.data ⟨joinFrame.take 110, by decide +kernel, by decide +kernel⟩, .eof]

/-- The client is welcomed and handed over. -/
theorem cut_frame_is_welcomed :
    Cut cutReads ∧
      addConnection plazaEnv cutReads = [.respond welcome, .addConn plazaId "a" [.eof]] ∧
      ¬ (((∃ x ∈ addConnection plazaEnv cutReads, x.Acts) → Received cutReads) ∧
        (Cut cutReads → addConnection plazaEnv cutReads = [.shutdown])) := by
  have hfirst : firstFrame cutReads
      = .ok (⟨joinChannel, "a", "fernq", joinUrl.length, 0⟩, joinUrl, ⟨[], [.eof]⟩) := by
    decide +kernel
  have heffects := addConnection_plaza hfirst
  have hcut : Cut cutReads :=
    Or.inr ⟨joinFrame.take 11, ⟨(joinFrame.take 110).drop 11, [.eof]⟩, .header,
      .new true true false, 101, by decide +kernel, by decide +kernel,
      (joinFrame.take 110).drop 11, BufReader.unexpectedEof, by decide +kernel⟩
  refine ⟨hcut, heffects, ?_⟩
  intro h
  have hdown := h.2 hcut
  rw [heffects] at hdown
  cases hdown

end Cut

end Fernq
