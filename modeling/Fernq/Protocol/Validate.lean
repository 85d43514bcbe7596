import Mathlib.Tactic
import Fernq.Base.Text
import Fernq.Protocol.Encoder
import Fernq.Protocol.Message

/-!
The validation text of a handshake and the replies of the server
(`fernq-core/src/protocol/validate.rs`).  `Uuid::parse_str` and the JSON serialiser are
parameters.

* `parseValidate`: room id, room name and password of a validation text;
  `parseValidate_ne_panicked`.
* `createVerifyResponse`, `createMessageResponse`: reply frames.
* `createVerifyResponse_eq_ok`, `createMessageResponse_eq_ok`: a reply whose JSON text fits
  one frame is that frame.
-/

namespace Fernq

/-! ### The validation text -/

/-- 从 URL 中提取 room_pass 参数. -/
def extractPassword (url : String) : Outcome ProtocolError (String × String) := do
  let (baseUrl, query) ← Outcome.okOr (splitAtFirst '?' url) .missingPassword
  let password ← Outcome.okOr
    ((query.toList.splitOn '&').findSome? (stripPrefix "room_pass=")) .missingPassword
  if password.isEmpty then .err .emptyPassword else return (baseUrl, .ofList password)

/-- 从 URL 中提取 fragment（#后面的名称）. -/
def extractName (url : String) : Outcome ProtocolError (String × String) := do
  let (base, name) ← Outcome.okOr (splitAtFirst '#' url) .missingName
  if name.isEmpty then .err .missingName else return (base, name)

/-- 从路径中提取并验证 UUID: the text after the last `/`. -/
def extractUuid (parseStr : String → Except String Uuid) (url : String) :
    Outcome ProtocolError Uuid := do
  let uuidStr ← Outcome.okOr
    ((url.toList.splitOn '/').getLast?.filter (!·.isEmpty)) .missingUuid
  match parseStr (.ofList uuidStr) with
  | .ok uuid => .ok uuid
  | .error e => .err (.invalidUuidFormat s!"'{String.ofList uuidStr}' is not a valid UUID: {e}")

/-- 解析地址: the room id, the room name and the password. -/
def parseValidate (parseStr : String → Except String Uuid) (payload : List UInt8) :
    Outcome ProtocolError (Uuid × String × String) := do
  let url ← Outcome.okOr (fromUtf8 payload) .invalidUtf8
  if ¬ "fernq://".toList <+: url.toList then .err (.invalidProtocol url)
  else do
    let (urlWithoutQuery, password) ← extractPassword url
    let (pathPart, name) ← extractName urlWithoutQuery
    let uuid ← extractUuid parseStr pathPart
    return (uuid, name, password)

lemma extractPassword_ne_panicked (url : String) : extractPassword url ≠ .panicked := by
  intro h
  rw [extractPassword] at h
  rcases Outcome.bind_eq_panicked.mp h with h | ⟨⟨baseUrl, query⟩, -, h⟩
  · exact Outcome.okOr_ne_panicked _ _ h
  · rcases Outcome.bind_eq_panicked.mp h with h | ⟨password, -, h⟩
    · exact Outcome.okOr_ne_panicked _ _ h
    · split_ifs at h

lemma extractName_ne_panicked (url : String) : extractName url ≠ .panicked := by
  intro h
  rw [extractName] at h
  rcases Outcome.bind_eq_panicked.mp h with h | ⟨⟨base, name⟩, -, h⟩
  · exact Outcome.okOr_ne_panicked _ _ h
  · dsimp only at h
    split_ifs at h

lemma extractUuid_ne_panicked (parseStr : String → Except String Uuid) (url : String) :
    extractUuid parseStr url ≠ .panicked := by
  intro h
  rw [extractUuid] at h
  rcases Outcome.bind_eq_panicked.mp h with h | ⟨uuidStr, -, h⟩
  · exact Outcome.okOr_ne_panicked _ _ h
  · split at h <;> cases h

/-- The validation text is split at characters, and nothing is indexed. -/
theorem parseValidate_ne_panicked (parseStr : String → Except String Uuid)
    (payload : List UInt8) : parseValidate parseStr payload ≠ .panicked := by
  intro h
  rw [parseValidate] at h
  rcases Outcome.bind_eq_panicked.mp h with h | ⟨url, -, h⟩
  · exact Outcome.okOr_ne_panicked _ _ h
  · split_ifs at h
    rcases Outcome.bind_eq_panicked.mp h with h | ⟨⟨urlWithoutQuery, password⟩, -, h⟩
    · exact extractPassword_ne_panicked _ h
    · rcases Outcome.bind_eq_panicked.mp h with h | ⟨⟨pathPart, name⟩, -, h⟩
      · exact extractName_ne_panicked _ h
      · rcases Outcome.bind_eq_panicked.mp h with h | ⟨uuid, -, h⟩
        · exact extractUuid_ne_panicked _ _ h
        · cases h

/-! ### The replies -/

/-- 验证frames长度必须是1. -/
def singleFrame (frames : List (List UInt8)) : Outcome ProtocolError (List UInt8) :=
  match frames with
  | [frame] => .ok frame
  | _ => .err (.invalidFrameLength "frame too long")

/-- The JSON object of a verification reply. -/
def verifyObject (state : Bool) (message : String) : Json :=
  .object (insertField "message" (.string message) (insertField "state" (.bool state) []))

/-- 生成验证信息的响应帧; `toString` prints a JSON value. -/
def createVerifyResponse (toString : Json → String) (name : String) (channelId : ChannelId)
    (state : Bool) (message : String) : Outcome ProtocolError (List UInt8) := do
  let frames ← generateMessageDataStream .header true true channelId "fernq" name
    (utf8Bytes (toString (verifyObject state message)))
  singleFrame frames

/-- 生成响应信息帧. -/
def createMessageResponse (toVec : Json → Except String (List UInt8)) (name : String)
    (channelId : ChannelId) (state : ℕ) (body : String) : Outcome ProtocolError (List UInt8) := do
  let jsonObj ← encodeResponseToBytes toVec state .json (some (.string body))
  let frames ← generateMessageDataStream .header true true channelId "fernq" name jsonObj
  singleFrame frames

section Single

variable {t : MessageType} {endChannel isResponse : Bool} {id : ChannelId} {src tgt : String}
  {data : List UInt8}

/-- Data that fits one frame makes one frame. -/
lemma frameCount_eq_one (hpos : 0 < data.length) (hle : data.length ≤ maxPayloadLen src tgt) :
    frameCount src tgt data = 1 := by
  have hm : 0 < maxPayloadLen src tgt := by omega
  have h0 := (lt_frameCount_iff hm data 0).mpr (by omega)
  have h1 := (lt_frameCount_iff hm data 1).not.mpr (by omega)
  omega

/-- The encoder's result on data that fits one frame. -/
lemma generateMessageDataStream_single (henc : Encodable src tgt data) (hpos : 0 < data.length)
    (hle : data.length ≤ maxPayloadLen src tgt) :
    generateMessageDataStream t endChannel isResponse id src tgt data
      = .ok [messageFrame t (.new true endChannel isResponse) id src tgt data.length 0 data] := by
  rw [generateMessageDataStream_eq_ok henc, streamFrames, frameCount_eq_one hpos hle,
    List.range_one, List.map_singleton, streamFrame, frameCount_eq_one hpos hle, streamPayload,
    Nat.zero_mul, List.drop_zero, List.take_of_length_le hle]
  rfl

end Single

section Reply

variable {name : String} {id : ChannelId}

/-- A name of 1 to 128 bytes and a text that fits beside it. -/
lemma encodable_reply (data : List UInt8) (hpos : 0 < name.utf8ByteSize)
    (hle : name.utf8ByteSize ≤ maxNameLength) (hdata : data.length ≤ 7895) :
    Encodable "fernq" name data ∧ data.length ≤ maxPayloadLen "fernq" name := by
  have hfernq : "fernq".utf8ByteSize ≤ maxNameLength := by decide
  exact ⟨⟨by decide, hfernq, hpos, hle, hdata.trans (by decide)⟩,
    hdata.trans (le_maxPayloadLen hfernq hle)⟩

/-- The frame of a verification reply. -/
def verifyFrame (toString : Json → String) (name : String) (channelId : ChannelId) (state : Bool)
    (message : String) : List UInt8 :=
  let text := utf8Bytes (toString (verifyObject state message))
  messageFrame .header (.new true true true) channelId "fernq" name text.length 0 text

/-- A verification reply whose text fits one frame is that frame. -/
theorem createVerifyResponse_eq_ok {toString : Json → String} {state : Bool} {message : String}
    (hpos : 0 < name.utf8ByteSize) (hle : name.utf8ByteSize ≤ maxNameLength)
    (htext : 0 < (toString (verifyObject state message)).utf8ByteSize)
    (hfits : (toString (verifyObject state message)).utf8ByteSize ≤ 7895) :
    createVerifyResponse toString name id state message
      = .ok (verifyFrame toString name id state message) := by
  obtain ⟨henc, hroom⟩ := encodable_reply (utf8Bytes _) hpos hle hfits
  rw [createVerifyResponse, generateMessageDataStream_single henc htext hroom, Outcome.ok_bind,
    singleFrame, verifyFrame]

/-- A response whose text fits one frame is that frame. -/
theorem createMessageResponse_eq_ok {toVec : Json → Except String (List UInt8)} {state : ℕ}
    {body : String} {text : List UInt8} (hpos : 0 < name.utf8ByteSize)
    (hle : name.utf8ByteSize ≤ maxNameLength) (hlo : 100 ≤ state) (hhi : state ≤ 599)
    (hvec : toVec (responseObject state body) = .ok text) (htext : 0 < text.length)
    (hfits : text.length ≤ 7895) :
    createMessageResponse toVec name id state body
      = .ok (messageFrame .header (.new true true true) id "fernq" name text.length 0 text) := by
  obtain ⟨henc, hroom⟩ := encodable_reply text hpos hle hfits
  have hjson : encodeResponseToBytes toVec state .json (some (.string body)) = .ok text := by
    rw [encodeResponseToBytes, encodeResponse_string body hlo hhi, Outcome.ok_bind, hvec]
  rw [createMessageResponse, hjson, Outcome.ok_bind,
    generateMessageDataStream_single henc htext hroom, Outcome.ok_bind, singleFrame]

end Reply

end Fernq
