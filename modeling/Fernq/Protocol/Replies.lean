import Mathlib.Tactic
import Fernq.Protocol.MessageRoundTrip
import Fernq.Protocol.Url

/-!
The replies of the server, from the room to the client (`fernq-core/src/protocol/validate.rs`).

* `parseVerifyResponse`: what a client reads out of a verification reply.
* `IsReply`: a whole frame of the server for one name and channel, with its payload.
* `repliesWith_of_text`: a text is carried whole in one frame, or it is refused for its length.
* `replies_round_trip`: both kinds of replies are read back.
-/

namespace Fernq

/-! ### Reading a verification reply -/

/-- `value[key]`: null where there is no such field. -/
def Json.index (v : Json) (key : String) : Json := (v.get key).getD .null

def Json.asBool : Json → Option Bool
  | .bool b => some b
  | _ => none

/-- 解析验证响应信息; `fromStr` is `serde_json::from_str`. -/
def parseVerifyResponse (fromStr : String → Except String Json) (data : List UInt8) :
    Outcome ProtocolError (Bool × String) := do
  let jsonStr ← Outcome.okOr (fromUtf8 data) .invalidUtf8
  let value ← orInvalidJson (fromStr jsonStr)
  let state ← Outcome.okOr (value.index "state").asBool
    (.invalidJson "field 'state' must be boolean")
  let message ← Outcome.okOr (value.index "message").asStr
    (.invalidJson "field 'message' must be string")
  return (state, message)

/-- The object of a verification reply is read back from its text. -/
lemma parseVerifyResponse_verifyObject {fromStr : String → Except String Json} {text : String}
    {state : Bool} {message : String} (hparse : fromStr text = .ok (verifyObject state message)) :
    parseVerifyResponse fromStr (utf8Bytes text) = .ok (state, message) := by
  rw [parseVerifyResponse, fromUtf8_utf8Bytes, Outcome.okOr_some, Outcome.ok_bind, hparse,
    orInvalidJson, Outcome.ok_bind]
  rfl

/-! ### The frame of a reply -/

/-- `frame` is one whole frame of the server for the client `name`: a header that ends its stream
and its channel, marked as a response, with `payload` in it. -/
structure IsReply (name : String) (channelId : ChannelId) (frame payload : List UInt8) : Prop where
  decoded : ∃ flags : MessageFlags, decodeBasic frame = .ok (.header, flags, frame, []) ∧
    flags.endStream = true ∧ flags.endChannel = true ∧ flags.isResponse = true
  parsed : ∃ header : MessageHeader, parseMessage frame = .ok (header, payload) ∧
    header.source = "fernq" ∧ header.target = name ∧ header.channelId = channelId

/-- A reply is made exactly when it fits, and its frame carries a payload that is `Read`; one that
does not fit is an error. -/
structure RepliesWith (reply : Outcome ProtocolError (List UInt8)) (fits : Prop) (name : String)
    (channelId : ChannelId) (Read : List UInt8 → Prop) : Prop where
  ok_iff : (∃ frame, reply = .ok frame) ↔ fits
  refused : ¬ fits → ∃ e, reply = .err e
  carries : ∀ frame, reply = .ok frame →
    ∃ payload, IsReply name channelId frame payload ∧ Read payload

section Reply

variable {reply : Outcome ProtocolError (List UInt8)} {fits : Prop} {name : String}
  {channelId : ChannelId} {Read : List UInt8 → Prop} {text : List UInt8}

lemma repliesWith_of_fits {frame : List UInt8} (hfits : fits) (hreply : reply = .ok frame)
    (hcarries : ∃ payload, IsReply name channelId frame payload ∧ Read payload) :
    RepliesWith reply fits name channelId Read := by
  refine ⟨iff_of_true ⟨frame, hreply⟩ hfits, fun hnot => absurd hfits hnot, fun other hother => ?_⟩
  obtain rfl : frame = other := by simpa [hreply] using hother
  exact hcarries

lemma repliesWith_of_refused (hfits : ¬ fits) (hreply : ∃ e, reply = .err e) :
    RepliesWith reply fits name channelId Read := by
  obtain ⟨e, he⟩ := hreply
  refine ⟨iff_of_false ?_ hfits, fun _ => ⟨e, he⟩, fun frame hframe => ?_⟩
  · simp [he]
  · simp [he] at hframe

lemma maxPayloadLen_reply (name : String) :
    maxPayloadLen "fernq" name = 8192 - 41 - 5 - name.utf8ByteSize := by
  have hfernq : "fernq".utf8ByteSize = 5 := by decide
  rw [maxPayloadLen, hfernq]
  rfl

/-- The frame of a text that fits beside the names is a reply. -/
lemma isReply_messageFrame (hpos : 0 < name.utf8ByteSize) (hle : name.utf8ByteSize ≤ maxNameLength)
    (hfits : text.length ≤ maxPayloadLen "fernq" name) :
    IsReply name channelId (messageFrame .header (.new true true true) channelId "fernq" name
      text.length 0 text) text := by
  have hmax : maxPayloadLen "fernq" name ≤ 8151 := maxPayloadLen_le
  have hfit : FieldsFit "fernq" name text.length 0 text :=
    ⟨by decide, by decide, hpos, hle, by omega, by omega, by rw [maxFrameSize]; omega⟩
  set frame := messageFrame .header (.new true true true) channelId "fernq" name text.length 0 text
  have hdecode : decodeBasic (frame ++ []) = .ok (.header, .new true true true, frame, []) :=
    decodeBasic_messageFrame hfit []
  rw [List.append_nil] at hdecode
  exact ⟨⟨_, hdecode, rfl, rfl, rfl⟩, ⟨_, parseMessage_messageFrame hfit, rfl, rfl, rfl⟩⟩

/-- A text is carried whole in one frame when it fits beside the names, and refused when it does
not. -/
lemma repliesWith_of_text (hpos : 0 < name.utf8ByteSize) (hle : name.utf8ByteSize ≤ maxNameLength)
    (htext : 0 < text.length) (hread : Read text) :
    RepliesWith (generateMessageDataStream .header true true channelId "fernq" name text
      >>= singleFrame) (text.length ≤ 8192 - 41 - 5 - name.utf8ByteSize) name channelId Read := by
  by_cases hfits : text.length ≤ 8192 - 41 - 5 - name.utf8ByteSize
  · have hroom : text.length ≤ maxPayloadLen "fernq" name := by rwa [maxPayloadLen_reply]
    have henc : Encodable "fernq" name text :=
      ⟨by decide, by decide, hpos, hle, by rw [maxStreamLength]; omega⟩
    refine repliesWith_of_fits hfits ?_ ⟨text, isReply_messageFrame hpos hle hroom, hread⟩
    rw [generateMessageDataStream_single henc htext hroom, Outcome.ok_bind, singleFrame]
  · refine repliesWith_of_refused hfits (encode_singleFrame_of_lt ?_)
    rw [maxPayloadLen_reply]
    omega

end Reply

/-! ### Both kinds of replies -/

section Replies

variable {toString : Json → String} {fromStr : String → Except String Json}
  {toVec : Json → Except String (List UInt8)} {fromSlice : List UInt8 → Except String Json}
  {name : String} {channelId : ChannelId}

/-- A verification reply is read back. -/
lemma createVerifyResponse_repliesWith {state : Bool} {message : String}
    (hpos : 0 < name.utf8ByteSize) (hle : name.utf8ByteSize ≤ maxNameLength)
    (hempty : ∀ v, fromStr "" ≠ .ok v)
    (hparse : fromStr (toString (verifyObject state message)) = .ok (verifyObject state message)) :
    RepliesWith (createVerifyResponse toString name channelId state message)
      ((toString (verifyObject state message)).utf8ByteSize ≤ 8192 - 41 - 5 - name.utf8ByteSize)
      name channelId (parseVerifyResponse fromStr · = .ok (state, message)) := by
  have htext : 0 < (utf8Bytes (toString (verifyObject state message))).length := by
    rw [utf8Bytes_length, Nat.pos_iff_ne_zero, ne_eq, String.utf8ByteSize_eq_zero_iff]
    intro hnil
    rw [hnil] at hparse
    exact hempty _ hparse
  exact repliesWith_of_text hpos hle htext (parseVerifyResponse_verifyObject hparse)

/-- A response with a text is read back, and a state that is no status code is refused. -/
lemma createMessageResponse_repliesWith {state : ℕ} {body : String}
    (hpos : 0 < name.utf8ByteSize) (hle : name.utf8ByteSize ≤ maxNameLength)
    (hempty : ∀ v, fromSlice [] ≠ .ok v)
    (hinv : ∀ w, encodeResponse state .json (some (.string body)) = .ok w →
      Inverts toVec fromSlice w) :
    RepliesWith (createMessageResponse toVec name channelId state body)
      ((100 ≤ state ∧ state ≤ 599) ∧ ∃ text, toVec (responseObject state body) = .ok text ∧
        text.length ≤ 8192 - 41 - 5 - name.utf8ByteSize)
      name channelId
      (decodeFromBytes fromSlice · = .ok (.response ⟨.json, state, some (.string body)⟩)) := by
  by_cases hstate : 100 ≤ state ∧ state ≤ 599
  · have hencode := encodeResponse_string body hstate.1 hstate.2
    obtain ⟨text, hprint, hparse⟩ := hinv _ hencode
    have hbytes : encodeResponseToBytes toVec state .json (some (.string body)) = .ok text := by
      rw [encodeResponseToBytes, hencode, Outcome.ok_bind, hprint]
    have htext : 0 < text.length := by
      rw [List.length_pos_iff]
      rintro rfl
      exact hempty _ hparse
    have hread : decodeFromBytes fromSlice text
        = .ok (.response ⟨.json, state, some (.string body)⟩) := by
      rw [decodeFromBytes_eq_bind, hparse, orInvalidJson, Outcome.ok_bind,
        decodeMessage_responseObject body hstate.1 hstate.2]
    have hcreate : createMessageResponse toVec name channelId state body
        = generateMessageDataStream .header true true channelId "fernq" name text
          >>= singleFrame := by
      rw [createMessageResponse, hbytes, Outcome.ok_bind]
    have hfits : ((100 ≤ state ∧ state ≤ 599) ∧
        ∃ text, toVec (responseObject state body) = .ok text ∧
        text.length ≤ 8192 - 41 - 5 - name.utf8ByteSize)
          ↔ text.length ≤ 8192 - 41 - 5 - name.utf8ByteSize := by
      simp [hstate, hprint]
    rw [hcreate, hfits]
    exact repliesWith_of_text hpos hle htext hread
  · refine repliesWith_of_refused (fun hfits => hstate hfits.1) ⟨.invalidStateCode state, ?_⟩
    rw [createMessageResponse, encodeResponseToBytes, encodeResponse, if_pos hstate,
      Outcome.err_bind, Outcome.err_bind]

/-- **Replies are read back.**  For a name of 1 to 128 bytes, a verification reply is made exactly
when its JSON text has at most `8192 - 41 - 5 - |name|` bytes, and a response exactly when its state
is a status code and its JSON text has at most as many; the frame is one whole frame of the server
for that name and channel, and its payload is read back.  Anything else is an error, and never a
part of a frame. -/
theorem replies_round_trip (toString : Json → String) (fromStr : String → Except String Json)
    (toVec : Json → Except String (List UInt8)) (fromSlice : List UInt8 → Except String Json)
    (name : String) (channelId : ChannelId) (verified : Bool) (message : String) (state : ℕ)
    (body : String) (hpos : 1 ≤ name.utf8ByteSize) (hle : name.utf8ByteSize ≤ 128)
    (hempty : (∀ v, fromStr "" ≠ .ok v) ∧ ∀ v, fromSlice [] ≠ .ok v)
    (hverify : fromStr (toString (verifyObject verified message))
      = .ok (verifyObject verified message))
    (hresponse : ∀ w, encodeResponse state .json (some (.string body)) = .ok w →
      Inverts toVec fromSlice w) :
    RepliesWith (createVerifyResponse toString name channelId verified message)
        ((toString (verifyObject verified message)).utf8ByteSize
          ≤ 8192 - 41 - 5 - name.utf8ByteSize)
        name channelId (parseVerifyResponse fromStr · = .ok (verified, message)) ∧
      RepliesWith (createMessageResponse toVec name channelId state body)
        ((100 ≤ state ∧ state ≤ 599) ∧ ∃ text, toVec (responseObject state body) = .ok text ∧
          text.length ≤ 8192 - 41 - 5 - name.utf8ByteSize)
        name channelId
        (decodeFromBytes fromSlice · = .ok (.response ⟨.json, state, some (.string body)⟩)) :=
  ⟨createVerifyResponse_repliesWith hpos hle hempty.1 hverify,
    createMessageResponse_repliesWith hpos hle hempty.2 hresponse⟩

end Replies

def acceptedText : String := "\x7b\"message\":\"say \\\"hi\\\"\",\"state\":true\x7d"

def missingText : String :=
  "\x7b\"body\":\"404\",\"content_type\":\"json\",\"header_type\":\"response\",\"state\":404\x7d"

/-- A verification reply whose message has quotes in it, and a response with the state 404. -/
theorem replies_round_trip_alice :
    let fromStr : String → Except String Json := fun s =>
      if s = "" then .error "EOF while parsing a value" else .ok (verifyObject true "say \"hi\"")
    let fromSlice : List UInt8 → Except String Json := fun data =>
      if data = [] then .error "EOF while parsing a value" else .ok (responseObject 404 "404")
    let id : ChannelId := ⟨⟨List.replicate 16 12, rfl⟩⟩
    RepliesWith (createVerifyResponse (fun _ => acceptedText) "alice" id true "say \"hi\"")
        (acceptedText.utf8ByteSize ≤ 8192 - 41 - 5 - "alice".utf8ByteSize) "alice" id
        (parseVerifyResponse fromStr · = .ok (true, "say \"hi\"")) ∧
      RepliesWith
        (createMessageResponse (fun _ => .ok (utf8Bytes missingText)) "alice" id 404 "404")
        ((100 ≤ 404 ∧ 404 ≤ 599) ∧ ∃ text, (Except.ok (utf8Bytes missingText)
          : Except String (List UInt8)) = .ok text ∧
          text.length ≤ 8192 - 41 - 5 - "alice".utf8ByteSize) "alice" id
        (decodeFromBytes fromSlice · = .ok (.response ⟨.json, 404, some (.string "404")⟩)) := by
  intro fromStr fromSlice id
  refine replies_round_trip (fun _ => acceptedText) fromStr (fun _ => .ok (utf8Bytes missingText))
    fromSlice "alice" id true "say \"hi\"" 404 "404" (by decide) (by decide) ⟨?_, ?_⟩ ?_ ?_
  · intro v
    simp [fromStr]
  · intro v
    simp [fromSlice]
  · exact if_neg (by decide)
  · intro w hw
    rw [encodeResponse_string "404" (by decide) (by decide), Outcome.ok.injEq] at hw
    exact ⟨_, rfl, hw ▸ if_neg (by decide)⟩

end Fernq
