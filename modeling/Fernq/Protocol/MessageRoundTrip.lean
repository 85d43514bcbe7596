import Mathlib.Tactic
import Fernq.Protocol.MessageCodec

/-!
Messages are read back as they were written (`fernq-core/src/protocol/message.rs`): as JSON
values, as bytes and as texts.  `serde_json` is a parameter: what prints a value, and what parses
it.

* `encodeRequestToBytes`, `encodeRequestToString`, `encodeResponseToString`,
  `decodeFromString`: the variants over bytes and texts.
* `Inverts`: parsing gives back what was printed.
* `Message.Refused`: what the encoders refuse.
* `message_round_trip`: everything else is read back, field by field.
-/

namespace Fernq

/-! ### The variants -/

/-- `.map_err(|e| ProtocolError::InvalidJson(e.to_string()))`. -/
def orInvalidJson {α : Type} : Except String α → Outcome ProtocolError α
  | .ok a => .ok a
  | .error e => .err (.invalidJson e)

/-- Value 转 JSON 字符串; `toString` is `serde_json::to_string`. -/
def toJsonString (toString : Json → Except String String) (value : Json) :
    Outcome ProtocolError String :=
  orInvalidJson (toString value)

/-- JSON 字符串转 Value; `fromStr` is `serde_json::from_str`. -/
def fromJsonString (fromStr : String → Except String Json) (s : String) :
    Outcome ProtocolError Json :=
  orInvalidJson (fromStr s)

/-- 编码请求为 Bytes. -/
def encodeRequestToBytes (toVec : Json → Except String (List UInt8)) (path : String)
    (contentType : ContentType) (body : Option Json) : Outcome ProtocolError (List UInt8) := do
  let val ← encodeRequest path contentType body
  orInvalidJson (toVec val)

/-- 编码请求为字符串. -/
def encodeRequestToString (toString : Json → Except String String) (path : String)
    (contentType : ContentType) (body : Option Json) : Outcome ProtocolError String := do
  let val ← encodeRequest path contentType body
  toJsonString toString val

/-- 编码响应为字符串. -/
def encodeResponseToString (toString : Json → Except String String) (state : ℕ)
    (contentType : ContentType) (body : Option Json) : Outcome ProtocolError String := do
  let val ← encodeResponse state contentType body
  toJsonString toString val

/-- 从字符串解码. -/
def decodeFromString (fromStr : String → Except String Json) (s : String) :
    Outcome ProtocolError Message := do
  let val ← fromJsonString fromStr s
  decodeMessage val

lemma encodeResponseToBytes_eq_bind (toVec : Json → Except String (List UInt8)) (state : ℕ)
    (contentType : ContentType) (body : Option Json) :
    encodeResponseToBytes toVec state contentType body
      = encodeResponse state contentType body >>= fun val => orInvalidJson (toVec val) := by
  rw [encodeResponseToBytes]
  refine congrArg _ (funext fun val => ?_)
  cases toVec val <;> rfl

lemma decodeFromBytes_eq_bind (fromSlice : List UInt8 → Except String Json) (data : List UInt8) :
    decodeFromBytes fromSlice data = orInvalidJson (fromSlice data) >>= decodeMessage := by
  rw [decodeFromBytes]
  cases fromSlice data <;> rfl

/-- Parsing gives back the value that was printed. -/
def Inverts {α β : Type} (print : α → Except String β) (parse : β → Except String α) (v : α) :
    Prop :=
  ∃ text, print v = .ok text ∧ parse text = .ok v

/-! ### Round trips -/

namespace Message

/-- 编码为 Bytes. -/
def encodeToBytes (toVec : Json → Except String (List UInt8)) :
    Message → Outcome ProtocolError (List UInt8)
  | request r => encodeRequestToBytes toVec r.path r.contentType r.body
  | response r => encodeResponseToBytes toVec r.state r.contentType r.body

/-- 编码为字符串. -/
def encodeToString (toString : Json → Except String String) :
    Message → Outcome ProtocolError String
  | request r => encodeRequestToString toString r.path r.contentType r.body
  | response r => encodeResponseToString toString r.state r.contentType r.body

/-- What the encoders refuse: a form with a body, and a state that is no status code. -/
def Refused : Message → Prop
  | request r => (r.contentType = .form ∨ r.contentType = .formFlow) ∧ r.body.isSome
  | response r => ¬ (100 ≤ r.state ∧ r.state ≤ 599) ∨
      (r.contentType = .form ∨ r.contentType = .formFlow) ∧ r.body.isSome

/-- A message is refused by its encoder, or it is read back: its kind, its content type, its path or
state, and its body, which may be there or not. -/
def RoundTrips {α : Type} (m : Message) (encoded : Outcome ProtocolError α)
    (decode : α → Outcome ProtocolError Message) : Prop :=
  ((∃ e, encoded = .err e) ↔ m.Refused) ∧
    (¬ m.Refused → ∃ a, encoded = .ok a ∧ decode a = .ok m)

variable {m : Message}

lemma exists_encode_eq_err (h : m.Refused) : ∃ e, m.encode = .err e := by
  rcases m with r | r
  · have hbody : ¬ r.contentType.allowsBody ∧ r.body.isSome :=
      ⟨ContentType.not_allowsBody_iff.mpr h.1, h.2⟩
    exact ⟨.unexpectedBody, if_pos hbody⟩
  · by_cases hstate : 100 ≤ r.state ∧ r.state ≤ 599
    · obtain ⟨hform, hsome⟩ := h.resolve_left (not_not.mpr hstate)
      have hbody : ¬ r.contentType.allowsBody ∧ r.body.isSome :=
        ⟨ContentType.not_allowsBody_iff.mpr hform, hsome⟩
      refine ⟨.unexpectedBody, ?_⟩
      rw [encode, encodeResponse, if_neg (not_not.mpr hstate), if_pos hbody]
    · exact ⟨.invalidStateCode r.state, if_pos hstate⟩

/-- A form whose message is not refused has no body. -/
lemma body_eq_none {t : ContentType} {body : Option Json}
    (h : ¬ ((t = .form ∨ t = .formFlow) ∧ body.isSome)) (hallows : ¬ t.allowsBody) :
    body = none := by
  rw [← Option.not_isSome_iff_eq_none]
  exact fun hsome => h ⟨ContentType.not_allowsBody_iff.mp hallows, hsome⟩

/-- An object with the fields of a message is read as that message. -/
lemma decodes_of_field {w : Json} (hfield : ∀ key, w.get key = m.field key)
    (h : ¬ m.Refused) : Decodes w m := by
  have hobject : ∃ fields, w = .object fields := by
    have hheader : w.get "header_type" = some (.string m.headerType.asStr) := by
      rw [hfield]
      cases m <;> rfl
    cases w with
    | object fields => exact ⟨fields, rfl⟩
    | _ => cases hheader
  rcases m with r | r
  · exact ⟨hobject, hfield _, hfield _, hfield _, hfield _, body_eq_none h⟩
  · obtain ⟨hstate, hbody⟩ := not_or.mp h
    rw [not_not] at hstate
    have hlt : r.state < 2 ^ 16 := by omega
    exact ⟨hobject, hfield _, hfield _,
      ⟨r.state, by omega, hfield _, (asU16_of_lt hlt).symm, hstate⟩, hfield _,
      body_eq_none hbody⟩

lemma exists_encode_eq_ok (h : ¬ m.Refused) : ∃ w, m.encode = .ok w ∧ decodeMessage w = .ok m := by
  obtain ⟨w, hw, hfield⟩ : ∃ w, m.encode = .ok w ∧ ∀ key, w.get key = m.field key := by
    rcases m with r | r
    · exact encodeRequest_eq_ok (body_eq_none h)
    · obtain ⟨hstate, hbody⟩ := not_or.mp h
      exact encodeResponse_eq_ok (not_not.mp hstate) (body_eq_none hbody)
  exact ⟨w, hw, decodeMessage_eq_ok_iff.mpr (decodes_of_field hfield h)⟩

/-- The object of a message is read back. -/
lemma roundTrips_encode (m : Message) : m.RoundTrips m.encode decodeMessage := by
  refine ⟨⟨fun herr => ?_, exists_encode_eq_err⟩, exists_encode_eq_ok⟩
  obtain ⟨e, he⟩ := herr
  by_contra h
  obtain ⟨w, hw, -⟩ := exists_encode_eq_ok h
  simp [he] at hw

/-- A round trip goes on through a printer and the parser that undoes it. -/
lemma RoundTrips.printed {α : Type} {encoded : Outcome ProtocolError Json}
    {print : Json → Except String α} {parse : α → Except String Json}
    (h : m.RoundTrips encoded decodeMessage) (hinv : ∀ w, encoded = .ok w → Inverts print parse w) :
    m.RoundTrips (encoded >>= fun val => orInvalidJson (print val))
      fun text => orInvalidJson (parse text) >>= decodeMessage := by
  by_cases hrefused : m.Refused
  · obtain ⟨e, he⟩ := h.1.mpr hrefused
    rw [he]
    exact ⟨iff_of_true ⟨e, rfl⟩ hrefused, fun hnot => absurd hrefused hnot⟩
  · obtain ⟨w, hw, hdecode⟩ := h.2 hrefused
    obtain ⟨text, hprint, hparse⟩ := hinv w hw
    have htext : (encoded >>= fun val => orInvalidJson (print val)) = .ok text := by
      rw [hw, Outcome.ok_bind, hprint, orInvalidJson]
    have hback : (orInvalidJson (parse text) >>= decodeMessage) = .ok m := by
      rw [hparse, orInvalidJson, Outcome.ok_bind, hdecode]
    rw [htext]
    exact ⟨iff_of_false (by simp) hrefused, fun _ => ⟨text, rfl, hback⟩⟩

end Message

/-- **Messages are read back.**  An encoder refuses a message exactly when it is a form with a body
or a response whose state is no status code; the object of any other message is read back, and so
are its bytes and its text when parsing inverts printing on the object. -/
theorem message_round_trip (toVec : Json → Except String (List UInt8))
    (fromSlice : List UInt8 → Except String Json) (toString : Json → Except String String)
    (fromStr : String → Except String Json) (m : Message) :
    m.RoundTrips m.encode decodeMessage ∧
      ((∀ w, m.encode = .ok w → Inverts toVec fromSlice w) →
        m.RoundTrips (m.encodeToBytes toVec) (decodeFromBytes fromSlice)) ∧
      ((∀ w, m.encode = .ok w → Inverts toString fromStr w) →
        m.RoundTrips (m.encodeToString toString) (decodeFromString fromStr)) := by
  have hvalue := m.roundTrips_encode
  refine ⟨hvalue, fun hbytes => ?_, fun htext => ?_⟩
  · have h := hvalue.printed hbytes
    have hencode : m.encodeToBytes toVec = m.encode >>= fun val => orInvalidJson (toVec val) := by
      cases m with
      | request r => rfl
      | response r => exact encodeResponseToBytes_eq_bind ..
    rwa [hencode, funext (decodeFromBytes_eq_bind fromSlice)]
  · have h := hvalue.printed htext
    have hencode : m.encodeToString toString
        = m.encode >>= fun val => orInvalidJson (toString val) := by
      cases m <;> rfl
    rwa [hencode]

/-- The object of a request for `/echo` whose body is null. -/
def echoObject : Json :=
  .object [("body", .null), ("content_type", .string "json"), ("header_type", .string "request"),
    ("path", .string "/echo")]

def echoText : String :=
  "\x7b\"body\":null,\"content_type\":\"json\",\"header_type\":\"request\",\"path\":\"/echo\"\x7d"

/-- The request is read back from its bytes and from its text, and its null body is there. -/
theorem message_round_trip_echo :
    let m : Message := .request ⟨.json, "/echo", some .null⟩
    m.RoundTrips (m.encodeToBytes fun _ => .ok (utf8Bytes echoText))
        (decodeFromBytes fun _ => .ok echoObject) ∧
      m.RoundTrips (m.encodeToString fun _ => .ok echoText)
        (decodeFromString fun _ => .ok echoObject) := by
  intro m
  have hobject : ∀ w, m.encode = .ok w → w = echoObject := by
    intro w hw
    cases hw
    rfl
  obtain ⟨-, hbytes, htext⟩ := message_round_trip (fun _ => .ok (utf8Bytes echoText))
    (fun _ => .ok echoObject) (fun _ => .ok echoText) (fun _ => .ok echoObject) m
  refine ⟨hbytes fun w hw => ⟨_, rfl, ?_⟩, htext fun w hw => ⟨_, rfl, ?_⟩⟩
  · rw [hobject w hw]
  · rw [hobject w hw]

end Fernq
