import Mathlib.Tactic
import Fernq.Protocol.Encoder
import Fernq.Protocol.Message

/-!
Requests and responses as JSON objects (`fernq-core/src/protocol/message.rs`).

* `Message`: a request with its path, or a response with its state.
* `encodeRequest`, `Message.encode`: the object of a message.
* `decodeMessage`, `decodeFromBytes`: the message of an object.
* `decodeMessage_eq_ok_iff`: what an accepted object looks like.
* `decodeMessage_responseObject`: the responses of the server are read back.
* `decodeMessage_faithful_iff`: which accepted objects are reported as they are.
-/

namespace Fernq

/-! ### Fields of an object -/

/-- The value of a field (`Map::get`). -/
def Json.get (v : Json) (key : String) : Option Json :=
  match v with
  | .object fields => fields.lookup key
  | _ => none

def Json.asStr : Json → Option String
  | .string s => some s
  | _ => none

/-- `as_u64`: integers of 64 bits that are not negative, and no floats. -/
def Json.asU64 : Json → Option ℕ
  | .number (.posInt n) => if n < 2 ^ 64 then some n else none
  | _ => none

lemma lookup_field_cons (k key : String) (value : Json) (fields : List (String × Json)) :
    ((key, value) :: fields).lookup k = if k = key then some value else fields.lookup k := by
  rw [List.lookup_cons]
  by_cases h : k = key
  · rw [if_pos h, beq_iff_eq.mpr h]
  · rw [if_neg h, beq_eq_false_iff_ne.mpr h]

/-- A field that was inserted is found, and the others are as they were. -/
lemma lookup_insertField (k key : String) (value : Json) (fields : List (String × Json)) :
    (insertField key value fields).lookup k = if k = key then some value else fields.lookup k := by
  induction fields with
  | nil => exact lookup_field_cons k key value []
  | cons field rest ih =>
      obtain ⟨k', v'⟩ := field
      rw [insertField]
      by_cases hlt : key < k'
      · rw [if_pos hlt, lookup_field_cons]
      · rw [if_neg hlt]
        by_cases heq : key = k'
        · rw [if_pos heq, lookup_field_cons, lookup_field_cons, ← heq]
          split_ifs <;> rfl
        · rw [if_neg heq, lookup_field_cons, lookup_field_cons, ih]
          split_ifs with h1 h2
          · exact absurd (h2.symm.trans h1) heq
          all_goals rfl

lemma get_object_insertField (k key : String) (value : Json) (fields : List (String × Json)) :
    (Json.object (insertField key value fields)).get k
      = if k = key then some value else (Json.object fields).get k :=
  lookup_insertField k key value fields

/-! ### Messages -/

/-- 请求消息. -/
structure RequestMessage where
  contentType : ContentType
  path : String
  body : Option Json

/-- 响应消息. -/
structure ResponseMessage where
  contentType : ContentType
  state : ℕ
  body : Option Json

/-- 解码后的消息结构. -/
inductive Message
  | request (r : RequestMessage)
  | response (r : ResponseMessage)

def HeaderType.fromStr (s : String) : Outcome ProtocolError HeaderType :=
  if s = "request" then .ok .request
  else if s = "response" then .ok .response
  else .err (.invalidHeaderType s)

def ContentType.fromStr (s : String) : Outcome ProtocolError ContentType :=
  if s = "json" then .ok .json
  else if s = "form" then .ok .form
  else if s = "form_flow" then .ok .formFlow
  else .err (.invalidContentType s)

/-- 编码请求消息. -/
def encodeRequest (path : String) (contentType : ContentType) (body : Option Json) :
    Outcome ProtocolError Json :=
  if ¬ contentType.allowsBody ∧ body.isSome then .err .unexpectedBody
  else
    let map := insertField "header_type" (.string HeaderType.request.asStr) []
    let map := insertField "content_type" (.string contentType.asStr) map
    let map := insertField "path" (.string path) map
    match body with
    | some b => .ok (.object (insertField "body" b map))
    | none => .ok (.object map)

/-- 内部：解码请求. -/
def decodeRequest (obj : Json) (contentType : ContentType) : Outcome ProtocolError Message := do
  let path ← Outcome.okOr ((obj.get "path").bind Json.asStr) .missingPath
  let body := obj.get "body"
  if ¬ contentType.allowsBody ∧ body.isSome then .err .unexpectedBody
  else return .request ⟨contentType, path, body⟩

/-- 内部：解码响应.  The state is cut to 16 bits before it is checked. -/
def decodeResponse (obj : Json) (contentType : ContentType) : Outcome ProtocolError Message := do
  let state ← Outcome.okOr ((obj.get "state").bind Json.asU64) .missingState
  let state := asU16 state
  if ¬ (100 ≤ state ∧ state ≤ 599) then .err (.invalidStateCode state)
  else
    let body := obj.get "body"
    if ¬ contentType.allowsBody ∧ body.isSome then .err .unexpectedBody
    else return .response ⟨contentType, state, body⟩

/-- 统一解码. -/
def decodeMessage (value : Json) : Outcome ProtocolError Message :=
  match value with
  | .object fields => do
      let obj := Json.object fields
      let headerTypeStr ← Outcome.okOr ((obj.get "header_type").bind Json.asStr)
        (.malformedFrame "missing or invalid header_type")
      let headerType ← HeaderType.fromStr headerTypeStr
      let contentTypeStr ← Outcome.okOr ((obj.get "content_type").bind Json.asStr)
        (.malformedFrame "missing or invalid content_type")
      let contentType ← ContentType.fromStr contentTypeStr
      match headerType with
      | .request => decodeRequest obj contentType
      | .response => decodeResponse obj contentType
  | _ => .err (.malformedFrame "root must be a JSON object")

/-- 从 &[u8] 解码; `fromSlice` parses a JSON text. -/
def decodeFromBytes (fromSlice : List UInt8 → Except String Json) (data : List UInt8) :
    Outcome ProtocolError Message :=
  match fromSlice data with
  | .ok val => decodeMessage val
  | .error e => .err (.invalidJson e)

namespace Message

def headerType : Message → HeaderType
  | request _ => .request
  | response _ => .response

def contentType : Message → ContentType
  | request r => r.contentType
  | response r => r.contentType

def body : Message → Option Json
  | request r => r.body
  | response r => r.body

/-- The fields of a message encoded again. -/
def encode : Message → Outcome ProtocolError Json
  | request r => encodeRequest r.path r.contentType r.body
  | response r => encodeResponse r.state r.contentType r.body

/-- The key of the field that only one kind of message has. -/
def ownKey : Message → String
  | request _ => "path"
  | response _ => "state"

/-- The keys a message is read from. -/
def keys (m : Message) : List String := ["header_type", "content_type", m.ownKey, "body"]

/-- A message's own field, as it is written. -/
def ownField : Message → Json
  | request r => .string r.path
  | response r => .number (.posInt r.state)

end Message

lemma HeaderType.fromStr_eq_ok_iff {s : String} {t : HeaderType} :
    HeaderType.fromStr s = .ok t ↔ s = t.asStr := by
  unfold HeaderType.fromStr
  split_ifs with h1 h2
  · subst h1
    cases t <;> simp [HeaderType.asStr]
  · subst h2
    cases t <;> simp [HeaderType.asStr]
  · cases t <;> simp [HeaderType.asStr, h1, h2]

lemma ContentType.fromStr_eq_ok_iff {s : String} {t : ContentType} :
    ContentType.fromStr s = .ok t ↔ s = t.asStr := by
  unfold ContentType.fromStr
  split_ifs with h1 h2 h3
  · subst h1
    cases t <;> simp [ContentType.asStr]
  · subst h2
    cases t <;> simp [ContentType.asStr]
  · subst h3
    cases t <;> simp [ContentType.asStr]
  · cases t <;> simp [ContentType.asStr, h1, h2, h3]

lemma asStr_eq_some_iff {v : Json} {s : String} : v.asStr = some s ↔ v = .string s := by
  cases v <;> simp [Json.asStr]

lemma bind_asStr_eq_some_iff {v : Option Json} {s : String} :
    v.bind Json.asStr = some s ↔ v = some (.string s) := by
  cases v <;> simp [asStr_eq_some_iff]

lemma bind_asU64_eq_some_iff {v : Option Json} {n : ℕ} :
    v.bind Json.asU64 = some n ↔ v = some (.number (.posInt n)) ∧ n < 2 ^ 64 := by
  unfold Json.asU64
  constructor
  · intro h
    obtain ⟨w, rfl, hw⟩ := Option.bind_eq_some_iff.mp h
    split at hw
    · split_ifs at hw with hlt
      obtain rfl := Option.some.inj hw
      exact ⟨rfl, hlt⟩
    · cases hw
  · rintro ⟨rfl, hlt⟩
    exact if_pos hlt

/-! ### What is accepted -/

section Decode

variable {v : Json} {m : Message} {contentType : ContentType}

/-- The check that both decoders make of the body. -/
lemma checkBody_eq_ok_iff {message : Message} :
    (if ¬ contentType.allowsBody ∧ (v.get "body").isSome then
        (.err .unexpectedBody : Outcome ProtocolError Message)
      else return message) = .ok m ↔
      (¬ contentType.allowsBody → v.get "body" = none) ∧ m = message := by
  split_ifs with hbody
  · simp only [false_iff, not_and]
    intro h
    simp [h hbody.1] at hbody
  · rw [Outcome.pure_eq, Outcome.ok.injEq, eq_comm]
    refine (and_iff_right ?_).symm
    intro hallows
    simpa [hallows] using hbody

lemma decodeRequest_eq_ok_iff :
    decodeRequest v contentType = .ok m ↔ ∃ path, v.get "path" = some (.string path) ∧
      (¬ contentType.allowsBody → v.get "body" = none) ∧
      m = .request ⟨contentType, path, v.get "body"⟩ := by
  simp only [decodeRequest, Outcome.bind_eq_ok, Outcome.okOr_eq_ok_iff, bind_asStr_eq_some_iff]
  exact exists_congr fun path => and_congr_right fun _ => checkBody_eq_ok_iff

lemma decodeResponse_eq_ok_iff :
    decodeResponse v contentType = .ok m ↔ ∃ n, (v.get "state" = some (.number (.posInt n)) ∧
      n < 2 ^ 64) ∧ (100 ≤ asU16 n ∧ asU16 n ≤ 599) ∧
      (¬ contentType.allowsBody → v.get "body" = none) ∧
      m = .response ⟨contentType, asU16 n, v.get "body"⟩ := by
  simp only [decodeResponse, Outcome.bind_eq_ok, Outcome.okOr_eq_ok_iff, bind_asU64_eq_some_iff]
  refine exists_congr fun n => and_congr_right fun _ => ?_
  by_cases hstate : 100 ≤ asU16 n ∧ asU16 n ≤ 599
  · rw [if_neg (not_not.mpr hstate), and_iff_right hstate]
    exact checkBody_eq_ok_iff
  · rw [if_pos hstate]
    simp [hstate]

/-- The field that only one kind of message has, as `decode_message` reads it. -/
def OwnFieldRead (v : Json) : Message → Prop
  | .request r => v.get "path" = some (.string r.path)
  | .response r => ∃ n < 2 ^ 64, v.get "state" = some (.number (.posInt n)) ∧ r.state = asU16 n ∧
      100 ≤ r.state ∧ r.state ≤ 599

/-- What `decode_message` accepts: the fields it looks at, and the message it makes of them. -/
structure Decodes (v : Json) (m : Message) : Prop where
  object : ∃ fields, v = .object fields
  headerType : v.get "header_type" = some (.string m.headerType.asStr)
  contentType : v.get "content_type" = some (.string m.contentType.asStr)
  ownField : OwnFieldRead v m
  body : v.get "body" = m.body
  no_body : ¬ m.contentType.allowsBody → m.body = none

theorem decodeMessage_eq_ok_iff : decodeMessage v = .ok m ↔ Decodes v m := by
  constructor
  · intro h
    unfold decodeMessage at h
    split at h
    · rename_i fields
      simp only [Outcome.bind_eq_ok, Outcome.okOr_eq_ok_iff, bind_asStr_eq_some_iff,
        HeaderType.fromStr_eq_ok_iff, ContentType.fromStr_eq_ok_iff] at h
      obtain ⟨_, hheader, headerType, rfl, _, hcontent, contentType, rfl, h⟩ := h
      cases headerType with
      | request =>
          obtain ⟨path, hpath, hbody, rfl⟩ := decodeRequest_eq_ok_iff.mp h
          exact ⟨⟨fields, rfl⟩, hheader, hcontent, hpath, rfl, hbody⟩
      | response =>
          obtain ⟨n, ⟨hn, hlt⟩, hstate, hbody, rfl⟩ := decodeResponse_eq_ok_iff.mp h
          exact ⟨⟨fields, rfl⟩, hheader, hcontent, ⟨n, hlt, hn, rfl, hstate⟩, rfl, hbody⟩
    · cases h
  · rintro ⟨⟨fields, rfl⟩, hheader, hcontent, hown, hbody, hno⟩
    have hread : decodeMessage (.object fields) = (match m.headerType with
        | .request => decodeRequest (.object fields) m.contentType
        | .response => decodeResponse (.object fields) m.contentType) := by
      rw [decodeMessage, hheader, hcontent]
      simp only [Option.bind_some, Json.asStr, Outcome.okOr_some, Outcome.ok_bind,
        HeaderType.fromStr_eq_ok_iff.mpr rfl, ContentType.fromStr_eq_ok_iff.mpr rfl]
    rw [hread]
    rcases m with ⟨ct, path, body⟩ | ⟨ct, state, body⟩
    · refine decodeRequest_eq_ok_iff.mpr ⟨path, hown, ?_, ?_⟩
      · rw [hbody]
        exact hno
      · rw [hbody]
        rfl
    · obtain ⟨n, hlt, hn, rfl, hstate⟩ := hown
      refine decodeResponse_eq_ok_iff.mpr ⟨n, ⟨hn, hlt⟩, hstate, ?_, ?_⟩
      · rw [hbody]
        exact hno
      · rw [hbody]
        rfl

end Decode

/-! ### What is reported -/

section Report

variable {v w : Json} {m : Message}

/-- The fields of a message, as its encoder writes them. -/
def Message.field (m : Message) (key : String) : Option Json :=
  if key = "body" then m.body
  else if key = m.ownKey then some m.ownField
  else if key = "content_type" then some (.string m.contentType.asStr)
  else if key = "header_type" then some (.string m.headerType.asStr)
  else none

/-- A message report is faithful: the object has the header type, the content type, the path or the
state, and the body that the message says. -/
structure Reports (v : Json) (m : Message) : Prop where
  object : ∃ fields, v = .object fields
  headerType : v.get "header_type" = some (.string m.headerType.asStr)
  contentType : v.get "content_type" = some (.string m.contentType.asStr)
  path : ∀ r, m = .request r → v.get "path" = some (.string r.path)
  state : ∀ r, m = .response r → v.get "state" = some (.number (.posInt r.state)) ∧
    100 ≤ r.state ∧ r.state ≤ 599
  body : v.get "body" = m.body
  no_body : m.contentType = .form ∨ m.contentType = .formFlow → m.body = none

/-- Encoding a message again gives the object back, restricted to the keys of the message. -/
def Reencodes (v : Json) (m : Message) : Prop :=
  ∃ w, m.encode = .ok w ∧ ∀ key, w.get key = if key ∈ m.keys then v.get key else none

/-- The state of a response fits 16 bits. -/
def StateFits (v : Json) : Prop :=
  v.get "header_type" = some (.string "response") →
    ∀ n, v.get "state" = some (.number (.posInt n)) → n < 2 ^ 16

lemma ContentType.not_allowsBody_iff {t : ContentType} :
    ¬ t.allowsBody ↔ t = .form ∨ t = .formFlow := by
  cases t <;> simp [ContentType.allowsBody]

lemma get_object_nil (key : String) : (Json.object []).get key = none := rfl

lemma not_unexpectedBody {t : ContentType} {body : Option Json}
    (h : ¬ t.allowsBody → body = none) : ¬ (¬ t.allowsBody ∧ body.isSome) := by
  rintro ⟨hno, hsome⟩
  simp [h hno] at hsome

/-- Both encoders write the body last, over the fields that every message has. -/
lemma exists_writeBody {map : List (String × Json)} (hnone : (Json.object map).get "body" = none)
    (hmap : ∀ key, key ≠ "body" → (Json.object map).get key = m.field key) :
    ∃ w, (match m.body with
      | some b => (.ok (.object (insertField "body" b map)) : Outcome ProtocolError Json)
      | none => .ok (.object map)) = .ok w ∧ ∀ key, w.get key = m.field key := by
  cases hbody : m.body with
  | none =>
      refine ⟨_, rfl, fun key => ?_⟩
      rcases eq_or_ne key "body" with rfl | hkey
      · rw [hnone, Message.field, if_pos rfl, hbody]
      · exact hmap key hkey
  | some b =>
      refine ⟨_, rfl, fun key => ?_⟩
      rw [get_object_insertField]
      rcases eq_or_ne key "body" with rfl | hkey
      · rw [if_pos rfl, Message.field, if_pos rfl, hbody]
      · rw [if_neg hkey]
        exact hmap key hkey

/-- What `encode_request` writes. -/
lemma encodeRequest_eq_ok {r : RequestMessage}
    (h : ¬ r.contentType.allowsBody → r.body = none) :
    ∃ w, encodeRequest r.path r.contentType r.body = .ok w ∧
      ∀ key, w.get key = (Message.request r).field key := by
  rw [encodeRequest, if_neg (not_unexpectedBody h)]
  refine exists_writeBody (m := .request r) rfl fun key hkey => ?_
  simp only [get_object_insertField, get_object_nil]
  rw [Message.field, if_neg hkey]
  rfl

/-- What `encode_response` writes. -/
lemma encodeResponse_eq_ok {r : ResponseMessage} (hstate : 100 ≤ r.state ∧ r.state ≤ 599)
    (h : ¬ r.contentType.allowsBody → r.body = none) :
    ∃ w, encodeResponse r.state r.contentType r.body = .ok w ∧
      ∀ key, w.get key = (Message.response r).field key := by
  rw [encodeResponse, if_neg (not_not.mpr hstate), if_neg (not_unexpectedBody h)]
  refine exists_writeBody (m := .response r) rfl fun key hkey => ?_
  simp only [get_object_insertField, get_object_nil]
  rw [Message.field, if_neg hkey]
  rfl

lemma Message.field_ownKey (m : Message) : m.field m.ownKey = some m.ownField := by
  cases m <;> rfl

namespace Decodes

/-- The path is reported as it is, and the state when it fits 16 bits. -/
lemma ownField_iff (h : Decodes v m) : v.get m.ownKey = some m.ownField ↔ StateFits v := by
  have hheader := h.headerType
  have hown := h.ownField
  cases m with
  | request r =>
      refine iff_of_true hown fun hresponse => ?_
      rw [hheader] at hresponse
      simp [Message.headerType, HeaderType.asStr] at hresponse
  | response r =>
      obtain ⟨n, -, hn, hr, -⟩ := hown
      have hfits : StateFits v ↔ n < 2 ^ 16 := by
        constructor
        · intro hfit
          exact hfit hheader n hn
        · intro hlt _ n' hn'
          obtain rfl : n = n' := by simpa [hn] using hn'
          exact hlt
      rw [hfits]
      change v.get "state" = some (.number (.posInt r.state)) ↔ _
      rw [hn, hr, asU16]
      constructor
      · intro heq
        have hmod : n = n % 2 ^ 16 := by simpa using heq
        rw [hmod]
        exact Nat.mod_lt _ (by decide)
      · intro hlt
        rw [Nat.mod_eq_of_lt hlt]

/-- Up to the path or the state, the fields of a message are those of the object it was read
from. -/
lemma field_eq (h : Decodes v m) {key : String} (hkey : key ≠ m.ownKey) :
    m.field key = if key ∈ m.keys then v.get key else none := by
  rw [Message.field, if_neg hkey]
  by_cases hbody : key = "body"
  · subst hbody
    rw [if_pos rfl, if_pos (by simp [Message.keys]), h.body]
  by_cases hcontent : key = "content_type"
  · subst hcontent
    rw [if_neg hbody, if_pos rfl, if_pos (by simp [Message.keys]), h.contentType]
  by_cases hheader : key = "header_type"
  · subst hheader
    rw [if_neg hbody, if_neg hcontent, if_pos rfl, if_pos (by simp [Message.keys]), h.headerType]
  · rw [if_neg hbody, if_neg hcontent, if_neg hheader, if_neg]
    simp [Message.keys, hkey, hbody, hcontent, hheader]

lemma reports_iff (h : Decodes v m) : Reports v m ↔ v.get m.ownKey = some m.ownField := by
  constructor
  · intro hr
    cases m with
    | request r => exact hr.path r rfl
    | response r => exact (hr.state r rfl).1
  · intro hown
    refine ⟨h.object, h.headerType, h.contentType, ?_, ?_, h.body, fun hform =>
      h.no_body (ContentType.not_allowsBody_iff.mpr hform)⟩
    · rintro r rfl
      exact hown
    · rintro r rfl
      obtain ⟨-, -, -, -, hstate⟩ := h.ownField
      exact ⟨hown, hstate⟩

lemma encode_eq_ok (h : Decodes v m) : ∃ w, m.encode = .ok w ∧ ∀ key, w.get key = m.field key := by
  cases m with
  | request r => exact encodeRequest_eq_ok h.no_body
  | response r =>
      obtain ⟨-, -, -, -, hstate⟩ := h.ownField
      exact encodeResponse_eq_ok hstate h.no_body

lemma reencodes_iff (h : Decodes v m) : Reencodes v m ↔ v.get m.ownKey = some m.ownField := by
  obtain ⟨w, hw, hfield⟩ := h.encode_eq_ok
  have hmem : m.ownKey ∈ m.keys := by simp [Message.keys]
  constructor
  · rintro ⟨w', hw', hkeys⟩
    obtain rfl : w = w' := by simpa [hw] using hw'
    rw [← m.field_ownKey, ← hfield, hkeys, if_pos hmem]
  · intro hown
    refine ⟨w, hw, fun key => ?_⟩
    rw [hfield]
    by_cases hkey : key = m.ownKey
    · rw [hkey, m.field_ownKey, if_pos hmem, hown]
    · exact h.field_eq hkey

end Decodes

/-- **Faithful reports.**  A message that is accepted says what the object says, and encoding it
again gives the object back, exactly when the state of a response fits 16 bits. -/
theorem decodeMessage_faithful_iff (v : Json) (m : Message) (h : decodeMessage v = .ok m) :
    (Reports v m ↔ StateFits v) ∧ (Reencodes v m ↔ StateFits v) := by
  have hd := decodeMessage_eq_ok_iff.mp h
  rw [hd.reports_iff, hd.reencodes_iff]
  exact ⟨hd.ownField_iff, hd.ownField_iff⟩

/-- A response whose state is `n`. -/
def responseWithState (n : ℕ) : Json :=
  .object [("content_type", .string "json"), ("header_type", .string "response"),
    ("state", .number (.posInt n))]

/-- A response with the state 200. -/
theorem decodeMessage_faithful_ok :
    (Reports (responseWithState 200) (.response ⟨.json, 200, none⟩)
        ↔ StateFits (responseWithState 200)) ∧
      (Reencodes (responseWithState 200) (.response ⟨.json, 200, none⟩)
        ↔ StateFits (responseWithState 200)) :=
  decodeMessage_faithful_iff _ _ rfl

/-- A response with the state 65736 is accepted, and its state is said to be 200. -/
theorem decodeMessage_wraps :
    decodeMessage (responseWithState 65736) = .ok (.response ⟨.json, 200, none⟩) ∧
      ¬ Reports (responseWithState 65736) (.response ⟨.json, 200, none⟩) ∧
      ¬ Reencodes (responseWithState 65736) (.response ⟨.json, 200, none⟩) := by
  have hdecode : decodeMessage (responseWithState 65736) = .ok (.response ⟨.json, 200, none⟩) := rfl
  have hd := decodeMessage_eq_ok_iff.mp hdecode
  have hstate : (responseWithState 65736).get "state" = some (.number (.posInt 65736)) := rfl
  have hne : ¬ (responseWithState 65736).get "state" = some (.number (.posInt 200)) := by
    rw [hstate]
    simp
  exact ⟨hdecode, fun h => hne (hd.reports_iff.mp h), fun h => hne (hd.reencodes_iff.mp h)⟩

/-- A response the server makes is read back. -/
theorem decodeMessage_responseObject {state : ℕ} (body : String) (hlo : 100 ≤ state)
    (hhi : state ≤ 599) :
    decodeMessage (responseObject state body)
      = .ok (.response ⟨.json, state, some (.string body)⟩) := by
  have hlt : state < 2 ^ 16 := by omega
  rw [decodeMessage_eq_ok_iff]
  refine ⟨⟨_, rfl⟩, rfl, rfl, ⟨state, by omega, rfl, (asU16_of_lt hlt).symm, hlo, hhi⟩, rfl, ?_⟩
  intro hno
  exact absurd rfl hno

end Report

end Fernq
