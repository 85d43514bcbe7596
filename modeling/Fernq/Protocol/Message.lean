import Mathlib.Tactic
import Fernq.Base.Outcome
import Fernq.Protocol.Error

/-!
JSON messages (`fernq-core/src/protocol/message.rs`).

* `Json`: a JSON value; an object is a list of fields sorted by their keys.
* `insertField`: insertion into an object, replacing the value of a key it has.
* `encodeResponse`, `encodeResponseToBytes`: the response messages the server sends.  The
  serialiser is a parameter.
-/

namespace Fernq

/-- A JSON number. -/
inductive JsonNumber
  | posInt (n : ℕ)
  | negInt (n : ℤ)
  | float (bits : UInt64)
  deriving DecidableEq

/-- A JSON value (`serde_json::Value`). -/
inductive Json
  | null
  | bool (b : Bool)
  | number (n : JsonNumber)
  | string (s : String)
  | array (items : List Json)
  | object (fields : List (String × Json))

/-- `Map::insert`: the fields stay sorted by key, and a value that was there is replaced. -/
def insertField (key : String) (value : Json) : List (String × Json) → List (String × Json)
  | [] => [(key, value)]
  | (k, v) :: rest =>
      if key < k then (key, value) :: (k, v) :: rest
      else if key = k then (key, value) :: rest
      else (k, v) :: insertField key value rest

/-- Header 类型枚举. -/
inductive HeaderType
  | request
  | response
  deriving DecidableEq

def HeaderType.asStr : HeaderType → String
  | request => "request"
  | response => "response"

/-- Content 类型枚举. -/
inductive ContentType
  | json
  | form
  | formFlow
  deriving DecidableEq

namespace ContentType

def asStr : ContentType → String
  | json => "json"
  | form => "form"
  | formFlow => "form_flow"

/-- 是否允许 body 字段（只有 Json 允许，Form/FormFlow 禁止）. -/
def allowsBody : ContentType → Bool
  | json => true
  | _ => false

end ContentType

/-- 编码响应消息. -/
def encodeResponse (state : ℕ) (contentType : ContentType) (body : Option Json) :
    Outcome ProtocolError Json :=
  if ¬ (100 ≤ state ∧ state ≤ 599) then .err (.invalidStateCode state)
  else if ¬ contentType.allowsBody ∧ body.isSome then .err .unexpectedBody
  else
    let map := insertField "header_type" (.string HeaderType.response.asStr) []
    let map := insertField "content_type" (.string contentType.asStr) map
    let map := insertField "state" (.number (.posInt state)) map
    match body with
    | some b => .ok (.object (insertField "body" b map))
    | none => .ok (.object map)

/-- 编码响应为 Bytes; `toVec` is `serde_json::to_vec`. -/
def encodeResponseToBytes (toVec : Json → Except String (List UInt8)) (state : ℕ)
    (contentType : ContentType) (body : Option Json) : Outcome ProtocolError (List UInt8) := do
  let val ← encodeResponse state contentType body
  match toVec val with
  | .ok vec => .ok vec
  | .error e => .err (.invalidJson e)

/-- A response with a text: the object that is serialised. -/
def responseObject (state : ℕ) (body : String) : Json :=
  .object [("body", .string body), ("content_type", .string "json"),
    ("header_type", .string "response"), ("state", .number (.posInt state))]

lemma encodeResponse_string {state : ℕ} (body : String) (hlo : 100 ≤ state) (hhi : state ≤ 599) :
    encodeResponse state .json (some (.string body)) = .ok (responseObject state body) := by
  rw [encodeResponse, if_neg (not_not.mpr ⟨hlo, hhi⟩), if_neg (by simp [ContentType.allowsBody])]
  rfl

end Fernq
