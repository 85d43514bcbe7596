import Mathlib.Tactic
import Fernq.Protocol.MessageRoundTrip
import Fernq.Server.Control

/-!
The way of a control request from the command line to the node (`fernqctl/src/main.rs`,
`fernqd/src/main.rs`): the request is printed, written to a socket whose writing side is then shut
down, and read once into a buffer of 4096 bytes.

* `Commands.request`: the requests of the command line.
* `Request.fields`, `Request.ofFields`: a request as the fields of an object, and back.
* `Delivery`: the pieces in which a text arrives; `Delivery.firstRead`.
* `controlTask`, `NodeRooms.serveControl`: what the node makes of its one read.
* `control_request_arrives_iff`: which requests arrive.
-/

namespace Fernq

/-! ### The command line -/

inductive Commands
  /-- 添加新房间 -/
  | add (name password : String)
  /-- 删除房间 (通过 UUID) -/
  | remove (id : String)
  /-- 列出所有房间 -/
  | list
  /-- 获取服务器监听地址 -/
  | address
  /-- 卸载 FernQ -/
  | uninstall
  deriving DecidableEq

/-- 构建请求: an id must pass `Uuid::parse_str`, and `uninstall` sends no request. -/
def Commands.request (parseStr : String → Except String Uuid) :
    Commands → Except String (Option Request)
  | add name password => .ok (some ⟨"add", some name, some password, none⟩)
  | remove id =>
      match parseStr id with
      | .error _ => .error s!"Invalid UUID format: {id}"
      | .ok _ => .ok (some ⟨"remove", none, none, some id⟩)
  | list => .ok (some ⟨"list", none, none, none⟩)
  | address => .ok (some ⟨"address", none, none, none⟩)
  | uninstall => .ok none

/-! ### The fields of a request -/

/-- A field that is left out when it is none (`skip_serializing_if`). -/
def optionField (key : String) (value : Option String) : List (String × Json) :=
  value.toList.map fun s => (key, .string s)

/-- The fields that `fernqctl` writes, in the order of the struct. -/
def Request.fields (req : Request) : List (String × Json) :=
  ("cmd", .string req.cmd) :: (optionField "room_name" req.roomName ++
    (optionField "password" req.password ++ optionField "room_id" req.roomId))

/-- What the visitor of `fernqd` has seen of a request. -/
structure RequestVisitor where
  cmd : Option String
  roomName : Option (Option String)
  password : Option (Option String)
  roomId : Option (Option String)
  deriving DecidableEq

/-- The value of an optional field. -/
def Json.asOptionStr : Json → Option (Option String)
  | .null => some none
  | .string s => some (some s)
  | _ => none

/-- A value that is taken once: a field that is there twice is an error. -/
def visitOnce {α : Type} (seen value : Option α) : Option (Option α) :=
  match seen, value with
  | none, some v => some (some v)
  | _, _ => none

/-- One field; fields of other names are ignored. -/
def RequestVisitor.visit (seen : RequestVisitor) (field : String × Json) :
    Option RequestVisitor :=
  if field.1 = "cmd" then
    (visitOnce seen.cmd field.2.asStr).map fun v => { seen with cmd := v }
  else if field.1 = "room_name" then
    (visitOnce seen.roomName field.2.asOptionStr).map fun v => { seen with roomName := v }
  else if field.1 = "password" then
    (visitOnce seen.password field.2.asOptionStr).map fun v => { seen with password := v }
  else if field.1 = "room_id" then
    (visitOnce seen.roomId field.2.asOptionStr).map fun v => { seen with roomId := v }
  else some seen

/-- `cmd` must be there, and the other fields are none by default. -/
def RequestVisitor.finish (seen : RequestVisitor) : Option Request :=
  seen.cmd.map fun cmd => ⟨cmd, seen.roomName.join, seen.password.join, seen.roomId.join⟩

/-- The request of the fields of an object. -/
def Request.ofFields (fields : List (String × Json)) : Option Request :=
  (fields.foldlM RequestVisitor.visit ⟨none, none, none, none⟩).bind RequestVisitor.finish

/-- The fields of a request are read back, and those that were left out are none. -/
lemma ofFields_fields (req : Request) : Request.ofFields req.fields = some req := by
  obtain ⟨cmd, roomName, password, roomId⟩ := req
  cases roomName <;> cases password <;> cases roomId <;> rfl

/-! ### The socket -/

/-- How a text arrives: in pieces none of which is empty. -/
structure Delivery (text : List UInt8) where
  pieces : List (List UInt8)
  ne_nil : ∀ piece ∈ pieces, piece ≠ []
  flatten_eq : pieces.flatten = text

/-- A read of at most `n` bytes once the first piece is there, or once the writing side is shut
down. -/
def Delivery.firstRead {text : List UInt8} (d : Delivery text) (n : ℕ) : List UInt8 :=
  (d.pieces.head?.getD []).take n

/-- A text that arrives in one piece. -/
def Delivery.whole (text : List UInt8) (htext : text ≠ []) : Delivery text where
  pieces := [text]
  ne_nil := by simpa using htext
  flatten_eq := List.flatten_singleton

section Delivery

variable {text : List UInt8} {n : ℕ}

lemma Delivery.firstRead_prefix (d : Delivery text) (n : ℕ) : d.firstRead n <+: text := by
  have hhead : d.pieces.head?.getD [] <+: d.pieces.flatten := by
    cases d.pieces with
    | nil => exact List.nil_prefix
    | cons piece pieces => exact List.prefix_append piece pieces.flatten
  rw [d.flatten_eq] at hhead
  exact (List.take_prefix n _).trans hhead

/-- The beginning of the first piece is everything when there is one piece and it has room. -/
lemma take_head_eq_flatten_iff {pieces : List (List UInt8)} (hne : ∀ piece ∈ pieces, piece ≠ [])
    (hflat : pieces.flatten ≠ []) :
    (pieces.head?.getD []).take n = pieces.flatten ↔
      pieces.flatten.length ≤ n ∧ pieces = [pieces.flatten] := by
  cases pieces with
  | nil => exact absurd rfl hflat
  | cons piece pieces =>
      rw [List.flatten_cons, List.head?_cons, Option.getD_some]
      refine ⟨fun heq => ?_, fun h => ?_⟩
      · have hlen := congrArg List.length heq
        rw [List.length_take, List.length_append] at hlen
        have hnil : pieces.flatten = [] := List.length_eq_zero_iff.mp (by omega)
        have hpieces : pieces = [] := by
          rw [List.eq_nil_iff_forall_not_mem]
          intro q hq
          exact hne q (List.mem_cons_of_mem _ hq) (List.flatten_eq_nil_iff.mp hnil q hq)
        rw [hnil, List.append_nil, hpieces]
        rw [hnil, List.length_nil] at hlen
        exact ⟨by omega, rfl⟩
      · obtain ⟨hlen, hpieces⟩ := h
        obtain ⟨-, rfl⟩ := List.cons.inj hpieces
        rw [List.flatten_nil, List.append_nil] at hlen ⊢
        exact List.take_of_length_le hlen

/-- The first read is the whole text when the text arrives in one piece and has room. -/
lemma Delivery.firstRead_eq_iff (d : Delivery text) (htext : text ≠ []) :
    d.firstRead n = text ↔ text.length ≤ n ∧ d.pieces = [text] := by
  have hiff := take_head_eq_flatten_iff (n := n) d.ne_nil (by rwa [d.flatten_eq])
  rwa [d.flatten_eq] at hiff

end Delivery

/-! ### The node -/

/-- `serde_json` at both ends of the socket: the text of an object with given fields, the fields of
the text of an object, and the text of the error for fields that are no request. -/
structure ControlSerde where
  toVec : List (String × Json) → Except String (List UInt8)
  fromSlice : List UInt8 → Except String (List (String × Json))
  invalid : List UInt8 → String

/-- `serde_json::from_slice` for a request. -/
def ControlSerde.request (serde : ControlSerde) (buf : List UInt8) : Except String Request :=
  match serde.fromSlice buf with
  | .error e => .error e
  | .ok fields =>
      match Request.ofFields fields with
      | some req => .ok req
      | none => .error (serde.invalid buf)

/-- `vec![0u8; 4096]`. -/
def controlBufferLen : ℕ := 4096

/-- What the node makes of its read: a request to handle, an answer, or nothing (连接关闭, or the
read failed). -/
inductive ControlTask
  | handle (req : Request)
  | refuse (resp : Response)
  | nothing

def controlTask (serde : ControlSerde) (read : Except IoError (List UInt8)) : ControlTask :=
  match read with
  | .ok buf =>
      if buf.length > 0 then
        match serde.request buf with
        | .ok req => .handle req
        | .error e => .refuse (.failed s!"Invalid JSON: {e}")
      else .nothing
  | .error _ => .nothing

/-- The answer that is written to the socket, and the node after it. -/
def NodeRooms.serveControl {ρ : Type} [DecidableEq ρ] (parseStr : String → Except String Uuid)
    (s : NodeRooms ρ) (faults : RequestFaults) (id : Uuid) (room : ρ) (addr : String) :
    ControlTask → Option Response × NodeRooms ρ
  | .handle req =>
      let (resp, s') := s.handleRequest parseStr faults id room addr req
      (some resp, s')
  | .refuse resp => (some resp, s)
  | .nothing => (none, s)

/-- What `fernqctl` writes for a command: the text of its request. -/
structure Sends (parseStr : String → Except String Uuid) (serde : ControlSerde)
    (command : Commands) (req : Request) (text : List UInt8) : Prop where
  request : command.request parseStr = .ok (some req)
  text : serde.toVec req.fields = .ok text

/-- The request is passed to `handle_request` with the fields it was sent with. -/
def Arrives (serde : ControlSerde) {text : List UInt8} (d : Delivery text) (req : Request) : Prop :=
  ∃ req', controlTask serde (.ok (d.firstRead controlBufferLen)) = .handle req' ∧
    req'.cmd = req.cmd ∧ req'.roomName = req.roomName ∧ req'.password = req.password ∧
    req'.roomId = req.roomId

/-- No part of a text that stops before its end is the text of an object. -/
def RefusesParts (serde : ControlSerde) (text : List UInt8) : Prop :=
  ∀ part, part <+: text → part ≠ text → ∀ fields, serde.fromSlice part ≠ .ok fields

section Arrives

variable {serde : ControlSerde} {req : Request} {text : List UInt8}

/-- A request whose text is read whole is handled. -/
lemma controlTask_text (hne : text ≠ []) (hparse : serde.fromSlice text = .ok req.fields) :
    controlTask serde (.ok text) = .handle req := by
  have hpos : text.length > 0 := List.length_pos_iff.mpr hne
  have hreq : serde.request text = .ok req := by
    rw [ControlSerde.request, hparse]
    dsimp only
    rw [ofFields_fields]
  rw [controlTask, if_pos hpos, hreq]

/-- A part of a text is not handled. -/
lemma controlTask_part (hparts : RefusesParts serde text) {part : List UInt8}
    (hpart : part <+: text) (hne : part ≠ text) (req' : Request) :
    controlTask serde (.ok part) ≠ .handle req' := by
  have hrefused : ∃ e, serde.request part = .error e := by
    rw [ControlSerde.request]
    cases hfields : serde.fromSlice part with
    | error e => exact ⟨e, rfl⟩
    | ok fields => exact absurd hfields (hparts part hpart hne fields)
  obtain ⟨e, he⟩ := hrefused
  rw [controlTask]
  split_ifs
  · rw [he]
    simp
  · simp

/-- A request that is cut changes nothing. -/
theorem serveControl_part {ρ : Type} [DecidableEq ρ] {parseStr : String → Except String Uuid}
    {s : NodeRooms ρ} {faults : RequestFaults} {id : Uuid} {room : ρ} {addr : String}
    (hparts : RefusesParts serde text) {part : List UInt8} (hpart : part <+: text)
    (hne : part ≠ text) :
    (s.serveControl parseStr faults id room addr (controlTask serde (.ok part))).2 = s := by
  cases htask : controlTask serde (.ok part) with
  | handle req' => exact absurd htask (controlTask_part hparts hpart hne req')
  | refuse resp => rfl
  | nothing => rfl

end Arrives

/-- **Which requests arrive.**  A request of the command line is handled with the fields it was sent
with exactly when its text has at most 4096 bytes and has arrived in one piece. -/
theorem control_request_arrives_iff (parseStr : String → Except String Uuid) (serde : ControlSerde)
    (command : Commands) (req : Request) (text : List UInt8) (d : Delivery text)
    (hsends : Sends parseStr serde command req text)
    (hinv : Inverts serde.toVec serde.fromSlice req.fields)
    (hempty : ∀ fields, serde.fromSlice [] ≠ .ok fields) (hparts : RefusesParts serde text) :
    Arrives serde d req ↔ text.length ≤ controlBufferLen ∧ d.pieces = [text] := by
  have hparse : serde.fromSlice text = .ok req.fields := by
    obtain ⟨text', htext', hparse⟩ := hinv
    obtain rfl : text = text' := by simpa [hsends.text] using htext'
    exact hparse
  have hne : text ≠ [] := by
    rintro rfl
    exact hempty _ hparse
  rw [← d.firstRead_eq_iff hne]
  refine ⟨fun harrives => ?_, fun hwhole => ?_⟩
  · obtain ⟨req', htask, -⟩ := harrives
    by_contra hcut
    exact controlTask_part hparts (d.firstRead_prefix _) hcut req' htask
  · rw [Arrives, hwhole, controlTask_text hne hparse]
    exact ⟨req, rfl, rfl, rfl, rfl, rfl⟩

/-- `serde_json` on a text of the fields of a request and on its parts. -/
def serdeOf (req : Request) (text : List UInt8) : ControlSerde where
  toVec := fun _ => .ok text
  fromSlice := fun data => if data = text then .ok req.fields else .error "EOF while parsing"
  invalid := fun _ => "missing field"

lemma inverts_serdeOf (req : Request) (text : List UInt8) :
    Inverts (serdeOf req text).toVec (serdeOf req text).fromSlice req.fields :=
  ⟨text, rfl, if_pos rfl⟩

lemma refusesParts_serdeOf (req : Request) (text : List UInt8) :
    RefusesParts (serdeOf req text) text := by
  intro part _ hne fields
  simp [serdeOf, hne]

/-- The request of the command `add` and its text. -/
def addRequest : Request := ⟨"add", some "hall", some "red", none⟩

def addText : List UInt8 :=
  utf8Bytes "\x7b\"cmd\":\"add\",\"room_name\":\"hall\",\"password\":\"red\"\x7d"

lemma addText_ne_nil : addText ≠ [] := by decide +kernel

/-- The text in two pieces. -/
def addPieces : Delivery addText where
  pieces := [addText.take 20, addText.drop 20]
  ne_nil := by decide +kernel
  flatten_eq := by simp

/-- The command `add` with a name and a password arrives in one piece, and not in two. -/
theorem control_request_arrives_add :
    Arrives (serdeOf addRequest addText) (.whole addText addText_ne_nil) addRequest ∧
      ¬ Arrives (serdeOf addRequest addText) addPieces addRequest := by
  have hiff (d : Delivery addText) := control_request_arrives_iff (fun _ => .error "length")
    (serdeOf addRequest addText) (.add "hall" "red") addRequest addText d ⟨rfl, rfl⟩
    (inverts_serdeOf _ _) (by simp [serdeOf, addText_ne_nil.symm]) (refusesParts_serdeOf _ _)
  refine ⟨(hiff _).mpr ⟨by decide +kernel, rfl⟩, fun harrives => ?_⟩
  simpa [addPieces] using ((hiff _).mp harrives).2

/-- A password of 5000 characters. -/
@[irreducible] def longPassword : String := String.ofList (List.replicate 5000 'p')

/-- The request of a room with the password and its text. -/
def longRequest : Request := ⟨"add", some "hall", some longPassword, none⟩

def longRequestText : List UInt8 :=
  utf8Bytes ("\x7b\"cmd\":\"add\",\"room_name\":\"hall\",\"password\":\"" ++
    (longPassword ++ "\"\x7d"))

lemma lt_longRequestText_length : controlBufferLen < longRequestText.length := by
  have hsize : longPassword.utf8ByteSize = 5000 := by
    unfold longPassword
    rw [utf8ByteSize_replicate]
    rfl
  have hlen : controlBufferLen = 4096 := rfl
  rw [longRequestText, utf8Bytes_length, String.utf8ByteSize_append, String.utf8ByteSize_append,
    hsize, hlen]
  omega

lemma longRequestText_ne_nil : longRequestText ≠ [] :=
  List.length_pos_iff.mp ((Nat.zero_le _).trans_lt lt_longRequestText_length)

/-- The request of a room with a password of 5000 characters does not arrive, although its text
arrives in one piece: it is cut after 4096 bytes. -/
theorem long_request_is_cut :
    Sends (fun _ => .error "length") (serdeOf longRequest longRequestText)
        (.add "hall" longPassword) longRequest longRequestText ∧
      Inverts (serdeOf longRequest longRequestText).toVec
        (serdeOf longRequest longRequestText).fromSlice longRequest.fields ∧
      ¬ Arrives (serdeOf longRequest longRequestText)
        (.whole longRequestText longRequestText_ne_nil) longRequest := by
  refine ⟨⟨rfl, rfl⟩, inverts_serdeOf _ _, fun harrives => ?_⟩
  obtain ⟨req', htask, -⟩ := harrives
  have hcut := (Delivery.firstRead_eq_iff (n := controlBufferLen)
    (.whole longRequestText longRequestText_ne_nil) longRequestText_ne_nil).not.mpr
    fun h => absurd h.1 (not_le.mpr lt_longRequestText_length)
  exact controlTask_part (refusesParts_serdeOf _ _) (Delivery.firstRead_prefix _ _) hcut req' htask

end Fernq
