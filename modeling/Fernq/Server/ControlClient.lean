import Mathlib.Tactic
import Fernq.Protocol.Replies
import Fernq.Server.ControlSocket

/-!
The client of the control socket (`fernqctl/src/main.rs`): a command becomes a request, the request
is sent, and the answer is printed.

* `Response.fields`, `Response.ofFields`: an answer as the fields of an object, and back.
* `sendRequest`: one request over a stream whose calls may fail.
* `printRoomList`, `printAddress`, `Cli.show`, `Cli.run`: what is printed.
* `Visit`, `NodeRooms.exchange`, `NodeRooms.visit`: one run of the client against the node.
* `exchange_cases`: what the client has been told, and what the node has done.
-/

namespace Fernq

/-! ### The fields of an answer -/

/-- The fields that `fernqd` writes; those that are none are left out. -/
def Response.fields (resp : Response) : List (String × Json) :=
  ("success", .bool resp.success) ::
    ((resp.data.toList.map fun data => ("data", data)) ++ optionField "error" resp.error)

/-- What the visitor of `fernqctl` has seen of an answer. -/
structure ResponseVisitor where
  success : Option Bool
  data : Option (Option Json)
  error : Option (Option String)

/-- The value of an optional field that may have any value. -/
def Json.asOption : Json → Option Json
  | .null => none
  | value => some value

/-- One field; fields of other names are ignored. -/
def ResponseVisitor.visit (seen : ResponseVisitor) (field : String × Json) :
    Option ResponseVisitor :=
  if field.1 = "success" then
    (visitOnce seen.success field.2.asBool).map fun v => { seen with success := v }
  else if field.1 = "data" then
    (visitOnce seen.data (some field.2.asOption)).map fun v => { seen with data := v }
  else if field.1 = "error" then
    (visitOnce seen.error field.2.asOptionStr).map fun v => { seen with error := v }
  else some seen

/-- `success` must be there, and the other fields are none by default. -/
def ResponseVisitor.finish (seen : ResponseVisitor) : Option Response :=
  seen.success.map fun success => ⟨success, seen.data.join, seen.error.join⟩

/-- The answer of the fields of an object. -/
def Response.ofFields (fields : List (String × Json)) : Option Response :=
  (fields.foldlM ResponseVisitor.visit ⟨none, none, none⟩).bind ResponseVisitor.finish

/-- An answer is read back, unless it has the data `null`. -/
lemma response_ofFields_fields (resp : Response) (hdata : resp.data ≠ some .null) :
    Response.ofFields resp.fields = some resp := by
  obtain ⟨success, data, error⟩ := resp
  cases data with
  | none => cases error <;> rfl
  | some value =>
      cases value with
      | null => exact absurd rfl hdata
      | _ => cases error <;> rfl

/-- `serde_json::from_slice` for an answer. -/
def ControlSerde.response (serde : ControlSerde) (buf : List UInt8) : Except String Response :=
  match serde.fromSlice buf with
  | .error e => .error e
  | .ok fields =>
      match Response.ofFields fields with
      | some resp => .ok resp
      | none => .error (serde.invalid buf)

/-! ### The socket -/

/-- How the calls on the stream of a request go. -/
structure ControlStream where
  connect : Fault
  setReadTimeout : Fault
  setWriteTimeout : Fault
  writeAll : List UInt8 → Fault
  shutdown : Fault
  readToEnd : Except String (List UInt8)

def orFails : Fault → Except String Unit
  | none => .ok ()
  | some e => .error e

/-- 发送, then 接收: the answer is what can be read until the stream ends. -/
def sendRequest (serde : ControlSerde) (stream : ControlStream) (req : Request) :
    Except String Response := do
  (orFails stream.connect).mapError fun _ => "Is fernqd running?"
  orFails stream.setReadTimeout
  orFails stream.setWriteTimeout
  let reqJson ← serde.toVec req.fields
  orFails (stream.writeAll reqJson)
  orFails stream.shutdown
  let buf ← stream.readToEnd
  if buf.isEmpty then .error "Empty response from server"
  else (serde.response buf).mapError fun _ => "Invalid response format"

/-! ### What is printed -/

/-- The styles of the texts that are printed. -/
inductive Style
  | cyan
  | cyanBold
  | green
  | greenBold
  | yellow
  | dimmed
  | boldUnderline
  deriving DecidableEq

/-- What `fernqctl` takes from its libraries: ids, JSON texts, coloured texts; and what
`uninstall` prints. -/
structure CtlEnv where
  parseStr : String → Except String Uuid
  serde : ControlSerde
  /-- `serde_json::to_string_pretty` -/
  pretty : List (String × Json) → Except String String
  display : Json → String
  paint : Style → String → String
  uninstall : Except String (List String)

structure Cli where
  /-- Unix socket 路径 -/
  socket : Option String
  /-- 开发模式 (使用 /tmp/fernq.sock) -/
  dev : Bool
  /-- 输出原始 JSON 格式 -/
  json : Bool
  /-- 显示密码明文（默认隐藏） -/
  showPwd : Bool
  command : Commands

/-- 确定 socket 路径. -/
def Cli.socketPath (cli : Cli) : String :=
  cli.socket.getD (if cli.dev then "/tmp/fernq.sock" else "/run/fernq/fernq.sock")

/-- A text that is filled up on the right. -/
def padRight (n : ℕ) (fill : Char) (s : String) : String := .ofList (s.toList.rightpad n fill)

/-- The line of a room. -/
def roomLine (env : CtlEnv) (showPassword : Bool) (room : Json) : String :=
  let id := (room.index "id").asStr.getD "N/A"
  let name := (room.index "name").asStr.getD "N/A"
  let pwd := (room.index "password").asStr.getD "N/A"
  let pwdDisplay := if showPassword then pwd else "******"
  env.paint .dimmed id ++ " " ++ padRight 20 ' ' name ++ " " ++ env.paint .yellow pwdDisplay

/-- 表头. -/
def roomHeader (env : CtlEnv) : List String :=
  [env.paint .boldUnderline (padRight 36 ' ' "Room ID") ++ " " ++
      env.paint .boldUnderline (padRight 20 ' ' "Name") ++ " " ++
      env.paint .boldUnderline "Password",
    padRight 36 '-' "" ++ " " ++ padRight 20 '-' "" ++ " " ++ padRight 16 '-' ""]

def printRoomList (env : CtlEnv) (data : Option Json) (showPassword : Bool) : List String :=
  match data with
  | some (.array rooms) =>
      if rooms.isEmpty then ["No rooms found."]
      else roomHeader env ++ rooms.map (roomLine env showPassword) ++
        ["\nTotal: " ++ env.paint .green (toString rooms.length) ++ " room(s)"]
  | some other => ["Unexpected response: " ++ env.display other]
  | none => ["No rooms found."]

def printAddress (env : CtlEnv) (data : Option Json) : List String :=
  match data with
  | some (.string addr) => ["Server listening on: " ++ env.paint .cyanBold addr]
  | some other => ["Server address: " ++ env.display other]
  | none => ["Address not available"]

/-- The line for a room that was added or removed. -/
def successLine (env : CtlEnv) (room done : String) : String :=
  env.paint .greenBold "✓" ++ " Room '" ++ env.paint .cyan room ++ "' " ++ done ++ " successfully"

/-- 输出处理: the lines that are printed, or the error. -/
def Cli.show (env : CtlEnv) (cli : Cli) (response : Response) : Except String (List String) :=
  if cli.json then (env.pretty response.fields).map fun text => [text]
  else if ¬ response.success then
    .error ("Server error: " ++ response.error.getD "Unknown error")
  else
    match cli.command with
    | .list => .ok (printRoomList env response.data cli.showPwd)
    | .address => .ok (printAddress env response.data)
    | .add name _ => .ok [successLine env name "added"]
    | .remove id => .ok [successLine env id "removed"]
    | .uninstall => env.uninstall

/-- The error of a request that has got no answer. -/
def Cli.cannotConnect (cli : Cli) : String := "Cannot connect to fernqd at " ++ cli.socketPath

/-- `run`: `send` is what `send_request` returns. -/
def Cli.run (env : CtlEnv) (cli : Cli) (send : Request → Except String Response) :
    Except String (List String) := do
  match ← cli.command.request env.parseStr with
  | none => env.uninstall
  | some req =>
      let response ← (send req).mapError fun _ => cli.cannotConnect
      cli.show env response

/-! ### The client and the node -/

/-- One run of the client, and what happens to it on the way: the node reads some part of what is
written to it, and the client some part of the answer. -/
structure Visit (ρ : Type) where
  cli : Cli
  connect : Fault
  setReadTimeout : Fault
  setWriteTimeout : Fault
  writeAll : List UInt8 → Fault
  shutdown : Fault
  /-- The one read of the node, of what is written to the socket. -/
  arrive : List UInt8 → Except IoError (List UInt8)
  /-- What the client reads until the stream ends, of the answer. -/
  reply : List UInt8 → Except String (List UInt8)
  faults : RequestFaults
  /-- The id and the room that an `add` would create. -/
  id : Uuid
  room : ρ
  not_uninstall : cli.command ≠ .uninstall
  arrive_prefix : ∀ {text part}, arrive text = .ok part →
    part <+: text ∧ part.length ≤ controlBufferLen
  reply_prefix : ∀ {answer part}, reply answer = .ok part → part <+: answer

namespace Visit

variable {ρ : Type} (v : Visit ρ)

/-- What is written for a request; nothing before the stream is set up. -/
def written (serde : ControlSerde) (req : Request) : List UInt8 :=
  match v.connect, v.setReadTimeout, v.setWriteTimeout, serde.toVec req.fields with
  | none, none, none, .ok text => text
  | _, _, _, _ => []

/-- The stream of the visit, over which the node sends the answer. -/
def stream (answer : List UInt8) : ControlStream where
  connect := v.connect
  setReadTimeout := v.setReadTimeout
  setWriteTimeout := v.setWriteTimeout
  writeAll := v.writeAll
  shutdown := v.shutdown
  readToEnd := v.reply answer

end Visit

/-- `send_response`: nothing is sent if there is no answer, or it cannot be printed. -/
def answerText (serde : ControlSerde) (resp : Option Response) : List UInt8 :=
  match resp with
  | none => []
  | some resp => (serde.toVec resp.fields).toOption.getD []

section Visits

variable {ρ : Type} [DecidableEq ρ]

/-- A request that is sent to the node: what `send_request` returns, and the node after it. -/
def NodeRooms.exchange (env : CtlEnv) (addr : String) (s : NodeRooms ρ) (v : Visit ρ)
    (req : Request) : Except String Response × NodeRooms ρ :=
  let task := controlTask env.serde (v.arrive (v.written env.serde req))
  let (resp, s') := s.serveControl env.parseStr v.faults v.id v.room addr task
  (sendRequest env.serde (v.stream (answerText env.serde resp)) req, s')

/-- A run of the client: what is printed, and the node after it.  `fernqd` serves each request in a
task of its own, and `fernqctl` may give up waiting; here the node has finished the request when the
run is over. -/
def NodeRooms.visit (env : CtlEnv) (addr : String) (s : NodeRooms ρ) (v : Visit ρ) :
    Except String (List String) × NodeRooms ρ :=
  (v.cli.run env fun req => (s.exchange env addr v req).1,
    match v.cli.command.request env.parseStr with
    | .ok (some req) => (s.exchange env addr v req).2
    | _ => s)

end Visits

/-! ### What the client is told -/

/-- The answers that the node gives: no data, a text, or a list of rooms. -/
def Response.Plain (resp : Response) : Prop :=
  resp.data = none ∨ (∃ s, resp.data = some (.string s)) ∨
    ∃ rooms : List RoomModel, resp.data = some (.array (rooms.map listEntry))

lemma Response.Plain.data_ne_null {resp : Response} (h : resp.Plain) : resp.data ≠ some .null := by
  rcases h with h | ⟨s, h⟩ | ⟨rooms, h⟩ <;> simp [h]

/-- What `serde_json` does for requests and answers: their texts are read back, and no part of the
text of an object is the text of one. -/
structure ControlSerde.Lawful (serde : ControlSerde) : Prop where
  request : ∀ (req : Request) (text : List UInt8), serde.toVec req.fields = .ok text →
    serde.fromSlice text = .ok req.fields
  response : ∀ (resp : Response) (text : List UInt8), resp.Plain →
    serde.toVec resp.fields = .ok text → serde.fromSlice text = .ok resp.fields
  parts : ∀ fields text, serde.toVec fields = .ok text → RefusesParts serde text
  empty : ∀ fields, serde.fromSlice [] ≠ .ok fields

/-- A store that does not fail. -/
def noFaults : RequestFaults :=
  ⟨⟨fun _ => none, none, none⟩, ⟨none, none, none, none⟩, fun _ => none⟩

section Exchange

/-- Only `uninstall` sends no request. -/
lemma Commands.request_eq_none {command : Commands} {parseStr : String → Except String Uuid}
    (h : command.request parseStr = .ok none) : command = .uninstall := by
  cases command with
  | uninstall => rfl
  | add | list | address => cases h
  | remove id =>
      rw [Commands.request] at h
      split at h <;> cases h

/-- The commands that send a request, with what they send. -/
lemma Commands.request_eq_some {command : Commands} {parseStr : String → Except String Uuid}
    {req : Request} (h : command.request parseStr = .ok (some req)) :
    (∃ name password, command = .add name password ∧
      req = ⟨"add", some name, some password, none⟩) ∨
    (∃ text id, command = .remove text ∧ parseStr text = .ok id ∧
      req = ⟨"remove", none, none, some text⟩) ∨
    (command = .list ∧ req = ⟨"list", none, none, none⟩) ∨
    (command = .address ∧ req = ⟨"address", none, none, none⟩) := by
  cases command with
  | add name password =>
      cases h
      exact .inl ⟨name, password, rfl, rfl⟩
  | remove text =>
      rw [Commands.request] at h
      split at h
      · cases h
      · rename_i id hparse
        cases h
        exact .inr (.inl ⟨text, id, rfl, hparse, rfl⟩)
  | list =>
      cases h
      exact .inr (.inr (.inl ⟨rfl, rfl⟩))
  | address =>
      cases h
      exact .inr (.inr (.inr ⟨rfl, rfl⟩))
  | uninstall => cases h

/-- Only `list` sends the request for the rooms. -/
lemma Commands.eq_list_of_request {command : Commands} {parseStr : String → Except String Uuid}
    {req : Request} (h : command.request parseStr = .ok (some req)) (hcmd : req.cmd = "list") :
    command = .list := by
  rcases request_eq_some h with
    ⟨name, password, -, rfl⟩ | ⟨text, id, -, -, rfl⟩ | ⟨hlist, -⟩ | ⟨-, rfl⟩
  · simp at hcmd
  · simp at hcmd
  · exact hlist
  · simp at hcmd

variable {ρ : Type} [DecidableEq ρ] {env : CtlEnv} {serde : ControlSerde} {addr : String}
  {s : NodeRooms ρ} {v : Visit ρ} {req : Request} {resp : Response}

/-- An answer that is read in part is refused. -/
lemma response_part {text part : List UInt8} (hparts : RefusesParts serde text)
    (hpart : part <+: text) (hne : part ≠ text) : serde.response part ≠ .ok resp := by
  rw [ControlSerde.response]
  cases hfields : serde.fromSlice part with
  | error e => simp
  | ok fields => exact absurd hfields (hparts part hpart hne fields)

lemma response_text (hserde : serde.Lawful) (hplain : resp.Plain) {text : List UInt8}
    (htext : serde.toVec resp.fields = .ok text) : serde.response text = .ok resp := by
  rw [ControlSerde.response, hserde.response resp text hplain htext]
  dsimp only
  rw [response_ofFields_fields resp hplain.data_ne_null]

/-- What has to go well for a request to be answered. -/
lemma sendRequest_eq_ok {stream : ControlStream} (h : sendRequest serde stream req = .ok resp) :
    ∃ buf, stream.readToEnd = .ok buf ∧ buf ≠ [] ∧ serde.response buf = .ok resp := by
  obtain ⟨-, -, h⟩ := Except.bind_eq_ok_iff.mp h
  obtain ⟨-, -, h⟩ := Except.bind_eq_ok_iff.mp h
  obtain ⟨-, -, h⟩ := Except.bind_eq_ok_iff.mp h
  obtain ⟨text, -, h⟩ := Except.bind_eq_ok_iff.mp h
  obtain ⟨-, -, h⟩ := Except.bind_eq_ok_iff.mp h
  obtain ⟨-, -, h⟩ := Except.bind_eq_ok_iff.mp h
  obtain ⟨buf, hread, h⟩ := Except.bind_eq_ok_iff.mp h
  split_ifs at h with hempty
  exact ⟨buf, hread, by simpa using hempty, Except.mapError_eq_ok_iff.mp h⟩

omit [DecidableEq ρ] in
/-- The client is told what the node has answered, or nothing. -/
lemma sendRequest_visit (hserde : serde.Lawful) {answer : Option Response}
    (hplain : ∀ resp ∈ answer, resp.Plain)
    (h : sendRequest serde (v.stream (answerText serde answer)) req = .ok resp) :
    answer = some resp := by
  obtain ⟨buf, hread, hne, hbuf⟩ := sendRequest_eq_ok h
  have hpre : buf <+: answerText serde answer := v.reply_prefix hread
  cases answer with
  | none => exact absurd (List.prefix_nil.mp hpre) hne
  | some resp' =>
      rw [answerText] at hpre
      cases htext : serde.toVec resp'.fields with
      | error e =>
          rw [htext] at hpre
          exact absurd (List.prefix_nil.mp hpre) hne
      | ok text =>
          rw [htext] at hpre
          by_cases hcut : buf = text
          · rw [hcut, response_text hserde (hplain _ rfl) htext] at hbuf
            exact congrArg some (Except.ok.inj hbuf)
          · exact absurd hbuf (response_part (hserde.parts _ _ htext) hpre hcut)

omit [DecidableEq ρ] in
/-- The node handles the request of a visit, or refuses it, or sees nothing of it. -/
lemma controlTask_visit (hserde : serde.Lawful) (v : Visit ρ) (req : Request) :
    controlTask serde (v.arrive (v.written serde req)) = .handle req ∨
      ((∃ error, controlTask serde (v.arrive (v.written serde req)) = .refuse (.failed error)) ∧
        v.arrive (v.written serde req) ≠ .ok (v.written serde req)) ∨
      controlTask serde (v.arrive (v.written serde req)) = .nothing := by
  have hnil : v.written serde req ≠ [] → serde.toVec req.fields = .ok (v.written serde req) := by
    intro hne
    unfold Visit.written at hne ⊢
    split at hne
    · rename_i htext
      simp only [*]
    · exact absurd rfl hne
  cases harrive : v.arrive (v.written serde req) with
  | error e => exact .inr (.inr rfl)
  | ok part =>
      obtain ⟨hpart, -⟩ := v.arrive_prefix harrive
      by_cases hne : v.written serde req = []
      · rw [hne, List.prefix_nil] at hpart
        rw [hpart]
        exact .inr (.inr rfl)
      · have htext := hnil hne
        by_cases hcut : part = v.written serde req
        · rw [hcut]
          exact .inl (controlTask_text hne (hserde.request req _ htext))
        · have hpart' := controlTask_part (hserde.parts _ _ htext) hpart hcut
          cases htask : controlTask serde (.ok part) with
          | handle req' => exact absurd htask (hpart' req')
          | nothing => exact .inr (.inr rfl)
          | refuse resp =>
              rw [controlTask] at htask
              split_ifs at htask
              cases hreq : serde.request part with
              | ok req' => rw [hreq] at htask; cases htask
              | error e =>
                  rw [hreq] at htask
                  exact .inr (.inl ⟨⟨_, htask.symm⟩, fun heq => hcut (Except.ok.inj heq)⟩)

/-- The answers of the node are plain. -/
lemma plain_handleRequest (addr : String) (s : NodeRooms ρ) (req : Request)
    (parseStr : String → Except String Uuid) (faults : RequestFaults) (id : Uuid) (room : ρ) :
    (s.handleRequest parseStr faults id room addr req).1.Plain := by
  have hdone (text : String) : (Response.done (.string text)).Plain := .inr (.inl ⟨text, rfl⟩)
  have hfailed (e : String) : (Response.failed e).Plain := .inl rfl
  unfold NodeRooms.handleRequest
  split_ifs
  · split
    · exact hfailed _
    · split
      · exact hdone _
      · exact hfailed _
  · split
    · exact hfailed _
    · split
      · exact hdone _
      · exact hfailed _
  · exact .inr (.inr ⟨_, rfl⟩)
  · exact hdone _
  · exact hfailed _

/-- What the client is told, and what the node has done.  The client has the answer to a request
that was handled; or it has the answer to one that did not arrive whole, and nothing was done; or it
has no answer, and the request may have been handled. -/
theorem exchange_cases (hserde : env.serde.Lawful) (addr : String) (s : NodeRooms ρ) (v : Visit ρ)
    (req : Request) :
    (∃ resp, (s.exchange env addr v req).1 = .ok resp ∧
      s.handleRequest env.parseStr v.faults v.id v.room addr req
        = (resp, (s.exchange env addr v req).2)) ∨
    ((∃ error, (s.exchange env addr v req).1 = .ok (.failed error)) ∧
      (s.exchange env addr v req).2 = s ∧
      v.arrive (v.written env.serde req) ≠ .ok (v.written env.serde req)) ∨
    (∃ e, (s.exchange env addr v req).1 = .error e) ∧
      ((s.exchange env addr v req).2 = s ∨ (s.exchange env addr v req).2
        = (s.handleRequest env.parseStr v.faults v.id v.room addr req).2) := by
  unfold NodeRooms.exchange
  rcases controlTask_visit hserde v req with htask | ⟨⟨error, htask⟩, hcut⟩ | htask
  · rw [htask]
    dsimp only [NodeRooms.serveControl]
    cases hsent : sendRequest env.serde (v.stream (answerText env.serde
        (some (s.handleRequest env.parseStr v.faults v.id v.room addr req).1))) req with
    | error e => exact .inr (.inr ⟨⟨e, rfl⟩, .inr rfl⟩)
    | ok resp =>
        have hanswer := sendRequest_visit hserde
          (by simpa using plain_handleRequest addr s req env.parseStr v.faults v.id v.room) hsent
        exact .inl ⟨resp, rfl, Prod.ext (Option.some.inj hanswer) rfl⟩
  · rw [htask]
    dsimp only [NodeRooms.serveControl]
    cases hsent : sendRequest env.serde (v.stream (answerText env.serde
        (some (.failed error)))) req with
    | error e => exact .inr (.inr ⟨⟨e, rfl⟩, .inl rfl⟩)
    | ok resp =>
        have hanswer := sendRequest_visit hserde (by
          intro resp hresp
          obtain rfl := Option.some.inj hresp
          exact .inl rfl) hsent
        exact .inr (.inl ⟨⟨error, by rw [Option.some.inj hanswer]⟩, rfl, hcut⟩)
  · rw [htask]
    dsimp only [NodeRooms.serveControl]
    cases hsent : sendRequest env.serde (v.stream (answerText env.serde none)) req with
    | error e => exact .inr (.inr ⟨⟨e, rfl⟩, .inl rfl⟩)
    | ok resp => exact absurd (sendRequest_visit hserde (by simp) hsent) (by simp)

omit [DecidableEq ρ] in
/-- A run of the client other than `uninstall` sends a request, unless the request is not built. -/
lemma Visit.request_cases (v : Visit ρ) (parseStr : String → Except String Uuid) :
    (∃ e, v.cli.command.request parseStr = .error e) ∨
      ∃ req, v.cli.command.request parseStr = .ok (some req) := by
  cases hreq : v.cli.command.request parseStr with
  | error e => exact .inl ⟨e, rfl⟩
  | ok req =>
    cases req with
    | some req => exact .inr ⟨req, rfl⟩
    | none => exact absurd (Commands.request_eq_none hreq) v.not_uninstall

/-- A command whose request is not built says so, and the node is not asked. -/
lemma visit_of_error {e : String} (hreq : v.cli.command.request env.parseStr = .error e) :
    s.visit env addr v = (.error e, s) := by
  unfold NodeRooms.visit Cli.run
  rw [hreq]
  rfl

/-- A command whose request is built sends it and prints the answer. -/
lemma visit_of_request (hreq : v.cli.command.request env.parseStr = .ok (some req)) :
    s.visit env addr v
      = (((s.exchange env addr v req).1.mapError fun _ => v.cli.cannotConnect)
            >>= v.cli.show env,
          (s.exchange env addr v req).2) := by
  unfold NodeRooms.visit Cli.run
  rw [hreq]
  rfl

/-- A run of the client without options, over a socket on which nothing is lost. -/
def Visit.direct (command : Commands) (hcommand : command ≠ .uninstall) (id : Uuid) (room : ρ) :
    Visit ρ where
  cli := ⟨none, false, false, false, command⟩
  connect := none
  setReadTimeout := none
  setWriteTimeout := none
  writeAll := fun _ => none
  shutdown := none
  arrive := fun text => .ok (text.take controlBufferLen)
  reply := .ok
  faults := noFaults
  id := id
  room := room
  not_uninstall := hcommand
  arrive_prefix := by
    rintro text part h
    obtain rfl := Except.ok.inj h
    exact ⟨List.take_prefix _ _, List.length_take_le _ _⟩
  reply_prefix := by
    rintro answer part h
    exact Except.ok.inj h ▸ List.prefix_refl answer

/-- A request of at most 4096 bytes is answered when nothing is lost. -/
lemma exchange_direct (hserde : env.serde.Lawful) {command : Commands}
    (hcommand : command ≠ .uninstall) {id : Uuid} {room : ρ} {s' : NodeRooms ρ}
    {text answer : List UInt8} (htext : env.serde.toVec req.fields = .ok text)
    (hlen : text.length ≤ controlBufferLen)
    (hhandle : s.handleRequest env.parseStr noFaults id room addr req = (resp, s'))
    (hanswer : env.serde.toVec resp.fields = .ok answer) :
    s.exchange env addr (.direct command hcommand id room) req = (.ok resp, s') := by
  have hparse := hserde.request req text htext
  have hne : text ≠ [] := by
    rintro rfl
    exact hserde.empty _ hparse
  have hplain : resp.Plain := by
    have hall := plain_handleRequest addr s req env.parseStr noFaults id room
    rwa [hhandle] at hall
  have hresp := response_text hserde hplain hanswer
  have hne' : answer.isEmpty = false := by
    rw [List.isEmpty_eq_false_iff]
    rintro rfl
    exact hserde.empty _ (hserde.response resp [] hplain hanswer)
  set v := Visit.direct command hcommand id room
  have hwritten : v.written env.serde req = text := by
    rw [Visit.written, htext]
    rfl
  have htask : controlTask env.serde (v.arrive (v.written env.serde req)) = .handle req := by
    rw [hwritten]
    change controlTask env.serde (.ok (text.take controlBufferLen)) = .handle req
    rw [List.take_of_length_le hlen]
    exact controlTask_text hne hparse
  have hsent : sendRequest env.serde (v.stream answer) req = .ok resp := by
    unfold sendRequest
    rw [htext]
    change (if answer.isEmpty then _ else _) = Except.ok resp
    rw [if_neg (by simp [hne']), hresp]
    rfl
  have hserve : s.serveControl env.parseStr v.faults v.id v.room addr (.handle req)
      = (some resp, s') := by
    rw [NodeRooms.serveControl]
    exact congrArg (fun r => (some r.1, r.2)) hhandle
  have htext' : answerText env.serde (some resp) = answer := by
    rw [answerText, hanswer]
    rfl
  unfold NodeRooms.exchange
  rw [htask]
  dsimp only
  rw [hserve]
  dsimp only
  rw [htext', hsent]

/-- A command whose request is answered prints the answer. -/
lemma visit_eq_of_exchange (hreq : v.cli.command.request env.parseStr = .ok (some req))
    {s' : NodeRooms ρ} (hexchange : s.exchange env addr v req = (.ok resp, s')) :
    s.visit env addr v = (v.cli.show env resp, s') := by
  rw [visit_of_request hreq, hexchange]
  rfl

end Exchange

/-! ### Texts from a table -/

section Table

variable {table : List (List (String × Json) × List UInt8)}

open Classical in
/-- `serde_json` for the objects of a table. -/
noncomputable def tableSerde (table : List (List (String × Json) × List UInt8)) :
    ControlSerde where
  toVec fields :=
    if h : ∃ text, (fields, text) ∈ table then .ok h.choose else .error "unsupported"
  fromSlice text :=
    if h : ∃ fields, (fields, text) ∈ table then .ok h.choose else .error "EOF while parsing"
  invalid _ := "missing field"

/-- No text is the beginning of another one. -/
def Separated (table : List (List (String × Json) × List UInt8)) : Prop :=
  table.Pairwise fun entry entry' => ¬ entry.2 <+: entry'.2 ∧ ¬ entry'.2 <+: entry.2

lemma Separated.eq (h : Separated table) {entry entry' : List (String × Json) × List UInt8}
    (hmem : entry ∈ table) (hmem' : entry' ∈ table) (hpre : entry.2 <+: entry'.2) :
    entry = entry' := by
  have hsymm : Std.Symm fun entry entry' : List (String × Json) × List UInt8 =>
      ¬ entry.2 <+: entry'.2 ∧ ¬ entry'.2 <+: entry.2 := ⟨fun _ _ hnot => hnot.symm⟩
  by_contra hne
  exact (List.Pairwise.forall h hmem hmem' hne).1 hpre

lemma mem_of_toVec_table {fields : List (String × Json)} {text : List UInt8}
    (h : (tableSerde table).toVec fields = .ok text) : (fields, text) ∈ table := by
  unfold tableSerde at h
  dsimp only at h
  split_ifs at h with hmem
  exact Except.ok.inj h ▸ hmem.choose_spec

lemma mem_of_fromSlice_table {fields : List (String × Json)} {text : List UInt8}
    (h : (tableSerde table).fromSlice text = .ok fields) : (fields, text) ∈ table := by
  unfold tableSerde at h
  dsimp only at h
  split_ifs at h with hmem
  exact Except.ok.inj h ▸ hmem.choose_spec

lemma fromSlice_table (hsep : Separated table) {fields : List (String × Json)} {text : List UInt8}
    (hmem : (fields, text) ∈ table) : (tableSerde table).fromSlice text = .ok fields := by
  unfold tableSerde
  dsimp only
  have hexists : ∃ fields, (fields, text) ∈ table := ⟨fields, hmem⟩
  rw [dif_pos hexists]
  cases hsep.eq hexists.choose_spec hmem (List.prefix_refl text)
  rfl

lemma toVec_table {fields : List (String × Json)} {text : List UInt8}
    (hmem : (fields, text) ∈ table) (hunique : ∀ text', (fields, text') ∈ table → text' = text) :
    (tableSerde table).toVec fields = .ok text := by
  unfold tableSerde
  dsimp only
  have hexists : ∃ text, (fields, text) ∈ table := ⟨text, hmem⟩
  rw [dif_pos hexists, hunique _ hexists.choose_spec]

lemma lawful_tableSerde (hsep : Separated table) (hne : ∀ entry ∈ table, entry.2 ≠ []) :
    (tableSerde table).Lawful where
  request _ _ h := fromSlice_table hsep (mem_of_toVec_table h)
  response _ _ _ h := fromSlice_table hsep (mem_of_toVec_table h)
  parts fields text h part hpart hcut fields' hfields := by
    have heq := hsep.eq (mem_of_fromSlice_table hfields) (mem_of_toVec_table h) hpart
    exact hcut (congrArg Prod.snd heq)
  empty fields h := hne _ (mem_of_fromSlice_table h) rfl

end Table

end Fernq
