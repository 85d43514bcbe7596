import Mathlib.Tactic
import Fernq.Protocol.RoundTrip
import Fernq.Protocol.Validate

/-!
The handshake text a client sends (`fernq-core/src/protocol/validate.rs`): a URL of the form
`fernq://host:port/uuid#room?room_pass=password`, checked and put in one frame.

* `createValidate`: the address of a URL and the frame that carries it.
* `validateAndNormalizeAddress`: the check of the address.
* `createValidate_roomUrl`, `validateFrame_carries`: a frame that is returned carries the whole URL.
* `parseValidate_roomUrl`, `exists_parseValidate_iff`: what the server reads out of a URL, and the
  rooms that a client can name.
* `createValidate_round_trip`: from the client's URL to what the server reads.
-/

namespace Fernq

/-! ### Identifiers -/

/-- The hexadecimal digits of bytes. -/
def hexString (bytes : List UInt8) : String :=
  .ofList (bytes.flatMap fun b => [Nat.digitChar (b.toNat / 16), Nat.digitChar (b.toNat % 16)])

/-- The hyphenated text of an identifier. -/
def Uuid.hyphenated (id : Uuid) : String :=
  "-".intercalate [hexString (id.bytes.take 4), hexString ((id.bytes.drop 4).take 2),
    hexString ((id.bytes.drop 6).take 2), hexString ((id.bytes.drop 8).take 2),
    hexString (id.bytes.drop 10)]

/-! ### The address -/

/-- 验证IPv4格式. -/
def validateIpv4OrHostname (addr : String) : Outcome ProtocolError String :=
  match splitAtLast ':' addr with
  | some (host, portStr) =>
      match parseUnsigned 16 portStr.toList with
      | some _ =>
          if host.isEmpty then .err (.malformedFrame "empty host before port") else .ok addr
      | none => .err (.invalidPort portStr)
  | none => .ok addr

/-- 验证 IPv6格式.  The character after the bracket is cut out by its byte positions, which aborts
when it is longer than a byte. -/
def validateIpv6Address (addr : String) : Outcome ProtocolError String :=
  match splitAtFirst ']' addr with
  | none => .err (.malformedFrame "unclosed IPv6 bracket")
  | some (_, rest) =>
      match rest.toList with
      | [] => .ok addr
      | c :: portStr =>
          if c.utf8Size ≠ 1 then .panicked
          else if c ≠ ':' then .err (.malformedFrame "invalid IPv6 format, expected ]:port")
          else if (parseUnsigned 16 portStr).isNone then .err (.invalidPort (.ofList portStr))
          else .ok addr

/-- 验证地址格式并返回规范化地址. -/
def validateAndNormalizeAddress (addr : String) : Outcome ProtocolError String :=
  if "[".toList <+: addr.toList then validateIpv6Address addr else validateIpv4OrHostname addr

/-! ### The client's side -/

/-- The separators that end an address. -/
def addressEnd : List Char := ['/', '?', '#']

/-- 验证URL格式，返回可直接连接的地址,和编码后可发送的信息帧. -/
def createValidate (name : String) (channelId : ChannelId) (url : String) :
    Outcome ProtocolError (String × List UInt8) :=
  match stripPrefix "fernq://" url.toList with
  | none => .err (.invalidProtocol url)
  | some rest =>
      let addrPart := rest.takeWhile (· ∉ addressEnd)
      if addrPart.isEmpty then .err .emptyAddress
      else do
        let normalizedAddr ← validateAndNormalizeAddress (.ofList addrPart)
        let frames ← generateMessageDataStream .header true false channelId name "fernq"
          (utf8Bytes url)
        let frame ← singleFrame frames
        return (normalizedAddr, frame)

/-! ### The URL of a room -/

/-- The part of a URL before the name: `fernq://address/uuid`. -/
def roomPath (address : String) (id : Uuid) : String :=
  "fernq://" ++ (address ++ ("/" ++ id.hyphenated))

/-- The part of a URL before the password: `fernq://address/uuid#room`. -/
def roomBase (address : String) (id : Uuid) (room : String) : String :=
  roomPath address id ++ ("#" ++ room)

/-- The URL of a room: `fernq://address/uuid#room?room_pass=password`. -/
def roomUrl (address : String) (id : Uuid) (room password : String) : String :=
  roomBase address id room ++ ("?room_pass=" ++ password)

lemma mem_hexString {bytes : List UInt8} {c : Char} (h : c ∈ (hexString bytes).toList) :
    ∃ n < 16, c = Nat.digitChar n := by
  rw [hexString, String.toList_ofList, List.mem_flatMap] at h
  obtain ⟨b, -, hc⟩ := h
  have hb : b.toNat < 256 := b.toNat_lt
  rcases List.mem_cons.mp hc with rfl | hc
  · exact ⟨b.toNat / 16, by omega, rfl⟩
  · exact ⟨b.toNat % 16, by omega, List.mem_singleton.mp hc⟩

/-- An identifier is written with hexadecimal digits and hyphens. -/
lemma mem_hyphenated {id : Uuid} {c : Char} (h : c ∈ id.hyphenated.toList) :
    c = '-' ∨ ∃ n < 16, c = Nat.digitChar n := by
  have hyphen : "-".toList = ['-'] := rfl
  simp only [Uuid.hyphenated, String.toList_intercalate, List.map_cons, List.map_nil, hyphen,
    List.intercalate_cons_cons, List.intercalate_singleton, List.mem_append,
    List.mem_singleton] at h
  rcases h with (h | h) | (h | h) | (h | h) | (h | h) | h
  all_goals first | exact .inl h | exact .inr (mem_hexString h)

/-- No separator of a URL is in the text of an identifier. -/
lemma not_mem_hyphenated (id : Uuid) {c : Char} (h : c ∈ addressEnd) :
    c ∉ id.hyphenated.toList := by
  have hdigit : ∀ n < 16, Nat.digitChar n ∉ addressEnd := by decide
  have hhyphen : '-' ∉ addressEnd := by decide
  intro hmem
  rcases mem_hyphenated hmem with rfl | ⟨n, hn, rfl⟩
  · exact hhyphen h
  · exact hdigit n hn h

/-! ### Reading a URL -/

section Read

variable {url base query address room name password : String} {id : Uuid}
  {parseStr : String → Except String Uuid}

lemma extractPassword_eq_ok_iff :
    extractPassword url = .ok (base, password) ↔
      ∃ query, splitAtFirst '?' url = some (base, query) ∧
      (query.toList.splitOn '&').findSome? (stripPrefix "room_pass=") = some password.toList ∧
      password ≠ "" := by
  simp only [extractPassword, Outcome.bind_eq_ok, Outcome.okOr_eq_ok_iff, Prod.exists]
  constructor
  · rintro ⟨base', query, hsplit, pass, hfind, h⟩
    split_ifs at h with hempty
    obtain ⟨rfl, rfl⟩ : base' = base ∧ String.ofList pass = password := by simpa using h
    refine ⟨query, hsplit, by rwa [String.toList_ofList], ?_⟩
    rintro heq
    exact hempty (by simpa using heq)
  · rintro ⟨query, hsplit, hfind, hne⟩
    refine ⟨base, query, hsplit, password.toList, hfind, ?_⟩
    rw [if_neg (by simpa using hne), String.ofList_toList]
    rfl

lemma extractName_eq_ok_iff :
    extractName url = .ok (base, name) ↔ splitAtFirst '#' url = some (base, name) ∧ name ≠ "" := by
  simp only [extractName, Outcome.bind_eq_ok, Outcome.okOr_eq_ok_iff, Prod.exists]
  constructor
  · rintro ⟨base', name', hsplit, h⟩
    split_ifs at h with hempty
    obtain ⟨rfl, rfl⟩ : base' = base ∧ name' = name := by simpa using h
    exact ⟨hsplit, by simpa using hempty⟩
  · rintro ⟨hsplit, hne⟩
    refine ⟨base, name, hsplit, ?_⟩
    rw [if_neg (by simpa using hne)]
    rfl

/-- The server accepts a text when all its parts are there. -/
lemma parseValidate_eq_ok_iff {payload : List UInt8} :
    parseValidate parseStr payload = .ok (id, name, password) ↔
      ∃ url base path, fromUtf8 payload = some url ∧ "fernq://".toList <+: url.toList ∧
        extractPassword url = .ok (base, password) ∧ extractName base = .ok (path, name) ∧
        extractUuid parseStr path = .ok id := by
  simp only [parseValidate, Outcome.bind_eq_ok, Outcome.okOr_eq_ok_iff]
  constructor
  · rintro ⟨url, hutf8, h⟩
    split_ifs at h with hprefix
    simp only [Outcome.bind_eq_ok, Prod.exists] at h
    obtain ⟨base, password', hpassword, path, name', hname, id', hid, h⟩ := h
    obtain ⟨rfl, rfl, rfl⟩ : id' = id ∧ name' = name ∧ password' = password := by simpa using h
    exact ⟨url, base, path, hutf8, hprefix, hpassword, hname, hid⟩
  · rintro ⟨url, base, path, hutf8, hprefix, hpassword, hname, hid⟩
    refine ⟨url, hutf8, ?_⟩
    rw [if_neg (not_not.mpr hprefix), hpassword, Outcome.ok_bind]
    dsimp only
    rw [hname, Outcome.ok_bind]
    dsimp only
    rw [hid, Outcome.ok_bind, Outcome.pure_eq]

/-- The part before the password has no `?` when the room's name has none. -/
lemma not_mem_roomBase (haddress : '?' ∉ address.toList) (hroom : '?' ∉ room.toList) :
    '?' ∉ (roomBase address id room).toList := by
  have hid := not_mem_hyphenated id (c := '?') (by decide)
  simp [roomBase, roomPath, haddress, hid, hroom]

lemma extractPassword_roomUrl (haddress : '?' ∉ address.toList) (hroom : '?' ∉ room.toList)
    (hne : password ≠ "") (hpassword : '&' ∉ password.toList) :
    extractPassword (roomUrl address id room password)
      = .ok (roomBase address id room, password) := by
  rw [extractPassword_eq_ok_iff]
  refine ⟨"room_pass=" ++ password, ?_, ?_, hne⟩
  · rw [splitAtFirst_eq_some_iff]
    exact ⟨by simp [roomUrl], not_mem_roomBase haddress hroom⟩
  · have hpiece : '&' ∉ ("room_pass=" ++ password).toList := by simpa using hpassword
    rw [List.splitOn_eq_singleton hpiece, String.toList_append, List.findSome?_singleton,
      stripPrefix_append]

lemma extractName_roomBase (haddress : '#' ∉ address.toList) (hne : room ≠ "") :
    extractName (roomBase address id room) = .ok (roomPath address id, room) := by
  have hid := not_mem_hyphenated id (c := '#') (by decide)
  rw [extractName_eq_ok_iff, splitAtFirst_eq_some_iff]
  exact ⟨⟨by simp [roomBase], by simp [roomPath, haddress, hid]⟩, hne⟩

lemma extractUuid_roomPath (hparse : parseStr id.hyphenated = .ok id) :
    extractUuid parseStr (roomPath address id) = .ok id := by
  have hid := not_mem_hyphenated id (c := '/') (by decide)
  have hne : id.hyphenated.toList.isEmpty = false := by simp [Uuid.hyphenated]
  have hpath : (roomPath address id).toList
      = ("fernq://" ++ address).toList ++ '/' :: id.hyphenated.toList := by simp [roomPath]
  rw [extractUuid, hpath, getLast?_splitOn hid, Option.filter_some, hne]
  simp [hparse]

/-- The server reads the id, the name and the password out of a room's URL. -/
theorem parseValidate_roomUrl (haddress : '?' ∉ address.toList ∧ '#' ∉ address.toList)
    (hroom : room ≠ "" ∧ '?' ∉ room.toList) (hpassword : password ≠ "" ∧ '&' ∉ password.toList)
    (hparse : parseStr id.hyphenated = .ok id) :
    parseValidate parseStr (utf8Bytes (roomUrl address id room password))
      = .ok (id, room, password) := by
  rw [parseValidate_eq_ok_iff]
  exact ⟨_, _, _, fromUtf8_utf8Bytes _, by simp [roomUrl, roomBase, roomPath],
    extractPassword_roomUrl haddress.1 hroom.2 hpassword.1 hpassword.2,
    extractName_roomBase haddress.2 hroom.1, extractUuid_roomPath hparse⟩

/-- A name that is read has no `?`, and a password no `&`, and neither is empty. -/
lemma of_parseValidate_eq_ok {payload : List UInt8}
    (h : parseValidate parseStr payload = .ok (id, name, password)) :
    (name ≠ "" ∧ '?' ∉ name.toList) ∧ password ≠ "" ∧ '&' ∉ password.toList := by
  obtain ⟨url, base, path, -, -, hpassword, hname, -⟩ := parseValidate_eq_ok_iff.mp h
  obtain ⟨query, hquery, hfind, hpne⟩ := extractPassword_eq_ok_iff.mp hpassword
  obtain ⟨hsplit, hnne⟩ := extractName_eq_ok_iff.mp hname
  have hbase : '?' ∉ base.toList := (splitAtFirst_eq_some_iff.mp hquery).2
  rw [(splitAtFirst_eq_some_iff.mp hsplit).1] at hbase
  obtain ⟨piece, hpiece, hstrip⟩ := List.exists_of_findSome?_eq_some hfind
  have hamp := not_mem_of_mem_splitOn _ hpiece
  rw [stripPrefix_eq_some hstrip] at hamp
  refine ⟨⟨hnne, fun hmem => hbase ?_⟩, hpne, fun hmem => hamp (List.mem_append_right _ hmem)⟩
  exact List.mem_append_right _ (List.mem_cons_of_mem _ hmem)

/-- The rooms a client can name: those whose name and password survive being written in a URL. -/
theorem exists_parseValidate_iff (hparse : parseStr id.hyphenated = .ok id) :
    (∃ payload, parseValidate parseStr payload = .ok (id, name, password))
      ↔ (name ≠ "" ∧ '?' ∉ name.toList) ∧ password ≠ "" ∧ '&' ∉ password.toList := by
  constructor
  · rintro ⟨payload, h⟩
    exact of_parseValidate_eq_ok h
  · rintro ⟨hname, hpassword⟩
    have haddress : '?' ∉ "h".toList ∧ '#' ∉ "h".toList := by decide
    exact ⟨_, parseValidate_roomUrl haddress hname hpassword hparse⟩

end Read

/-! ### From the client to the server -/

section RoundTrip

variable {host port url address room password name : String} {id : Uuid} {channelId : ChannelId}
  {parseStr : String → Except String Uuid} {frame : List UInt8}

/-- A host with a port is an address. -/
lemma validateAndNormalizeAddress_hostPort (hne : host ≠ "")
    (hbracket : host.toList.head? ≠ some '[') (hport : Decimal 16 port.toList) :
    validateAndNormalizeAddress (host ++ (":" ++ port)) = .ok (host ++ (":" ++ port)) := by
  have hcolon : ':' ∉ port.toList := by
    intro hmem
    exact absurd (hport.digits ':' hmem) (by decide)
  have hlist : host.toList ≠ [] := by simpa using hne
  have hopen : ¬ "[".toList <+: (host ++ (":" ++ port)).toList := by
    rintro ⟨t, ht⟩
    apply hbracket
    rw [← List.head?_append_of_ne_nil host.toList hlist, ← String.toList_append, ← ht]
    rfl
  have hsplit : splitAtLast ':' (host ++ (":" ++ port)) = some (host, port) :=
    splitAtLast_append hcolon (by simp)
  rw [validateAndNormalizeAddress, if_neg hopen, validateIpv4OrHostname, hsplit]
  dsimp only
  rw [parseUnsigned_of_decimal hport]
  simp [hne]

/-- The frame that carries a handshake text. -/
def validateFrame (name : String) (channelId : ChannelId) (url : String) : List UInt8 :=
  messageFrame .header (.new true true false) channelId name "fernq" url.utf8ByteSize 0
    (utf8Bytes url)

/-- The address of a URL ends at the first `/`, `?` or `#`. -/
lemma takeWhile_address (haddress : ∀ c ∈ address.toList, c ∉ addressEnd) (rest : List Char) :
    (address.toList ++ '/' :: rest).takeWhile (· ∉ addressEnd) = address.toList := by
  rw [List.takeWhile_append_of_pos (by simpa using haddress),
    List.takeWhile_cons_of_neg (by decide), List.append_nil]

/-- A text of several frames is not sent. -/
lemma singleFrame_of_length_ne {frames : List (List UInt8)} (h : frames.length ≠ 1) :
    singleFrame frames = .err (.invalidFrameLength "frame too long") := by
  unfold singleFrame
  split
  · exact absurd rfl h
  · rfl

/-- The client's frame, when the address of the URL is right. -/
lemma createValidate_roomUrl (hne : address ≠ "") (haddress : ∀ c ∈ address.toList, c ∉ addressEnd)
    (hvalid : validateAndNormalizeAddress address = .ok address) :
    createValidate name channelId (roomUrl address id room password) = (do
      let frames ← generateMessageDataStream .header true false channelId name "fernq"
        (utf8Bytes (roomUrl address id room password))
      let frame ← singleFrame frames
      return (address, frame)) := by
  have hurl : (roomUrl address id room password).toList = "fernq://".toList ++ (address.toList ++
      '/' :: (id.hyphenated ++ ("#" ++ room) ++ ("?room_pass=" ++ password)).toList) := by
    simp [roomUrl, roomBase, roomPath]
  have hlist : address.toList.isEmpty = false := by simpa using hne
  rw [createValidate, hurl, stripPrefix_append]
  dsimp only
  rw [takeWhile_address haddress, hlist, if_neg (by simp), String.ofList_toList, hvalid,
    Outcome.ok_bind]

/-- The encoder's only frame is never a part of the text: a text that does not fit one frame is not
sent. -/
lemma encode_singleFrame_of_lt {t : MessageType} {endChannel isResponse : Bool} {src tgt : String}
    {data : List UInt8} (h : maxPayloadLen src tgt < data.length) :
    ∃ e, (generateMessageDataStream t endChannel isResponse channelId src tgt data >>= singleFrame)
      = .err e := by
  by_cases henc : Encodable src tgt data
  · have hm : 0 < maxPayloadLen src tgt :=
      lt_of_lt_of_le (by omega) (le_maxPayloadLen henc.source_le henc.target_le)
    have hcount : 1 < frameCount src tgt data := (lt_frameCount_iff hm data 1).mpr (by omega)
    refine ⟨.invalidFrameLength "frame too long", ?_⟩
    rw [generateMessageDataStream_eq_ok henc, Outcome.ok_bind]
    refine singleFrame_of_length_ne ?_
    rw [streamFrames, List.length_map, List.length_range]
    omega
  · obtain ⟨e, he⟩ := exists_generateMessageDataStream_eq_err henc
    exact ⟨e, by rw [he, Outcome.err_bind]⟩

/-- A handshake text that fits one frame is carried whole. -/
lemma validateFrame_carries (channelId : ChannelId) (hpos : 0 < name.utf8ByteSize)
    (hle : name.utf8ByteSize ≤ maxNameLength)
    (hurl : 0 < url.utf8ByteSize) (hfits : url.utf8ByteSize ≤ maxPayloadLen name "fernq") :
    generateMessageDataStream .header true false channelId name "fernq" (utf8Bytes url)
        = .ok [validateFrame name channelId url] ∧
      decodeBasic (validateFrame name channelId url)
        = .ok (.header, .new true true false, validateFrame name channelId url, []) ∧
      parseMessage (validateFrame name channelId url)
        = .ok (⟨channelId, name, "fernq", url.utf8ByteSize, 0⟩, utf8Bytes url) := by
  have hmax : maxPayloadLen name "fernq" ≤ 8151 := maxPayloadLen_le
  have hfernq : "fernq".utf8ByteSize ≤ maxNameLength := by decide
  have henc : Encodable name "fernq" (utf8Bytes url) :=
    ⟨hpos, hle, by decide, hfernq, by rw [utf8Bytes_length, maxStreamLength]; omega⟩
  have hfit : FieldsFit name "fernq" url.utf8ByteSize 0 (utf8Bytes url) :=
    ⟨hpos, hle, by decide, hfernq, by omega, by omega, by
      rw [utf8Bytes_length, maxFrameSize]
      omega⟩
  refine ⟨generateMessageDataStream_single henc hurl hfits, ?_, parseMessage_messageFrame hfit⟩
  rw [validateFrame, ← List.append_nil (messageFrame ..), decodeBasic_messageFrame hfit [],
    List.append_nil]

/-- What the two sides make of a URL: the client's address and frame, and what the server reads out
of the frame. -/
def HandshakeRead (parseStr : String → Except String Uuid) (name : String) (channelId : ChannelId)
    (address : String) (id : Uuid) (room password : String)
    (sent : Outcome ProtocolError (String × List UInt8)) : Prop :=
  ∃ frame flags header payload, sent = .ok (address, frame) ∧
    decodeBasic frame = .ok (.header, flags, frame, []) ∧
    flags.endStream = true ∧ flags.endChannel = true ∧ flags.isResponse = false ∧
    parseMessage frame = .ok (header, payload) ∧
    header.source = name ∧ header.target = "fernq" ∧ header.channelId = channelId ∧
    parseValidate parseStr payload = .ok (id, room, password)

/-- From the client to the server: a URL that fits one frame is read back part by part, and a longer
one is not sent at all. -/
theorem createValidate_round_trip (parseStr : String → Except String Uuid) (name : String)
    (channelId : ChannelId) (host port : String) (id : Uuid) (room password : String)
    (hname_pos : 0 < name.utf8ByteSize) (hname_le : name.utf8ByteSize ≤ 128)
    (hhost : host ≠ "") (hbracket : host.toList.head? ≠ some '[')
    (hseparator : ∀ c ∈ host.toList, c ≠ '/' ∧ c ≠ '?' ∧ c ≠ '#')
    (hport : port ≠ "" ∧ (∀ c ∈ port.toList, c.isDigit) ∧ Nat.ofDigitChars 10 port.toList 0 ≤ 65535)
    (hroom : room ≠ "" ∧ '?' ∉ room.toList) (hpassword : password ≠ "" ∧ '&' ∉ password.toList)
    (hparse : parseStr id.hyphenated = .ok id) :
    let url := roomUrl (host ++ (":" ++ port)) id room password
    (url.utf8ByteSize ≤ 8192 - 41 - 5 - name.utf8ByteSize →
      HandshakeRead parseStr name channelId (host ++ (":" ++ port)) id room password
        (createValidate name channelId url)) ∧
    (8192 - 41 - 5 - name.utf8ByteSize < url.utf8ByteSize →
      ∃ e, createValidate name channelId url = .err e) := by
  intro url
  have hdecimal : Decimal 16 port.toList :=
    ⟨by simpa using hport.1, hport.2.1, Nat.lt_succ_of_le hport.2.2⟩
  have haddress : ∀ c ∈ (host ++ (":" ++ port)).toList, c ∉ addressEnd := by
    intro c hc
    have hcases : c ∈ host.toList ∨ c = ':' ∨ c ∈ port.toList := by simpa using hc
    rcases hcases with hc | rfl | hc
    · obtain ⟨h1, h2, h3⟩ := hseparator c hc
      simp [addressEnd, h1, h2, h3]
    · decide
    · have hdigit := hport.2.1 c hc
      intro hmem
      have hsep : ∀ d ∈ addressEnd, ¬ d.isDigit := by simp [addressEnd]
      exact hsep c hmem hdigit
  have hsent : createValidate name channelId url = _ :=
    createValidate_roomUrl (by simp) haddress
      (validateAndNormalizeAddress_hostPort hhost hbracket hdecimal)
  have hspace : maxPayloadLen name "fernq" = 8192 - 41 - 5 - name.utf8ByteSize := by
    have hfernq : "fernq".utf8ByteSize = 5 := by decide
    rw [maxPayloadLen, hfernq]
    change 8192 - 41 - name.utf8ByteSize - 5 = _
    omega
  constructor
  · intro hfits
    have hurl : 0 < url.utf8ByteSize := by
      have hscheme : "fernq://".utf8ByteSize = 8 := by decide
      simp only [url, roomUrl, roomBase, roomPath, String.utf8ByteSize_append, hscheme]
      omega
    obtain ⟨hencode, hdecode, hmessage⟩ := validateFrame_carries channelId hname_pos hname_le hurl
      (hspace ▸ hfits)
    refine ⟨validateFrame name channelId url, _, _, _, ?_, hdecode, rfl, rfl, rfl, hmessage, rfl,
      rfl, rfl, parseValidate_roomUrl ?_ hroom hpassword hparse⟩
    · rw [hsent, hencode, Outcome.ok_bind, singleFrame, Outcome.ok_bind, Outcome.pure_eq]
    · exact ⟨fun h => haddress _ h (by decide), fun h => haddress _ h (by decide)⟩
  · intro hlong
    obtain ⟨e, he⟩ : ∃ e, (generateMessageDataStream .header true false channelId name "fernq"
        (utf8Bytes url) >>= singleFrame) = .err e :=
      encode_singleFrame_of_lt (by rw [hspace, utf8Bytes_length]; exact hlong)
    refine ⟨e, ?_⟩
    rw [hsent, ← Outcome.bind_assoc, he, Outcome.err_bind]

/-- The round trip of a name with separators in it. -/
theorem createValidate_round_trip_separators :
    let id : Uuid := ⟨List.replicate 16 7, rfl⟩
    HandshakeRead (fun s => if s = id.hyphenated then .ok id else .error "invalid character")
      "alice" ⟨id⟩ ("node-a.local" ++ (":" ++ "8080")) id "a/b#c" "d?e#f=g"
      (createValidate "alice" ⟨id⟩
        (roomUrl ("node-a.local" ++ (":" ++ "8080")) id "a/b#c" "d?e#f=g")) := by
  intro id
  have hport : "8080" ≠ "" ∧ (∀ c ∈ "8080".toList, c.isDigit) ∧
      Nat.ofDigitChars 10 "8080".toList 0 ≤ 65535 := ⟨by decide, by simp, by decide⟩
  exact (createValidate_round_trip (fun s => if s = id.hyphenated then .ok id else .error _) "alice"
    ⟨id⟩ "node-a.local" "8080" id "a/b#c" "d?e#f=g" (by decide) (by decide) (by decide) (by decide)
    (by simp) hport (by decide) (by decide) (if_pos rfl)).1 (by decide +kernel)

end RoundTrip

end Fernq
