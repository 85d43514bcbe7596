import Mathlib.Tactic
import Fernq.Base.Utf8
import Fernq.Protocol.Url

/-!
The handshake text cut by byte offsets, as `fernq-core/src/protocol/validate.rs` cuts it: every
slice is a step that aborts when an offset is out of range or inside a character.

* `Sliced.parseValidate_eq`, `Sliced.createValidate_eq`: cutting by offsets is cutting at
  characters, and aborts where that does.
* `createValidate_in_bounds_iff`: the texts on which the client's side does not abort.
-/

namespace Fernq

namespace Sliced

/-! ### The server's side -/

/-- 从 URL 中提取 room_pass 参数. -/
def extractPassword (url : String) : Outcome ProtocolError (String × String) := do
  let queryStart ← Outcome.okOr (find (· == '?') url) .missingPassword
  let baseUrl ← textSlice url 0 queryStart
  let query ← textSlice url (queryStart + 1) url.utf8ByteSize
  let password ← Outcome.okOr
    ((query.toList.splitOn '&').findSome? (stripPrefix "room_pass=")) .missingPassword
  if password.isEmpty then .err .emptyPassword else return (baseUrl, .ofList password)

/-- 从 URL 中提取 fragment（#后面的名称）. -/
def extractName (url : String) : Outcome ProtocolError (String × String) := do
  let hashPos ← Outcome.okOr (find (· == '#') url) .missingName
  let base ← textSlice url 0 hashPos
  let name ← textSlice url (hashPos + 1) url.utf8ByteSize
  if name.isEmpty then .err .missingName else return (base, name)

/-- 解析地址: the room id, the room name and the password. -/
def parseValidate (parseStr : String → Except String Uuid) (payload : List UInt8) :
    Outcome ProtocolError (Uuid × String × String) := do
  let url ← Outcome.okOr (fromUtf8 payload) .invalidUtf8
  if ¬ "fernq://".toList <+: url.toList then .err (.invalidProtocol url)
  else do
    let (urlWithoutQuery, password) ← extractPassword url
    let (pathPart, name) ← extractName urlWithoutQuery
    let uuid ← extractUuid parseStr pathPart
    return (uuid, name, password)

/-- Searching a separator of one byte and slicing on both sides of it. -/
lemma textSlice_cut {α : Type} {c : Char} (hc : c.utf8Size = 1) (s : String) (e : ProtocolError)
    (f : String → String → Outcome ProtocolError α) :
    (do
      let pos ← Outcome.okOr (find (· == c) s) e
      let front ← textSlice s 0 pos
      let back ← textSlice s (pos + 1) s.utf8ByteSize
      f front back) = (do
        let (front, back) ← Outcome.okOr (splitAtFirst c s) e
        f front back) := by
  cases hcut : splitAtFirst c s with
  | none =>
      rw [find_of_splitAtFirst_eq_none hcut, Outcome.okOr_none, Outcome.err_bind,
        Outcome.okOr_none, Outcome.err_bind]
  | some v =>
      obtain ⟨front, back⟩ := v
      obtain ⟨hfind, hs⟩ := find_of_splitAtFirst hcut
      rw [hfind, Outcome.okOr_some, Outcome.ok_bind, textSlice_before hs, Outcome.ok_bind,
        textSlice_after hc hs, Outcome.ok_bind, Outcome.okOr_some, Outcome.ok_bind]

lemma extractPassword_eq (url : String) : extractPassword url = Fernq.extractPassword url := by
  rw [extractPassword, Fernq.extractPassword]
  exact textSlice_cut rfl url _ _

lemma extractName_eq (url : String) : extractName url = Fernq.extractName url := by
  rw [extractName, Fernq.extractName]
  exact textSlice_cut rfl url _ _

/-- No slice of the server's side aborts. -/
theorem parseValidate_eq (parseStr : String → Except String Uuid) (payload : List UInt8) :
    parseValidate parseStr payload = Fernq.parseValidate parseStr payload := by
  simp only [parseValidate, Fernq.parseValidate, extractPassword_eq, extractName_eq]

/-! ### The client's side -/

/-- 验证IPv4格式. -/
def validateIpv4OrHostname (addr : String) : Outcome ProtocolError String :=
  match rfind (· == ':') addr with
  | some colonPos => do
      let host ← textSlice addr 0 colonPos
      let portStr ← textSlice addr colonPos addr.utf8ByteSize
      let portStr ← textSlice portStr 1 portStr.utf8ByteSize
      match parseUnsigned 16 portStr.toList with
      | some _ =>
          if host.isEmpty then .err (.malformedFrame "empty host before port") else .ok addr
      | none => .err (.invalidPort portStr)
  | none => .ok addr

/-- 验证 IPv6格式. -/
def validateIpv6Address (addr : String) : Outcome ProtocolError String := do
  let closeBracket ← Outcome.okOr (find (· == ']') addr) (.malformedFrame "unclosed IPv6 bracket")
  if closeBracket + 1 < addr.utf8ByteSize then do
    let separator ← textSlice addr (closeBracket + 1) (closeBracket + 2)
    if separator ≠ ":" then .err (.malformedFrame "invalid IPv6 format, expected ]:port")
    else do
      let portStr ← textSlice addr (closeBracket + 2) addr.utf8ByteSize
      if (parseUnsigned 16 portStr.toList).isNone then .err (.invalidPort portStr) else .ok addr
  else .ok addr

/-- 验证地址格式并返回规范化地址. -/
def validateAndNormalizeAddress (addr : String) : Outcome ProtocolError String :=
  if "[".toList <+: addr.toList then validateIpv6Address addr else validateIpv4OrHostname addr

/-- 验证URL格式，返回可直接连接的地址,和编码后可发送的信息帧. -/
def createValidate (name : String) (channelId : ChannelId) (url : String) :
    Outcome ProtocolError (String × List UInt8) :=
  if ¬ "fernq://".toList <+: url.toList then .err (.invalidProtocol url)
  else do
    let rest ← textSlice url "fernq://".utf8ByteSize url.utf8ByteSize
    let addrEnd := (find (· ∈ addressEnd) rest).getD rest.utf8ByteSize
    let addrPart ← textSlice rest 0 addrEnd
    if addrPart.isEmpty then .err .emptyAddress
    else do
      let normalizedAddr ← validateAndNormalizeAddress addrPart
      let frames ← generateMessageDataStream .header true false channelId name "fernq"
        (utf8Bytes url)
      let frame ← singleFrame frames
      return (normalizedAddr, frame)

/-- The host and the port, cut at the colon and after it. -/
lemma textSlice_port {ε α : Type} {addr host portStr : String}
    (haddr : addr = host ++ (String.singleton ':' ++ portStr))
    (f : String → String → Outcome ε α) :
    (do
      let front ← textSlice addr 0 host.utf8ByteSize
      let back ← textSlice addr host.utf8ByteSize addr.utf8ByteSize
      let port ← textSlice back 1 back.utf8ByteSize
      f front port) = f host portStr := by
  have hport : (textSlice (String.singleton ':' ++ portStr) 1
      (String.singleton ':' ++ portStr).utf8ByteSize : Outcome ε String) = .ok portStr :=
    textSlice_right (String.singleton ':') portStr
  rw [textSlice_before haddr, Outcome.ok_bind, textSlice_from haddr, Outcome.ok_bind, hport,
    Outcome.ok_bind]

lemma validateIpv4OrHostname_eq (addr : String) :
    validateIpv4OrHostname addr = Fernq.validateIpv4OrHostname addr := by
  rw [validateIpv4OrHostname, Fernq.validateIpv4OrHostname]
  cases hcut : splitAtLast ':' addr with
  | none => rw [rfind_of_splitAtLast_eq_none hcut]
  | some v =>
      obtain ⟨host, portStr⟩ := v
      obtain ⟨hfind, haddr⟩ := rfind_of_splitAtLast hcut
      rw [hfind]
      dsimp only
      refine (textSlice_port haddr _).trans ?_
      cases parseUnsigned 16 portStr.toList <;> rfl

/-- The text behind the bracket, cut after one byte. -/
lemma textSlice_bracket {ε : Type} {addr inner portStr : String} {c : Char}
    (haddr : addr = inner ++ (String.singleton ']' ++ (String.singleton c ++ portStr))) :
    (textSlice addr (inner.utf8ByteSize + 1) (inner.utf8ByteSize + 2) : Outcome ε String)
      = if c.utf8Size = 1 then .ok (String.singleton c) else .panicked := by
  have hsize : (inner ++ String.singleton ']').utf8ByteSize = inner.utf8ByteSize + 1 := by
    rw [String.utf8ByteSize_append]
    rfl
  have hcut : addr = (inner ++ String.singleton ']') ++ (String.singleton c ++ portStr) := by
    rw [haddr, String.append_assoc]
  rw [hcut, ← hsize]
  split_ifs with hone
  · have h := textSlice_append (ε := ε) (inner ++ String.singleton ']') (String.singleton c) portStr
    rw [String.utf8ByteSize_singleton, hone, hsize] at h
    rw [hsize]
    exact h
  · refine textSlice_of_not_boundary ?_
    intro h
    have hpos := c.utf8Size_pos
    rcases isBoundary_append_iff.mp h with hle | ⟨-, hright⟩
    · have hle := hle.le
      omega
    · rw [hsize, show inner.utf8ByteSize + 2 - (inner.utf8ByteSize + 1) = 1 by omega] at hright
      rcases isBoundary_append_iff.mp hright with hc | ⟨hc, -⟩
      · rcases isBoundary_singleton_iff.mp hc with h0 | h1
        · cases h0
        · exact hone h1.symm
      · rw [String.utf8ByteSize_singleton] at hc
        omega

lemma validateIpv6Address_eq (addr : String) :
    validateIpv6Address addr = Fernq.validateIpv6Address addr := by
  rw [validateIpv6Address, Fernq.validateIpv6Address]
  cases hcut : splitAtFirst ']' addr with
  | none => rw [find_of_splitAtFirst_eq_none hcut]; rfl
  | some v =>
      obtain ⟨inner, rest⟩ := v
      obtain ⟨hfind, haddr⟩ := find_of_splitAtFirst hcut
      have hsize : addr.utf8ByteSize = inner.utf8ByteSize + 1 + rest.utf8ByteSize := by
        rw [haddr, String.utf8ByteSize_append, String.utf8ByteSize_append, ← Nat.add_assoc]
        rfl
      rw [hfind, Outcome.okOr_some, Outcome.ok_bind]
      dsimp only
      cases hrest : rest.toList with
      | nil =>
          obtain rfl : rest = "" := String.toList_injective hrest
          rw [if_neg (by rw [hsize, String.utf8ByteSize_empty]; omega)]
      | cons c portStr =>
          have hsplit : rest = String.singleton c ++ .ofList portStr := by
            rw [← String.ofList_cons, ← hrest, String.ofList_toList]
          have hpos := c.utf8Size_pos
          have hlong : inner.utf8ByteSize + 1 < addr.utf8ByteSize := by
            rw [hsize, hsplit, String.utf8ByteSize_append, String.utf8ByteSize_singleton]
            omega
          rw [if_pos hlong, textSlice_bracket (hsplit ▸ haddr)]
          by_cases hone : c.utf8Size = 1
          · have hport : (textSlice addr (inner.utf8ByteSize + 2) addr.utf8ByteSize
                : Outcome ProtocolError String) = .ok (.ofList portStr) := by
              have hfront : addr = (inner ++ String.singleton ']')
                  ++ (String.singleton c ++ .ofList portStr) := by
                rw [haddr, hsplit, String.append_assoc]
              have hfrontSize : (inner ++ String.singleton ']').utf8ByteSize + 1
                  = inner.utf8ByteSize + 2 := by
                rw [String.utf8ByteSize_append]
                rfl
              rw [← hfrontSize]
              exact textSlice_after hone hfront
            have hsep : String.singleton c ≠ ":" ↔ c ≠ ':' := by
              rw [ne_eq, ne_eq, ← String.toList_inj]
              simp
            have hone' : ¬ c.utf8Size ≠ 1 := not_not.mpr hone
            rw [if_pos hone, Outcome.ok_bind, hport, Outcome.ok_bind, String.toList_ofList]
            dsimp only
            rw [if_neg hone']
            simp only [hsep]
          · have hone' : c.utf8Size ≠ 1 := hone
            rw [if_neg hone, Outcome.panicked_bind]
            dsimp only
            rw [if_pos hone']

lemma validateAndNormalizeAddress_eq (addr : String) :
    validateAndNormalizeAddress addr = Fernq.validateAndNormalizeAddress addr := by
  rw [validateAndNormalizeAddress, Fernq.validateAndNormalizeAddress, validateIpv6Address_eq,
    validateIpv4OrHostname_eq]

/-- The slices of the client's side abort where cutting at characters does. -/
theorem createValidate_eq (name : String) (channelId : ChannelId) (url : String) :
    createValidate name channelId url = Fernq.createValidate name channelId url := by
  rw [createValidate, Fernq.createValidate]
  cases hstrip : stripPrefix "fernq://" url.toList with
  | none => rw [if_pos (stripPrefix_eq_none_iff.mp hstrip)]
  | some rest =>
      have hlist := stripPrefix_eq_some_iff.mp hstrip
      have hurl : url = "fernq://" ++ .ofList rest := by
        apply String.toList_injective
        simp [hlist]
      have hrest : (textSlice url "fernq://".utf8ByteSize url.utf8ByteSize
          : Outcome ProtocolError String) = .ok (.ofList rest) := by
        rw [hurl]
        exact textSlice_right ..
      have haddr := textSlice_find (ε := ProtocolError) (· ∈ addressEnd) (.ofList rest)
      rw [String.toList_ofList] at haddr
      simp only [← decide_not] at haddr
      rw [if_neg (not_not.mpr ⟨rest, hlist.symm⟩), hrest, Outcome.ok_bind]
      dsimp only
      rw [haddr, Outcome.ok_bind, validateAndNormalizeAddress_eq]
      have hempty : ∀ l : List Char, (String.ofList l).isEmpty = l.isEmpty := by
        intro l
        rw [Bool.eq_iff_iff]
        simp
      rw [hempty]

/-! ### The texts that abort -/

section Abort

variable {addr name url : String} {channelId : ChannelId} {rest : List Char}

/-- A text whose address is a bracketed one with a character of several bytes right behind its
first closing bracket. -/
def WideAfterBracket (url : String) : Prop :=
  ∃ (inner : List Char) (c : Char) (rest : List Char),
    url.toList = "fernq://[".toList ++ (inner ++ ']' :: c :: rest) ∧
    (∀ x ∈ inner, x ≠ ']' ∧ x ∉ addressEnd) ∧ 1 < c.utf8Size

lemma validateIpv4OrHostname_ne_panicked (addr : String) :
    Fernq.validateIpv4OrHostname addr ≠ .panicked := by
  rw [Fernq.validateIpv4OrHostname]
  split
  · split
    · split_ifs <;> simp
    · simp
  · simp

/-- The check of a bracketed address aborts at the character behind the bracket. -/
lemma validateIpv6Address_eq_panicked_iff :
    Fernq.validateIpv6Address addr = .panicked ↔
      ∃ (inner : List Char) (c : Char) (rest : List Char),
        addr.toList = inner ++ ']' :: c :: rest ∧ ']' ∉ inner ∧ 1 < c.utf8Size := by
  rw [Fernq.validateIpv6Address]
  constructor
  · intro h
    split at h
    · cases h
    · rename_i inner rest hcut
      obtain ⟨haddr, hinner⟩ := splitAtFirst_eq_some_iff.mp hcut
      split at h
      · cases h
      · rename_i c portStr hrest
        have hpos := c.utf8Size_pos
        split_ifs at h with hwide
        exact ⟨inner.toList, c, portStr, by rw [haddr, hrest], hinner, by omega⟩
  · rintro ⟨inner, c, rest, haddr, hinner, hwide⟩
    have hcut : splitAtFirst ']' addr = some (.ofList inner, .ofList (c :: rest)) := by
      rw [splitAtFirst_eq_some_iff, String.toList_ofList, String.toList_ofList]
      exact ⟨haddr, hinner⟩
    rw [hcut]
    dsimp only
    rw [String.toList_ofList]
    exact if_pos (by omega)

/-- An address that aborts starts with a bracket. -/
lemma validateAndNormalizeAddress_eq_panicked_iff :
    Fernq.validateAndNormalizeAddress addr = .panicked ↔
      ∃ (inner : List Char) (c : Char) (rest : List Char),
        addr.toList = '[' :: (inner ++ ']' :: c :: rest) ∧ ']' ∉ inner ∧ 1 < c.utf8Size := by
  rw [Fernq.validateAndNormalizeAddress]
  constructor
  · intro h
    split_ifs at h with hopen
    · obtain ⟨inner, c, rest, haddr, hinner, hwide⟩ := validateIpv6Address_eq_panicked_iff.mp h
      obtain ⟨tail, htail⟩ := hopen
      rw [haddr] at htail
      cases inner with
      | nil => cases htail
      | cons x inner =>
          obtain ⟨rfl, -⟩ := List.cons_eq_cons.mp htail
          exact ⟨inner, c, rest, haddr, fun hx => hinner (List.mem_cons_of_mem _ hx), hwide⟩
    · exact absurd h (validateIpv4OrHostname_ne_panicked addr)
  · rintro ⟨inner, c, rest, haddr, hinner, hwide⟩
    rw [if_pos ⟨_, haddr.symm⟩, validateIpv6Address_eq_panicked_iff]
    exact ⟨'[' :: inner, c, rest, haddr, by simpa using hinner, hwide⟩

lemma singleFrame_ne_panicked (frames : List (List UInt8)) : singleFrame frames ≠ .panicked := by
  unfold singleFrame
  split <;> simp

/-- Behind the check of the address nothing aborts. -/
lemma createValidate_eq_panicked_iff :
    Fernq.createValidate name channelId url = .panicked ↔
      ∃ rest, url.toList = "fernq://".toList ++ rest ∧
        Fernq.validateAndNormalizeAddress (.ofList (rest.takeWhile (· ∉ addressEnd)))
          = .panicked := by
  rw [Fernq.createValidate]
  cases hstrip : stripPrefix "fernq://" url.toList with
  | none =>
      have hnone := stripPrefix_eq_none_iff.mp hstrip
      refine iff_of_false (by simp) ?_
      rintro ⟨rest, hurl, -⟩
      exact hnone ⟨rest, hurl.symm⟩
  | some rest =>
      have hurl := stripPrefix_eq_some_iff.mp hstrip
      have hrest : ∀ rest', url.toList = "fernq://".toList ++ rest' → rest' = rest := by
        intro rest' h
        exact List.append_cancel_left (h.symm.trans hurl)
      dsimp only
      constructor
      · intro h
        split_ifs at h
        refine ⟨rest, hurl, ?_⟩
        rcases Outcome.bind_eq_panicked.mp h with h | ⟨normalizedAddr, -, h⟩
        · exact h
        · rcases Outcome.bind_eq_panicked.mp h with h | ⟨frames, -, h⟩
          · exact (generateMessageDataStream_ne_panicked _ _ _ _ _ _ _ h).elim
          · rcases Outcome.bind_eq_panicked.mp h with h | ⟨frame, -, h⟩
            · exact absurd h (singleFrame_ne_panicked frames)
            · cases h
      · rintro ⟨rest', hurl', h⟩
        obtain rfl := hrest rest' hurl'
        obtain ⟨inner, c, tail, haddr, -⟩ := validateAndNormalizeAddress_eq_panicked_iff.mp h
        rw [String.toList_ofList] at haddr
        rw [haddr, List.isEmpty_cons, if_neg (by simp), ← haddr, h, Outcome.panicked_bind]

/-- The end of an address is not a character of several bytes. -/
lemma not_mem_addressEnd_of_wide {c : Char} (h : 1 < c.utf8Size) : c ∉ addressEnd := by
  have hone : ∀ d ∈ addressEnd, d.utf8Size = 1 := by
    rintro d hd
    rcases List.mem_cons.mp hd with rfl | hd
    · rfl
    · rcases List.mem_pair.mp hd with rfl | rfl <;> rfl
  intro hc
  have hsize := hone c hc
  omega

/-- **The client's slices.**  The client's side aborts at a single place: it cuts one byte out of
the text behind the closing bracket of an address, whatever character stands there. -/
theorem createValidate_in_bounds_iff (name : String) (channelId : ChannelId) (url : String) :
    createValidate name channelId url ≠ .panicked ↔ ¬ WideAfterBracket url := by
  rw [ne_eq, not_iff_not, createValidate_eq, createValidate_eq_panicked_iff]
  constructor
  · rintro ⟨rest, hurl, h⟩
    obtain ⟨inner, c, tail, haddr, hinner, hwide⟩ :=
      validateAndNormalizeAddress_eq_panicked_iff.mp h
    rw [String.toList_ofList] at haddr
    obtain ⟨back, hback⟩ : rest.takeWhile (· ∉ addressEnd) <+: rest := List.takeWhile_prefix _
    have hmem : ∀ x ∈ inner, x ∈ rest.takeWhile (· ∉ addressEnd) := by
      intro x hx
      rw [haddr]
      exact List.mem_cons_of_mem _ (List.mem_append_left _ hx)
    refine ⟨inner, c, tail ++ back, ?_, ?_, hwide⟩
    · rw [hurl, ← hback, haddr]
      simp
    · intro x hx
      exact ⟨ne_of_mem_of_not_mem hx hinner, by simpa using List.mem_takeWhile_imp (hmem x hx)⟩
  · rintro ⟨inner, c, tail, hurl, hinner, hwide⟩
    refine ⟨'[' :: (inner ++ ']' :: c :: tail), hurl, ?_⟩
    rw [validateAndNormalizeAddress_eq_panicked_iff, String.toList_ofList]
    refine ⟨inner, c, tail.takeWhile (· ∉ addressEnd), ?_, fun h => (hinner _ h).1 rfl, hwide⟩
    have hopen : '[' ∉ addressEnd := by decide
    have hclose : ']' ∉ addressEnd := by decide
    have hc := not_mem_addressEnd_of_wide hwide
    rw [List.takeWhile_cons_of_pos (by simpa using hopen),
      List.takeWhile_append_of_pos (fun x hx => by simpa using (hinner x hx).2),
      List.takeWhile_cons_of_pos (by simpa using hclose),
      List.takeWhile_cons_of_pos (by simpa using hc)]

/-- A URL with a letter of two bytes behind its bracket. -/
theorem wide_letter_is_out_of_bounds :
    createValidate "alice" ⟨⟨List.replicate 16 9, rfl⟩⟩ "fernq://[::1]é" = .panicked := by
  rw [createValidate_eq, createValidate_eq_panicked_iff]
  refine ⟨"[::1]é".toList, by simp, ?_⟩
  rw [validateAndNormalizeAddress_eq_panicked_iff]
  exact ⟨"::1".toList, 'é', [], by decide, by decide, by decide⟩

end Abort

end Sliced

end Fernq
