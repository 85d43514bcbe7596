import Mathlib.Tactic
import Fernq.Protocol.Url

/-!
The address that a client is told to connect to (`create_validate` and
`validate_and_normalize_address` of `fernq-core/src/protocol/validate.rs`).

* `DottedQuad`, `Ipv6Literal`: the literals of the two address families.
* `Accepted`: the addresses that pass the check; `createValidate_eq_ok_iff`.
* `AddressContract`: what the documentation of `create_validate` promises of the address.
* `address_contract_iff`: the URLs on which the promise is kept.
-/

namespace Fernq

/-! ### Literals -/

/-- A decimal byte, without a leading zero. -/
structure Octet (s : List Char) : Prop where
  decimal : Decimal 8 s
  no_zero : s.head? = some '0' → s = ['0']

/-- An IPv4 address: four decimal bytes. -/
def DottedQuad (s : List Char) : Prop :=
  ∃ a b c d, Octet a ∧ Octet b ∧ Octet c ∧ Octet d ∧
    s = a ++ '.' :: (b ++ '.' :: (c ++ '.' :: d))

/-- One to four hexadecimal digits. -/
structure HexGroup (s : List Char) : Prop where
  ne_nil : s ≠ []
  length_le : s.length ≤ 4
  digits : ∀ c ∈ s, c.isHexDigit

/-- The text of `n` units of sixteen bits, separated by colons; an IPv4 address may stand for the
last two. -/
inductive Ipv6Units : ℕ → List Char → Prop where
  | nil : Ipv6Units 0 []
  | group {g : List Char} : HexGroup g → Ipv6Units 1 g
  | quad {q : List Char} : DottedQuad q → Ipv6Units 2 q
  | cons {g rest : List Char} {n : ℕ} : HexGroup g → 0 < n → Ipv6Units n rest →
      Ipv6Units (n + 1) (g ++ ':' :: rest)

/-- An IPv6 address: eight units, or fewer around a double colon. -/
def Ipv6Literal (s : List Char) : Prop :=
  Ipv6Units 8 s ∨ ∃ a b left right, Ipv6Units a left ∧ '.' ∉ left ∧ Ipv6Units b right ∧
    a + b ≤ 7 ∧ s = left ++ ':' :: ':' :: right

section Literals

variable {s : List Char} {c : Char} {n : ℕ}

lemma DottedQuad.mem (h : DottedQuad s) (hc : c ∈ s) : c.isDigit ∨ c = '.' := by
  obtain ⟨w, x, y, z, hw, hx, hy, hz, rfl⟩ := h
  simp only [List.mem_append, List.mem_cons] at hc
  rcases hc with hc | rfl | hc | rfl | hc | rfl | hc
  · exact .inl (hw.decimal.digits c hc)
  · exact .inr rfl
  · exact .inl (hx.decimal.digits c hc)
  · exact .inr rfl
  · exact .inl (hy.decimal.digits c hc)
  · exact .inr rfl
  · exact .inl (hz.decimal.digits c hc)

lemma DottedQuad.not_mem (h : DottedQuad s) (hdigit : c.isDigit = false) (hdot : c ≠ '.') :
    c ∉ s := by
  intro hc
  rcases h.mem hc with hc | hc
  · simp [hdigit] at hc
  · exact hdot hc

lemma Ipv6Units.mem (h : Ipv6Units n s) (hc : c ∈ s) : c.isHexDigit ∨ c = '.' ∨ c = ':' := by
  induction h with
  | nil => cases hc
  | group hg => exact .inl (hg.digits c hc)
  | quad hq =>
      rcases hq.mem hc with hdigit | hdot
      · exact .inl (by simp [Char.isHexDigit, hdigit])
      · exact .inr (.inl hdot)
  | cons hg _ _ ih =>
      rcases List.mem_append.mp hc with hc | hc
      · exact .inl (hg.digits c hc)
      · rcases List.mem_cons.mp hc with rfl | hc
        · exact .inr (.inr rfl)
        · exact ih hc

/-- No closing bracket is in an IPv6 address. -/
lemma Ipv6Literal.not_mem (h : Ipv6Literal s) : ']' ∉ s := by
  have hunits : ∀ n s, Ipv6Units n s → ']' ∉ s := by
    intro n s hs hmem
    exact absurd (hs.mem hmem) (by decide)
  rcases h with h | ⟨a, b, left, right, hleft, -, hright, -, rfl⟩
  · exact hunits _ _ h
  · simp [hunits _ _ hleft, hunits _ _ hright]

end Literals

/-! ### The addresses that pass the check -/

/-- The text between the scheme of a URL and the first `/`, `?` or `#`. -/
def addressPart (url : String) : String :=
  .ofList ((url.toList.drop "fernq://".toList.length).takeWhile (· ∉ addressEnd))

/-- The texts that the check takes for a port: decimal digits, with a plus sign in front or
without. -/
def PortText (port : String) : Prop :=
  Decimal 16 port.toList ∨ ∃ digits : String, port = "+" ++ digits ∧ Decimal 16 digits.toList

/-- An address in brackets. -/
def Bracketed (addr : String) : Prop := "[".toList <+: addr.toList

/-- The addresses that pass the check. -/
inductive Accepted : String → Prop where
  | host {host : String} : ¬ Bracketed host → ':' ∉ host.toList → Accepted host
  | hostPort {host port : String} : ¬ Bracketed (host ++ (":" ++ port)) → host ≠ "" →
      PortText port → Accepted (host ++ (":" ++ port))
  | bracket {inner : String} : ']' ∉ inner.toList → Accepted ("[" ++ (inner ++ "]"))
  | bracketPort {inner port : String} : ']' ∉ inner.toList → PortText port →
      Accepted ("[" ++ (inner ++ ("]" ++ (":" ++ port))))

section Check

variable {addr r inner host port : String}

lemma isSome_parseUnsigned_iff_portText :
    (parseUnsigned 16 port.toList).isSome ↔ PortText port := by
  rw [isSome_parseUnsigned_iff, PortText]
  refine or_congr_right ?_
  constructor
  · rintro ⟨digits, hport, hdecimal⟩
    refine ⟨.ofList digits, ?_, by rwa [String.toList_ofList]⟩
    rw [← String.toList_inj, hport]
    simp
  · rintro ⟨digits, rfl, hdecimal⟩
    exact ⟨digits.toList, by simp, hdecimal⟩

lemma Decimal.not_mem {bits : ℕ} {s : List Char} (h : Decimal bits s) : ':' ∉ s := by
  intro hmem
  exact absurd (h.digits ':' hmem) (by decide)

lemma PortText.not_mem (h : PortText port) : ':' ∉ port.toList := by
  rcases h with h | ⟨digits, rfl, h⟩
  · exact h.not_mem
  · simpa using h.not_mem

lemma bracketed_append (h : host ≠ "") (s : String) : Bracketed (host ++ s) ↔ Bracketed host := by
  have hne : host.toList ≠ [] := by simpa using h
  rw [Bracketed, Bracketed, String.toList_append]
  cases hlist : host.toList with
  | nil => exact absurd hlist hne
  | cons c cs => simp

lemma validateIpv4OrHostname_eq_ok_iff :
    validateIpv4OrHostname addr = .ok r ↔ r = addr ∧ (':' ∉ addr.toList ∨
      ∃ host port, addr = host ++ (":" ++ port) ∧ host ≠ "" ∧ PortText port) := by
  rw [validateIpv4OrHostname]
  cases hcut : splitAtLast ':' addr with
  | none =>
      have hcolon := splitAtLast_eq_none_iff.mp hcut
      simp [hcolon, eq_comm]
  | some v =>
      obtain ⟨host, port⟩ := v
      obtain ⟨haddr, hport⟩ := splitAtLast_eq_some_iff.mp hcut
      have hmem : ':' ∈ addr.toList := by simp [haddr]
      have hcat : addr = host ++ (":" ++ port) := by
        rw [← String.toList_inj, haddr]
        simp
      have hunique : (∃ host' port', addr = host' ++ (":" ++ port') ∧ host' ≠ "" ∧ PortText port')
          ↔ host ≠ "" ∧ PortText port := by
        constructor
        · rintro ⟨host', port', haddr', hne, hport'⟩
          have hcut' : splitAtLast ':' addr = some (host', port') :=
            splitAtLast_append hport'.not_mem (by simp [haddr'])
          rw [hcut, Option.some.injEq, Prod.mk.injEq] at hcut'
          rw [hcut'.1, hcut'.2]
          exact ⟨hne, hport'⟩
        · rintro ⟨hne, hport'⟩
          exact ⟨host, port, hcat, hne, hport'⟩
      rw [hunique, ← isSome_parseUnsigned_iff_portText]
      dsimp only
      cases parseUnsigned 16 port.toList with
      | none => simp [hmem]
      | some value =>
          by_cases hempty : host = ""
          · simp [hempty, hmem]
          · simp [hempty, hmem, Eq.comm (a := r)]

lemma validateIpv6Address_eq_ok_iff :
    validateIpv6Address addr = .ok r ↔ r = addr ∧ ∃ front : String, ']' ∉ front.toList ∧
      (addr = front ++ "]" ∨ ∃ port, addr = front ++ ("]" ++ (":" ++ port)) ∧ PortText port) := by
  have hcut : ∀ front rest : String, ']' ∉ front.toList → addr = front ++ ("]" ++ rest) →
      splitAtFirst ']' addr = some (front, rest) := by
    rintro front rest hfront rfl
    rw [splitAtFirst_eq_some_iff]
    exact ⟨by simp, hfront⟩
  rw [validateIpv6Address]
  constructor
  · intro h
    split at h
    · cases h
    · rename_i front rest hsplit
      obtain ⟨haddr, hfront⟩ := splitAtFirst_eq_some_iff.mp hsplit
      split at h
      · rename_i hnil
        obtain rfl := Outcome.ok.inj h
        refine ⟨rfl, front, hfront, .inl ?_⟩
        rw [← String.toList_inj, haddr, hnil]
        simp
      · rename_i c portStr hcons
        split_ifs at h with hwide hcolon hport
        obtain rfl := Outcome.ok.inj h
        obtain rfl := not_not.mp hcolon
        refine ⟨rfl, front, hfront, .inr ⟨.ofList portStr, ?_, ?_⟩⟩
        · rw [← String.toList_inj, haddr, hcons]
          simp
        · rw [← isSome_parseUnsigned_iff_portText, String.toList_ofList]
          simpa [Option.isSome_iff_ne_none] using hport
  · rintro ⟨rfl, front, hfront, haddr | ⟨port, haddr, hport⟩⟩
    · rw [hcut front "" hfront (by rw [haddr, String.append_empty])]
      rfl
    · rw [hcut front (":" ++ port) hfront haddr]
      have hlist : (":" ++ port).toList = ':' :: port.toList := by simp
      rw [← isSome_parseUnsigned_iff_portText] at hport
      dsimp only
      rw [hlist]
      dsimp only
      rw [if_neg (by decide), if_neg (by simp),
        if_neg (by simpa [Option.isSome_iff_ne_none] using hport)]

lemma bracketed_iff : Bracketed addr ↔ ∃ rest : String, addr = "[" ++ rest := by
  constructor
  · rintro ⟨rest, hrest⟩
    refine ⟨.ofList rest, ?_⟩
    rw [← String.toList_inj, ← hrest]
    simp
  · rintro ⟨rest, rfl⟩
    exact ⟨rest.toList, by simp⟩

/-- An opening bracket is in the front part when the rest does not start with one. -/
lemma exists_inner {front s : String} (h : Bracketed (front ++ s)) (hs : ¬ Bracketed s) :
    ∃ inner, front = "[" ++ inner := by
  by_cases hne : front = ""
  · rw [hne, String.empty_append] at h
    exact absurd h hs
  · exact bracketed_iff.mp ((bracketed_append hne s).mp h)

/-- The check lets an address through unchanged, or not at all. -/
lemma validateAndNormalizeAddress_eq_ok_iff :
    validateAndNormalizeAddress addr = .ok r ↔ r = addr ∧ Accepted addr := by
  rw [validateAndNormalizeAddress]
  split_ifs with hopen
  · rw [validateIpv6Address_eq_ok_iff]
    refine and_congr_right fun _ => ?_
    constructor
    · rintro ⟨front, hfront, rfl | ⟨port, rfl, hport⟩⟩
      · obtain ⟨inner, rfl⟩ := exists_inner hopen (by simp [Bracketed])
        rw [String.append_assoc]
        exact .bracket (by simpa using hfront)
      · obtain ⟨inner, rfl⟩ := exists_inner hopen (by simp [Bracketed])
        rw [String.append_assoc]
        exact .bracketPort (by simpa using hfront) hport
    · intro h
      cases h with
      | host hclosed _ => exact absurd hopen hclosed
      | hostPort hclosed _ _ => exact absurd hopen hclosed
      | @bracket inner hinner =>
          refine ⟨"[" ++ inner, by simpa using hinner, .inl ?_⟩
          rw [String.append_assoc]
      | @bracketPort inner port hinner hport =>
          refine ⟨"[" ++ inner, by simpa using hinner, .inr ⟨port, ?_, hport⟩⟩
          rw [String.append_assoc]
  · rw [validateIpv4OrHostname_eq_ok_iff]
    refine and_congr_right fun _ => ?_
    constructor
    · rintro (hcolon | ⟨host, port, rfl, hne, hport⟩)
      · exact .host hopen hcolon
      · exact .hostPort hopen hne hport
    · intro h
      cases h with
      | host _ hcolon => exact .inl hcolon
      | @hostPort host port _ hne hport => exact .inr ⟨host, port, rfl, hne, hport⟩
      | bracket _ => exact absurd (bracketed_iff.mpr ⟨_, rfl⟩) hopen
      | bracketPort _ _ => exact absurd (bracketed_iff.mpr ⟨_, rfl⟩) hopen

end Check

/-! ### What the client returns -/

section Client

variable {name url addr : String} {channelId : ChannelId} {frame : List UInt8}

/-- The names and URLs that fit one frame. -/
structure Sendable (name url : String) : Prop where
  name_pos : 0 < name.utf8ByteSize
  name_le : name.utf8ByteSize ≤ 128
  url_le : url.utf8ByteSize ≤ 8192 - 41 - name.utf8ByteSize - 5

lemma maxPayloadLen_fernq (name : String) :
    maxPayloadLen name "fernq" = 8192 - 41 - name.utf8ByteSize - 5 := rfl

/-- The frame of a handshake is made for the names and URLs that fit one, and is the whole URL. -/
lemma encode_eq_ok_iff (hurl : 0 < url.utf8ByteSize) :
    (generateMessageDataStream .header true false channelId name "fernq" (utf8Bytes url)
        >>= singleFrame) = .ok frame ↔
      Sendable name url ∧ frame = validateFrame name channelId url := by
  have hmax : maxNameLength = 128 := rfl
  have hsent : Sendable name url →
      (generateMessageDataStream .header true false channelId name "fernq" (utf8Bytes url)
        >>= singleFrame) = .ok (validateFrame name channelId url) := by
    intro h
    have hfits : url.utf8ByteSize ≤ maxPayloadLen name "fernq" := h.url_le
    rw [(validateFrame_carries channelId h.name_pos h.name_le hurl hfits).1, Outcome.ok_bind,
      singleFrame]
  constructor
  · intro h
    have hsendable : Sendable name url := by
      obtain ⟨frames, hframes, -⟩ := Outcome.bind_eq_ok.mp h
      have henc := (generateMessageDataStream_eq_ok_iff.mp hframes).1
      refine ⟨henc.source_pos, henc.source_le, ?_⟩
      by_contra hlong
      obtain ⟨e, he⟩ : ∃ e, (generateMessageDataStream .header true false channelId name "fernq"
          (utf8Bytes url) >>= singleFrame) = .err e :=
        encode_singleFrame_of_lt (by rw [maxPayloadLen_fernq, utf8Bytes_length]; omega)
      rw [he] at h
      cases h
    have hframe := hsent hsendable
    rw [h, Outcome.ok.injEq] at hframe
    exact ⟨hsendable, hframe⟩
  · rintro ⟨hsendable, rfl⟩
    exact hsent hsendable

/-- What the client returns of a URL: the address as it is written, and the frame of the URL. -/
lemma createValidate_eq_ok_iff :
    createValidate name channelId url = .ok (addr, frame) ↔
      "fernq://".toList <+: url.toList ∧ Sendable name url ∧ addressPart url ≠ "" ∧
        Accepted (addressPart url) ∧ addr = addressPart url ∧
        frame = validateFrame name channelId url := by
  rw [createValidate]
  cases hstrip : stripPrefix "fernq://" url.toList with
  | none => exact iff_of_false (by simp) fun h => stripPrefix_eq_none_iff.mp hstrip h.1
  | some rest =>
      have hurl := stripPrefix_eq_some_iff.mp hstrip
      have hscheme : "fernq://".toList <+: url.toList := ⟨rest, hurl.symm⟩
      have hpart : addressPart url = .ofList (rest.takeWhile (· ∉ addressEnd)) := by
        rw [addressPart, hurl, List.drop_left]
      have hsize : 0 < url.utf8ByteSize := by
        rw [Nat.pos_iff_ne_zero, ne_eq, String.utf8ByteSize_eq_zero_iff]
        rintro rfl
        simp at hscheme
      have hempty : (rest.takeWhile (· ∉ addressEnd)).isEmpty = true ↔ addressPart url = "" := by
        rw [hpart]
        simp
      dsimp only
      rw [← hpart]
      split_ifs with hnone
      · exact iff_of_false (by simp) fun h => h.2.2.1 (hempty.mp hnone)
      · constructor
        · intro h
          obtain ⟨normalizedAddr, hvalid, h⟩ := Outcome.bind_eq_ok.mp h
          obtain ⟨rfl, haccepted⟩ := validateAndNormalizeAddress_eq_ok_iff.mp hvalid
          rw [← Outcome.bind_assoc] at h
          obtain ⟨frame', hencode, h⟩ := Outcome.bind_eq_ok.mp h
          obtain ⟨hsendable, rfl⟩ := (encode_eq_ok_iff hsize).mp hencode
          obtain ⟨rfl, rfl⟩ := by simpa using h
          exact ⟨hscheme, hsendable, fun h => hnone (hempty.mpr h), haccepted, rfl, rfl⟩
        · rintro ⟨-, hsendable, -, haccepted, rfl, rfl⟩
          rw [validateAndNormalizeAddress_eq_ok_iff.mpr ⟨rfl, haccepted⟩, Outcome.ok_bind,
            ← Outcome.bind_assoc, (encode_eq_ok_iff hsize).mpr ⟨hsendable, rfl⟩, Outcome.ok_bind,
            Outcome.pure_eq]

end Client

/-! ### The contract -/

/-- An address literal without a port. -/
def BareLiteral (addr : String) : Prop :=
  DottedQuad addr.toList ∨
    ∃ inner : String, addr = "[" ++ (inner ++ "]") ∧ Ipv6Literal inner.toList

/-- An address carries a port: a colon is behind its closing bracket, or in it when it has no
brackets. -/
def CarriesPort (addr : String) : Prop :=
  (∃ inner port : String, ']' ∉ inner.toList ∧
    addr = "[" ++ (inner ++ ("]" ++ (":" ++ port)))) ∨ (¬ Bracketed addr ∧ ':' ∈ addr.toList)

/-- A host and a port. -/
def HostPort (addr : String) : Prop :=
  ∃ host port : String, addr = host ++ (":" ++ port) ∧ ¬ Bracketed addr ∧ host ≠ "" ∧
    ':' ∉ host.toList ∧ Decimal 16 port.toList

/-- An address in brackets and a port. -/
def BracketPort (addr : String) : Prop :=
  ∃ inner port : String, addr = "[" ++ (inner ++ ("]" ++ (":" ++ port))) ∧ inner ≠ "" ∧
    Decimal 16 port.toList

/-- What the documentation of `create_validate` promises: a literal without a port gets the default
port, all else is as it is written, and a port has the form of one. -/
structure AddressContract (written addr : String) : Prop where
  default_port : BareLiteral written → addr = written ++ ":9147"
  as_written : ¬ BareLiteral written → addr = written
  port_form : CarriesPort written → HostPort written ∨ BracketPort written

/-- The addresses that pass the check and for which the promise is not kept: the literals without a
port; several colons without brackets; a plus sign before the port; nothing in the brackets before a
port. -/
inductive OffContract : String → Prop where
  | bare {addr : String} : BareLiteral addr → OffContract addr
  | colons {host port : String} : ¬ Bracketed (host ++ (":" ++ port)) → ':' ∈ host.toList →
      PortText port → OffContract (host ++ (":" ++ port))
  | signed {host digits : String} : ¬ Bracketed (host ++ (":" ++ ("+" ++ digits))) → host ≠ "" →
      Decimal 16 digits.toList → OffContract (host ++ (":" ++ ("+" ++ digits)))
  | bracketSigned {inner digits : String} : ']' ∉ inner.toList → Decimal 16 digits.toList →
      OffContract ("[" ++ (inner ++ ("]" ++ (":" ++ ("+" ++ digits)))))
  | bracketEmpty {port : String} : PortText port →
      OffContract ("[" ++ ("" ++ ("]" ++ (":" ++ port))))

section Contract

variable {addr host host' inner port port' digits : String}

/-- The port is what follows the last colon. -/
lemma last_colon_inj (hport : ':' ∉ port.toList) (hport' : ':' ∉ port'.toList)
    (h : host ++ (":" ++ port) = host' ++ (":" ++ port')) : host = host' ∧ port = port' := by
  have hcut : splitAtLast ':' (host ++ (":" ++ port)) = some (host, port) :=
    splitAtLast_append hport (by simp)
  have hcut' : splitAtLast ':' (host ++ (":" ++ port)) = some (host', port') :=
    splitAtLast_append hport' (by simp [h])
  rw [hcut, Option.some.injEq, Prod.mk.injEq] at hcut'
  exact hcut'

lemma portText_signed (h : Decimal 16 digits.toList) : PortText ("+" ++ digits) :=
  .inr ⟨digits, rfl, h⟩

/-- A port with a sign is not made of digits. -/
lemma not_decimal_signed : ¬ Decimal 16 ("+" ++ digits).toList := by
  intro h
  exact absurd (h.digits '+' (by simp)) (by decide)

lemma BareLiteral.accepted (h : BareLiteral addr) : Accepted addr ∧ addr ≠ "" := by
  rcases h with h | ⟨inner, rfl, h⟩
  · refine ⟨.host ?_ (h.not_mem (by decide) (by decide)), ?_⟩
    · intro hopen
      exact h.not_mem (by decide) (by decide) (hopen.subset (by simp : '[' ∈ "[".toList))
    · rintro rfl
      obtain ⟨w, x, y, z, -, -, -, -, hs⟩ := h
      simp at hs
  · exact ⟨.bracket h.not_mem, by simp⟩

/-- The addresses off the contract are accepted. -/
lemma OffContract.accepted (h : OffContract addr) : Accepted addr ∧ addr ≠ "" := by
  cases h with
  | bare hbare => exact hbare.accepted
  | @colons host port hopen hcolon hport =>
      have hne : host ≠ "" := by
        rintro rfl
        simp at hcolon
      exact ⟨.hostPort hopen hne hport, by simp⟩
  | signed hopen hne hdigits =>
      exact ⟨.hostPort hopen hne (portText_signed hdigits), by simp⟩
  | bracketSigned hinner hdigits =>
      exact ⟨.bracketPort hinner (portText_signed hdigits), by simp⟩
  | bracketEmpty hport => exact ⟨.bracketPort (by simp) hport, by simp⟩

/-- A host and a port, read from the last colon. -/
lemma hostPort_iff (hport : ':' ∉ port.toList) :
    HostPort (host ++ (":" ++ port)) ↔ ¬ Bracketed (host ++ (":" ++ port)) ∧ host ≠ "" ∧
      ':' ∉ host.toList ∧ Decimal 16 port.toList := by
  constructor
  · rintro ⟨host', port', haddr, hopen, hne, hcolon, hdecimal⟩
    obtain ⟨rfl, rfl⟩ := last_colon_inj hport hdecimal.not_mem haddr
    exact ⟨hopen, hne, hcolon, hdecimal⟩
  · rintro ⟨hopen, hne, hcolon, hdecimal⟩
    exact ⟨host, port, rfl, hopen, hne, hcolon, hdecimal⟩

lemma bracketPort_iff (hport : ':' ∉ port.toList) :
    BracketPort ("[" ++ (inner ++ ("]" ++ (":" ++ port)))) ↔
      inner ≠ "" ∧ Decimal 16 port.toList := by
  constructor
  · rintro ⟨inner', port', haddr, hne, hdecimal⟩
    have hassoc : ∀ inner port : String, "[" ++ (inner ++ ("]" ++ (":" ++ port)))
        = ("[" ++ (inner ++ "]")) ++ (":" ++ port) := by
      intro inner port
      simp only [String.append_assoc]
    rw [hassoc, hassoc] at haddr
    obtain ⟨hfront, rfl⟩ := last_colon_inj hport hdecimal.not_mem haddr
    obtain rfl : inner = inner' := by simpa using hfront
    exact ⟨hne, hdecimal⟩
  · rintro ⟨hne, hdecimal⟩
    exact ⟨inner, port, rfl, hne, hdecimal⟩

/-- An address in brackets with a port is not one of a host. -/
lemma not_hostPort_of_bracketed (h : Bracketed addr) : ¬ HostPort addr := by
  rintro ⟨-, -, -, hopen, -⟩
  exact hopen h

lemma not_bracketPort_of_not_bracketed (h : ¬ Bracketed addr) : ¬ BracketPort addr := by
  rintro ⟨inner, port, rfl, -⟩
  exact h (bracketed_iff.mpr ⟨_, rfl⟩)

/-- No address off the contract has what the documentation promises. -/
lemma OffContract.not_contract (h : OffContract addr) : ¬ AddressContract addr addr := by
  intro hcontract
  cases h with
  | bare hbare =>
      have hlen := congrArg String.utf8ByteSize (hcontract.default_port hbare)
      rw [String.utf8ByteSize_append, show (":9147").utf8ByteSize = 5 by decide] at hlen
      omega
  | @colons host port hopen hcolon hport =>
      rcases hcontract.port_form (.inr ⟨hopen, by simp⟩) with h | h
      · exact ((hostPort_iff hport.not_mem).mp h).2.2.1 hcolon
      · exact not_bracketPort_of_not_bracketed hopen h
  | @signed host digits hopen hne hdigits =>
      rcases hcontract.port_form (.inr ⟨hopen, by simp⟩) with h | h
      · exact not_decimal_signed
          ((hostPort_iff (portText_signed hdigits).not_mem).mp h).2.2.2
      · exact not_bracketPort_of_not_bracketed hopen h
  | @bracketSigned inner digits hinner hdigits =>
      rcases hcontract.port_form (.inl ⟨_, _, hinner, rfl⟩) with h | h
      · exact not_hostPort_of_bracketed (bracketed_iff.mpr ⟨_, rfl⟩) h
      · exact not_decimal_signed ((bracketPort_iff (portText_signed hdigits).not_mem).mp h).2
  | @bracketEmpty port hport =>
      rcases hcontract.port_form (.inl ⟨"", _, by simp, rfl⟩) with h | h
      · exact not_hostPort_of_bracketed (bracketed_iff.mpr ⟨_, rfl⟩) h
      · exact ((bracketPort_iff hport.not_mem).mp h).1 rfl

/-- An accepted address that carries a port has the form of one, off the exceptions. -/
lemma Accepted.port_form (h : Accepted addr) (hnot : ¬ OffContract addr)
    (hcarries : CarriesPort addr) : HostPort addr ∨ BracketPort addr := by
  cases h with
  | host hopen hcolon =>
      rcases hcarries with ⟨inner, port, -, rfl⟩ | ⟨-, hmem⟩
      · exact absurd (bracketed_iff.mpr ⟨_, rfl⟩) hopen
      · exact absurd hmem hcolon
  | @hostPort host port hopen hne hport =>
      left
      refine (hostPort_iff hport.not_mem).mpr ⟨hopen, hne, ?_, ?_⟩
      · intro hcolon
        exact hnot (.colons hopen hcolon hport)
      · rcases hport with hdecimal | ⟨digits, rfl, hdigits⟩
        · exact hdecimal
        · exact absurd (.signed hopen hne hdigits) hnot
  | @bracket inner hinner =>
      rcases hcarries with ⟨inner', port, hinner', haddr⟩ | ⟨hopen, -⟩
      · -- nothing is behind the first closing bracket
        have hcut : splitAtFirst ']' (inner ++ "]") = some (inner, "") :=
          splitAtFirst_eq_some_iff.mpr ⟨by simp, hinner⟩
        have hcut' : splitAtFirst ']' (inner ++ "]") = some (inner', ":" ++ port) := by
          rw [(String.append_right_inj "[").mp haddr]
          exact splitAtFirst_eq_some_iff.mpr ⟨by simp, hinner'⟩
        rw [hcut] at hcut'
        simp at hcut'
      · exact absurd (bracketed_iff.mpr ⟨_, rfl⟩) hopen
  | @bracketPort inner port hinner hport =>
      right
      refine (bracketPort_iff hport.not_mem).mpr ⟨?_, ?_⟩
      · rintro rfl
        exact hnot (.bracketEmpty hport)
      · rcases hport with hdecimal | ⟨digits, rfl, hdigits⟩
        · exact hdecimal
        · exact absurd (.bracketSigned hinner hdigits) hnot

/-- **The address of a URL.**  The address that the client is given keeps the promise of the
documentation, unless the URL is sent and its address is one of the exceptions: the code adds no
default port, and its check of a port is wider than the form of one. -/
theorem address_contract_iff (name : String) (channelId : ChannelId) (url : String) :
    (∀ addr frame, createValidate name channelId url = .ok (addr, frame) →
      AddressContract (addressPart url) addr) ↔
    ¬ ("fernq://".toList <+: url.toList ∧ Sendable name url ∧ OffContract (addressPart url)) := by
  constructor
  · rintro h ⟨hscheme, hsendable, hoff⟩
    obtain ⟨haccepted, hne⟩ := hoff.accepted
    exact hoff.not_contract (h _ _ (createValidate_eq_ok_iff.mpr
      ⟨hscheme, hsendable, hne, haccepted, rfl, rfl⟩))
  · intro hnot addr frame hok
    obtain ⟨hscheme, hsendable, -, haccepted, rfl, -⟩ := createValidate_eq_ok_iff.mp hok
    have hoff : ¬ OffContract (addressPart url) := fun h => hnot ⟨hscheme, hsendable, h⟩
    exact ⟨fun h => absurd (.bare h) hoff, fun _ => rfl, haccepted.port_form hoff⟩

/-- An IPv4 address without a port is returned without the default port. -/
theorem bare_ipv4_keeps_no_port :
    let url := "fernq://192.168.1.100/uuid#room?room_pass=secret"
    let channelId : ChannelId := ⟨⟨List.replicate 16 10, rfl⟩⟩
    DottedQuad "192.168.1.100".toList ∧ addressPart url = "192.168.1.100" ∧
      createValidate "alice" channelId url
        = .ok ("192.168.1.100", validateFrame "alice" channelId url) ∧
      ¬ AddressContract (addressPart url) "192.168.1.100" := by
  intro url channelId
  have hoctet : ∀ s ∈ ["192".toList, "168".toList, "1".toList, "100".toList], Octet s := by
    intro s hs
    simp only [List.mem_cons, List.not_mem_nil, or_false] at hs
    rcases hs with rfl | rfl | rfl | rfl <;> exact ⟨⟨by simp, by simp, by decide⟩, by simp⟩
  have hquad : DottedQuad "192.168.1.100".toList :=
    ⟨"192".toList, "168".toList, "1".toList, "100".toList, hoctet _ (by simp), hoctet _ (by simp),
      hoctet _ (by simp), hoctet _ (by simp), by simp⟩
  have hpart : addressPart url = "192.168.1.100" := by
    rw [addressPart, ← String.toList_inj]
    simp [url, addressEnd]
  obtain ⟨haccepted, hne⟩ := BareLiteral.accepted (.inl hquad)
  refine ⟨hquad, hpart, ?_, ?_⟩
  · rw [createValidate_eq_ok_iff, hpart]
    exact ⟨by simp [url], ⟨by decide, by decide, by decide⟩, hne, haccepted, rfl, rfl⟩
  · rw [hpart]
    exact OffContract.not_contract (.bare (.inl hquad))

end Contract

end Fernq
