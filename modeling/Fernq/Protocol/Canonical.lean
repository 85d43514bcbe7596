import Mathlib.Tactic
import Fernq.Protocol.Framing

/-!
One text for each frame: what the decoders accept is what the encoder's loop lays out
(`fernq-core/src/protocol/decoder.rs`, `fernq-core/src/protocol/encoder.rs`).

* `decodeHeader_eq_ok_iff`: the bytes that the header decoder accepts are those of a fixed header.
* `decodeBasic_eq_ok_iff`: the byte strings that `decode_basic` accepts.
* `parseMessage_eq_ok_iff`: the byte strings that `parse_message` accepts, eleven bytes, the fields
  in their range and two bytes.
* `received_iff`, `encoding_canonical`: a frame that both accept is the encoder's frame for what
  they return.
* `checksum_room_iff`: the one short frame whose checksum overlaps its own length field.
-/

namespace Fernq

variable {b cur rest frame : List UInt8} {t : MessageType} {f : MessageFlags} {n : ℕ}

/-! ### The fixed header -/

/-- The checks of version, type and flags pass on the three bytes that stand for them. -/
lemma checkKind_eq_ok_iff (h : 7 ≤ frame.length) :
    checkKind frame = .ok (t, f) ↔ (frame.drop 4).take 3 = [version, t.asU8, f.asU8] := by
  have hcut : (frame.drop 4).take 3 = [frame[4], frame[5], frame[6]] := by
    rw [List.drop_eq_getElem_cons (by omega), List.drop_eq_getElem_cons (by omega),
      List.drop_eq_getElem_cons (by omega)]
    rfl
  have h4 : (index frame magicLen : Outcome ProtocolError UInt8) = .ok frame[4] :=
    index_of_lt (i := 4) (by omega)
  have h5 : (index frame (magicLen + versionLen) : Outcome ProtocolError UInt8) = .ok frame[5] :=
    index_of_lt (i := 5) (by omega)
  have h6 : (index frame (magicLen + versionLen + typeLen) : Outcome ProtocolError UInt8)
      = .ok frame[6] := index_of_lt (i := 6) (by omega)
  rw [hcut, checkKind, h4, h5, h6]
  simp only [Outcome.ok_bind, Outcome.bind_eq_ok, Outcome.pure_eq, Outcome.ok.injEq,
    validateVersion_eq_ok_iff, MessageType.tryFrom_eq_ok_iff, MessageFlags.tryFrom_eq_ok_iff,
    Prod.mk.injEq, List.cons.injEq, and_true]
  constructor
  · rintro ⟨v, ⟨hversion, -⟩, t', htype, f', hflags, rfl, rfl⟩
    exact ⟨hversion, htype, hflags⟩
  · rintro ⟨hversion, htype, hflags⟩
    exact ⟨version, ⟨hversion, rfl⟩, t, htype, f, hflags, rfl, rfl⟩

/-- A fixed header in its parts. -/
lemma frameHead_parts (hn : n < 2 ^ 32) :
    frameHead t f n
      = beEncode 4 magicNumber ++ ([version, t.asU8, f.asU8] ++ beEncode 4 n) := by
  rw [frameHead, asU32_of_lt hn]
  rfl

/-- The first eleven bytes of a buffer, cut where the decoders cut them. -/
lemma take_header (h : 11 ≤ b.length) :
    b.take 11 = b.take 4 ++ ((b.drop 4).take 3 ++ beEncode 4 (announcedLen b)) := by
  have hlen : ((b.drop 7).take 4).length = 4 := by
    rw [List.length_take, List.length_drop]
    omega
  have hfield : (b.drop 7).take 4 = beEncode 4 (announcedLen b) := by
    calc (b.drop 7).take 4
        = beEncode ((b.drop 7).take 4).length (beDecode ((b.drop 7).take 4)) :=
          (beEncode_beDecode _).symm
      _ = beEncode 4 (announcedLen b) := by rw [hlen, announcedLen]
  calc b.take 11 = b.take (4 + (3 + 4)) := rfl
    _ = b.take 4 ++ ((b.drop 4).take 3 ++ ((b.drop 4).drop 3).take 4) := by
        rw [List.take_add, List.take_add]
    _ = b.take 4 ++ ((b.drop 4).take 3 ++ beEncode 4 (announcedLen b)) := by
        rw [List.drop_drop, hfield]

/-- The magic and the three bytes after it are right exactly when the buffer starts with a fixed
header that announces its own length. -/
lemma take_header_eq_iff (h : 11 ≤ b.length) :
    ((∃ magic, validateMagic (b.take 4) = .ok magic) ∧ checkKind b = .ok (t, f))
      ↔ b.take 11 = frameHead t f (announcedLen b) := by
  have h4 : (b.take 4).length = 4 := List.length_take_of_le (by omega)
  have h3 : ((b.drop 4).take 3).length = 3 := by
    rw [List.length_take, List.length_drop]
    omega
  rw [checkKind_eq_ok_iff (by omega), take_header h, frameHead_parts (announcedLen_lt b)]
  constructor
  · rintro ⟨⟨magic, hmagic⟩, hkind⟩
    rw [eq_of_validateMagic hmagic, hkind]
  · intro heq
    obtain ⟨hmagic, htail⟩ := List.append_inj heq h4
    exact ⟨⟨_, hmagic ▸ validateMagic_beEncode⟩, (List.append_inj htail h3).1⟩

lemma announcedLen_eq_of_take (h : b.take 11 = frameHead t f n) (hn : n < 2 ^ 32) :
    announcedLen b = n := by
  have hfield : (b.drop 7).take 4 = (frameHead t f n).drop 7 := by
    rw [← h, List.drop_take]
  rw [announcedLen, hfield, frameHead_parts hn]
  change beDecode (beEncode 4 n) = n
  exact beDecode_beEncode_of_lt hn

/-- The buffers that the header decoder accepts are those that start with a fixed header. -/
theorem decodeHeader_eq_ok_iff (h : 11 ≤ b.length) :
    decodeHeader b = .ok (t, f, n) ↔ b.take 11 = frameHead t f n ∧ n < 2 ^ 32 := by
  rw [decodeHeader_of_le h]
  simp only [Outcome.bind_eq_ok, Prod.exists, Outcome.pure_eq, Outcome.ok.injEq, Prod.mk.injEq]
  constructor
  · rintro ⟨magic, hmagic, t', f', hkind, rfl, rfl, rfl⟩
    exact ⟨(take_header_eq_iff h).mp ⟨⟨magic, hmagic⟩, hkind⟩, announcedLen_lt b⟩
  · rintro ⟨htake, hn⟩
    have hann := announcedLen_eq_of_take htake hn
    rw [← hann] at htake
    obtain ⟨⟨magic, hmagic⟩, hkind⟩ := (take_header_eq_iff h).mpr htake
    exact ⟨magic, hmagic, t, f, hkind, rfl, rfl, hann⟩

/-- The byte strings that `decode_basic` accepts: a frame with a right header and checksum, and
what follows it. -/
theorem decodeBasic_eq_ok_iff :
    decodeBasic b = .ok (t, f, cur, rest) ↔
      b = cur ++ rest ∧ ∃ n < 2 ^ 32, cur.length = 11 + n ∧ cur.take 11 = frameHead t f n ∧
        ChecksumRight cur := by
  constructor
  · intro h
    have hb := append_of_decodeBasic h
    have hlen := length_of_decodeBasic h
    obtain ⟨hmagic, hcheck⟩ := checks_of_decodeBasic h
    obtain ⟨hright, hkind⟩ := checkFrame_eq_ok_iff.mp hcheck
    have hann : announcedLen b = announcedLen cur := by
      rw [← hb, announcedLen_append (by omega)]
    have hmagic' : ∃ magic, validateMagic (cur.take 4) = .ok magic := by
      rwa [← hb, ← take_eq_take_append (by omega)] at hmagic
    refine ⟨hb.symm, announcedLen b, announcedLen_lt b, hlen, ?_, hright⟩
    rw [hann]
    exact (take_header_eq_iff (by omega)).mp ⟨hmagic', hkind⟩
  · rintro ⟨rfl, n, hn, hlen, htake, hright⟩
    have hann := announcedLen_eq_of_take htake hn
    rw [← hann] at htake
    obtain ⟨⟨magic, hmagic⟩, hkind⟩ := (take_header_eq_iff (by omega)).mpr htake
    have hcut : (cur ++ rest).take (11 + announcedLen (cur ++ rest)) = cur := by
      rw [announcedLen_append (by omega), hann, ← hlen, List.take_left]
    have hdrop : (cur ++ rest).drop (11 + announcedLen (cur ++ rest)) = rest := by
      rw [announcedLen_append (by omega), hann, ← hlen, List.drop_left]
    have hd := DecodesTo.frame (b := cur ++ rest) magic t f
      (by rw [announcedLen_append (by omega), hann, List.length_append]; omega)
      (by rwa [← take_eq_take_append (by omega)])
      (by rw [hcut]; exact checkFrame_eq_ok_iff.mpr ⟨hright, hkind⟩)
    rw [hcut, hdrop] at hd
    exact hd.eq

/-! ### The fields of a message -/

section Fields

variable {bytes payload : List UInt8} {header : MessageHeader}

/-- A name that was read is written at the offset, its length before it. -/
lemma drop_of_readName {nameType name : String} {offset next : ℕ}
    (h : readName bytes nameType 2 offset = .ok (name, next)) :
    next = offset + 2 + name.utf8ByteSize ∧ next ≤ bytes.length ∧
      bytes.drop offset
        = beEncode 2 (asU16 name.utf8ByteSize) ++ (utf8Bytes name ++ bytes.drop next) := by
  obtain ⟨htwo, hmax, -, hin, hname, rfl⟩ := readName_eq_ok_iff.mp h
  rw [fromUtf8_eq_some_iff] at hname
  have hsize : name.utf8ByteSize = nameLen bytes offset := by
    rw [← utf8Bytes_length, hname, nameBytes, List.length_take, List.length_drop]
    omega
  have hmax128 : maxNameLength = 128 := rfl
  refine ⟨by omega, hin, ?_⟩
  calc bytes.drop offset
      = beEncode 2 (nameLen bytes offset) ++ bytes.drop (offset + 2) :=
        drop_eq_beEncode_append htwo
    _ = beEncode 2 (nameLen bytes offset)
          ++ (nameBytes bytes offset ++ bytes.drop (offset + 2 + nameLen bytes offset)) := by
        rw [drop_eq_append_drop bytes (offset + 2) (nameLen bytes offset)]
        rfl
    _ = beEncode 2 (asU16 name.utf8ByteSize)
          ++ (utf8Bytes name ++ bytes.drop (offset + 2 + nameLen bytes offset)) := by
        rw [hname, hsize, asU16_of_lt (by omega)]

/-- The counted part of a message frame with these header fields. -/
def MessageHeader.body (header : MessageHeader) (payload : List UInt8) : List UInt8 :=
  messageBody header.channelId header.source header.target header.totalLen header.streamOffset
    payload

/-- The header fields fit their places. -/
def MessageHeader.InRange (header : MessageHeader) : Prop :=
  FieldsInRange header.source header.target header.totalLen header.streamOffset

/-- Every byte between the fixed header and the checksum of a message that was parsed is a byte of
one of its fields. -/
lemma encloses_of_parseMessage (h : parseMessage bytes = .ok (header, payload)) :
    header.InRange ∧ Encloses bytes (header.body payload) := by
  rw [parseMessage] at h
  split_ifs at h with hshort
  have hfixed : messageFixedLen = 41 := rfl
  simp only [Outcome.bind_eq_ok, Prod.exists] at h
  obtain ⟨raw, hraw, id, hid, source, next, hsource, target, next', htarget, total, htotal, offset,
    hoffset, payload', hpayload, h⟩ := h
  cases h
  replace hraw : slice bytes 11 27 = .ok raw := hraw
  replace hsource : readName bytes "source" 2 27 = .ok (source, next) := hsource
  replace hoffset : readBe32 bytes (next' + 4) = .ok offset := hoffset
  replace hpayload : slice bytes (next' + 4 + 4) (bytes.length - 2) = .ok payload := hpayload
  obtain ⟨hsource_pos, hsource_le⟩ := utf8ByteSize_of_readName hsource
  obtain ⟨htarget_pos, htarget_le⟩ := utf8ByteSize_of_readName htarget
  obtain ⟨-, -, hsource⟩ := drop_of_readName hsource
  obtain ⟨-, -, htarget⟩ := drop_of_readName htarget
  obtain ⟨-, htotal_lt, htotal⟩ := drop_of_readBe32 htotal
  obtain ⟨hoffset_le, hoffset_lt, hoffset⟩ := drop_of_readBe32 hoffset
  refine ⟨⟨hsource_pos, hsource_le, htarget_pos, htarget_le, htotal_lt, hoffset_lt⟩,
    bytes.take 11, bytes.drop (bytes.length - 2), List.length_take_of_le (by omega),
    by rw [List.length_drop]; omega, ?_⟩
  -- the payload ends where the checksum starts
  have hend : bytes.drop (next' + 4 + 4) = payload ++ bytes.drop (bytes.length - 2) := by
    have hle : next' + 4 + 4 ≤ bytes.length - 2 := by
      by_contra hlt
      rw [slice_eq_panicked_iff.mpr (.inl (by omega))] at hpayload
      cases hpayload
    rw [slice_of_le hle (by omega), Outcome.ok.injEq] at hpayload
    rw [drop_eq_append_drop bytes _ (bytes.length - 2 - (next' + 4 + 4)), ← hpayload]
    congr 2
    omega
  have hchannel : bytes.drop 11 = id.asBytes ++ bytes.drop 27 := by
    rw [slice_of_le (by omega) (by omega), Outcome.ok.injEq] at hraw
    rw [ChannelId.tryFromSlice_eq_ok_iff.mp hid, ← hraw]
    exact drop_eq_append_drop bytes 11 16
  calc bytes = bytes.take 11 ++ bytes.drop 11 := (List.take_append_drop ..).symm
    _ = bytes.take 11 ++ (messageBody id source target total offset payload
          ++ bytes.drop (bytes.length - 2)) := by
        rw [hchannel, hsource, htarget, htotal, hoffset, hend, messageBody, asU32_of_lt htotal_lt,
          asU32_of_lt hoffset_lt]
        simp only [List.append_assoc]

/-- The byte strings that `parse_message` accepts: eleven bytes, the fields and the payload it
returns, and two bytes. -/
theorem parseMessage_eq_ok_iff :
    parseMessage bytes = .ok (header, payload)
      ↔ header.InRange ∧ Encloses bytes (header.body payload) :=
  ⟨encloses_of_parseMessage, fun h => parseMessage_of_encloses h.1 h.2⟩

/-- The bytes of a frame before its checksum. -/
def MessageHeader.unsealed (header : MessageHeader) (t : MessageType) (f : MessageFlags)
    (payload : List UInt8) : List UInt8 :=
  frameHead t f (messageFixedLen + header.source.utf8ByteSize + header.target.utf8ByteSize
    + payload.length - fixedHeaderLen) ++ header.body payload

/-- The encoder's frame for a header. -/
def MessageHeader.toFrame (header : MessageHeader) (t : MessageType) (f : MessageFlags)
    (payload : List UInt8) : List UInt8 :=
  messageFrame t f header.channelId header.source header.target header.totalLen
    header.streamOffset payload

lemma MessageHeader.toFrame_eq :
    header.toFrame t f payload = sealFrame (header.unsealed t f payload) := rfl

/-- A message that was parsed behind a fixed header of its own length is laid out like the frames
of the encoder, up to its checksum. -/
lemma take_of_parseMessage (hlen : cur.length = 11 + n) (htake : cur.take 11 = frameHead t f n)
    (h : parseMessage cur = .ok (header, payload)) :
    cur.take (cur.length - 2) = header.unsealed t f payload := by
  obtain ⟨-, hencloses⟩ := parseMessage_eq_ok_iff.mp h
  have hbody := hencloses.length
  have hbodyLen : (header.body payload).length
      = 28 + header.source.utf8ByteSize + header.target.utf8ByteSize + payload.length :=
    messageBody_length ..
  obtain ⟨head, crc, hhead, hcrc, rfl⟩ := hencloses
  have hn : messageFixedLen + header.source.utf8ByteSize + header.target.utf8ByteSize
      + payload.length - fixedHeaderLen = n := by
    have hfixed : messageFixedLen = 41 := rfl
    have hfix : fixedHeaderLen = 11 := rfl
    omega
  have hfront : (head ++ (header.body payload ++ crc)).length - 2
      = (head ++ header.body payload).length := by
    simp only [List.length_append, hcrc]
    omega
  rw [List.take_left' hhead] at htake
  rw [MessageHeader.unsealed, hn, ← htake, hfront, ← List.append_assoc, List.take_left]

end Fields

/-! ### The checksum -/

/-- The checksum of a frame is right exactly when the frame is sealed. -/
lemma checksumRight_iff (h : 6 ≤ frame.length) :
    ChecksumRight frame ↔ sealFrame (frame.take (frame.length - 2)) = frame := by
  have hchecked : checkedBytes frame = (frame.take (frame.length - 2)).drop magicLen := by
    rw [checkedBytes, List.drop_take]
  have htwo : (frame.drop (frame.length - 2)).length = 2 := by
    rw [List.length_drop]
    omega
  have hlt : beDecode (frame.drop (frame.length - 2)) < 2 ^ 16 := by
    have hlt := beDecode_lt (frame.drop (frame.length - 2))
    rwa [htwo] at hlt
  have hcut : frame.take (frame.length - 2) ++ frame.drop (frame.length - 2) = frame :=
    List.take_append_drop ..
  rw [ChecksumRight, hchecked, storedCrc, sealFrame]
  constructor
  · intro hright
    rw [hright, BitVec.toNat_ofNat, Nat.mod_eq_of_lt hlt]
    have hcrc := beEncode_beDecode (frame.drop (frame.length - 2))
    rw [htwo] at hcrc
    rw [hcrc, hcut]
  · intro hsealed
    have hcrc : beEncode 2 (netCrc ((frame.take (frame.length - 2)).drop magicLen)).toNat
        = frame.drop (frame.length - 2) := List.append_cancel_left (hsealed.trans hcut.symm)
    rw [← hcrc, beDecode_beEncode_of_lt (BitVec.isLt _), BitVec.ofNat_toNat, BitVec.setWidth_eq]

/-! ### The encoder's frame -/

section Received

variable {header : MessageHeader} {payload : List UInt8}

/-- The frames that reach the fields of a message are the encoder's frames for these fields. -/
theorem received_iff :
    (decodeBasic b = .ok (t, f, cur, rest) ∧ parseMessage cur = .ok (header, payload)) ↔
      b = cur ++ rest ∧ cur = header.toFrame t f payload ∧ header.InRange ∧
        cur.length < 2 ^ 32 + fixedHeaderLen := by
  have hfix : fixedHeaderLen = 11 := rfl
  have hfixed : messageFixedLen = 41 := rfl
  constructor
  · rintro ⟨hdec, hparse⟩
    obtain ⟨hb, n, hn, hlen, htake, hright⟩ := decodeBasic_eq_ok_iff.mp hdec
    obtain ⟨hrange, hencloses⟩ := parseMessage_eq_ok_iff.mp hparse
    refine ⟨hb, ?_, hrange, by omega⟩
    rw [MessageHeader.toFrame_eq, ← take_of_parseMessage hlen htake hparse]
    exact ((checksumRight_iff (by omega)).mp hright).symm
  · rintro ⟨hb, hcur, hrange, hsmall⟩
    have hencloses : Encloses cur (header.body payload) := by
      rw [hcur]
      exact encloses_messageFrame ..
    have hlen := hencloses.length
    have hbody : (header.body payload).length + crcLen = messageFixedLen
        + header.source.utf8ByteSize + header.target.utf8ByteSize + payload.length
          - fixedHeaderLen := by
      rw [MessageHeader.body, messageBody_length, show crcLen = 2 from rfl]
      omega
    have hdec := decodeBasic_sealFrame (t := t) (f := f) hbody (by omega) rest
    refine ⟨?_, parseMessage_eq_ok_iff.mpr ⟨hrange, hencloses⟩⟩
    rw [hb, hcur]
    exact hdec

/-- **The encoding of a frame is canonical.**  A frame that `decode_basic` and `parse_message`
accept is, byte for byte, what the encoder's loop lays out for the type, flags, header and payload
they return, and the only frame for which they return these. -/
theorem encoding_canonical (hdec : decodeBasic b = .ok (t, f, cur, rest))
    (hparse : parseMessage cur = .ok (header, payload)) :
    messageFrame t f header.channelId header.source header.target header.totalLen
        header.streamOffset payload = cur ∧
      ∀ b' cur' rest', decodeBasic b' = .ok (t, f, cur', rest') →
        parseMessage cur' = .ok (header, payload) → cur' = cur := by
  have hcur : cur = header.toFrame t f payload := (received_iff.mp ⟨hdec, hparse⟩).2.1
  refine ⟨hcur.symm, ?_⟩
  intro b' cur' rest' hdec' hparse'
  rw [(received_iff.mp ⟨hdec', hparse'⟩).2.1, hcur]

def soloChannel : ChannelId := ⟨⟨List.replicate 16 8, rfl⟩⟩

/-- A frame with one byte of payload. -/
def byteFrame : List UInt8 :=
  messageFrame .body (.new true false false) soloChannel "a" "b" 1 0 [5]

/-- The frame is accepted, and so it is the only one for its fields. -/
theorem encoding_canonical_byte :
    messageFrame .body (.new true false false) soloChannel "a" "b" 1 0 [5] = byteFrame ∧
      ∀ b' cur' rest', decodeBasic b' = .ok (.body, .new true false false, cur', rest') →
        parseMessage cur' = .ok (⟨soloChannel, "a", "b", 1, 0⟩, [5]) → cur' = byteFrame := by
  have hfit : FieldsFit "a" "b" 1 0 [5] :=
    ⟨by decide, by decide, by decide, by decide, by decide, by decide, by decide⟩
  have hdec : decodeBasic (byteFrame ++ [])
      = .ok (.body, .new true false false, byteFrame, []) := by
    rw [byteFrame]
    exact decodeBasic_messageFrame hfit []
  have hparse : parseMessage byteFrame = .ok (⟨soloChannel, "a", "b", 1, 0⟩, [5]) := by
    rw [byteFrame]
    exact parseMessage_messageFrame hfit
  have hcanonical := encoding_canonical hdec hparse
  exact hcanonical

end Received

/-! ### Short frames -/

/-- The checksum of an accepted frame has a place of its own behind the fixed header. -/
structure ChecksumApart (b cur : List UInt8) : Prop where
  length_ge : fixedHeaderLen + crcLen ≤ cur.length
  announced_ge : 2 ≤ announcedLen b
  crcOffset_ge : fixedHeaderLen ≤ cur.length - crcLen

/-- A frame that announces one byte, which is the second byte of its checksum: the first one is the
last byte of the frame length. -/
def shortFrame : List UInt8 := frameHead .body (.new false false false) 1 ++ [0x23]

/-- No fixed header that announces nothing ends in its own checksum. -/
lemma not_checksumRight_frameHead (t : MessageType) (s c r : Bool) :
    ¬ ChecksumRight (frameHead t (.new s c r) 0) := by
  cases t <;> cases s <;> cases c <;> cases r <;> decide +kernel

/-- The checksum of a fixed header that announces one byte, without the last byte, starts with
that byte for one type and flags alone. -/
lemma netCrc_frameHead_one (t : MessageType) (s c r : Bool) :
    (netCrc (((frameHead t (.new s c r) 1).drop 4).take 6)).toNat / 256 = 1 ↔
      t = .body ∧ s = false ∧ c = false ∧ r = false := by
  cases t <;> cases s <;> cases c <;> cases r <;> decide +kernel

/-- The only frame of twelve bytes with a right checksum. -/
lemma checksumRight_twelve_iff (t : MessageType) (s c r : Bool) (x : UInt8) :
    ChecksumRight (frameHead t (.new s c r) 1 ++ [x]) ↔
      t = .body ∧ s = false ∧ c = false ∧ r = false ∧ x = 0x23 := by
  have hx := x.toNat_lt
  -- the last byte of the frame length and the byte after it are read as the checksum
  have hstored : (storedCrc (frameHead t (.new s c r) 1 ++ [x])).toNat = 256 + x.toNat := by
    have hpair : (frameHead t (.new s c r) 1 ++ [x]).drop 10 = [1, x] := rfl
    rw [storedCrc, show (frameHead t (.new s c r) 1 ++ [x]).length - 2 = 10 from rfl, hpair,
      BitVec.toNat_ofNat]
    simp [beDecode]
    omega
  have hchecked : checkedBytes (frameHead t (.new s c r) 1 ++ [x])
      = ((frameHead t (.new s c r) 1).drop 4).take 6 := rfl
  rw [ChecksumRight, ← BitVec.toNat_inj, hstored, hchecked]
  have hone := netCrc_frameHead_one t s c r
  constructor
  · intro heq
    obtain ⟨rfl, rfl, rfl, rfl⟩ := hone.mp (by omega)
    have hvalue : (netCrc (((frameHead .body (.new false false false) 1).drop 4).take 6)).toNat
        = 256 + 0x23 := by decide +kernel
    refine ⟨rfl, rfl, rfl, rfl, UInt8.toNat_inj.mp ?_⟩
    rw [hvalue] at heq
    exact (Nat.add_left_cancel heq).symm
  · rintro ⟨rfl, rfl, rfl, rfl, rfl⟩
    decide +kernel

/-- An accepted frame with less than two bytes behind its header is the short frame. -/
lemma eq_shortFrame_of_decodeBasic (h : decodeBasic b = .ok (t, f, cur, rest))
    (hlen : cur.length < 13) : cur = shortFrame := by
  obtain ⟨-, n, hn, hcur, htake, hright⟩ := decodeBasic_eq_ok_iff.mp h
  have hsplit : cur = frameHead t f n ++ cur.drop 11 := by
    rw [← htake, List.take_append_drop]
  have htail : (cur.drop 11).length = n := by
    rw [List.length_drop]
    omega
  rw [MessageFlags.eq_new f] at hsplit
  obtain rfl | rfl : n = 0 ∨ n = 1 := by omega
  · rw [List.eq_nil_of_length_eq_zero htail, List.append_nil] at hsplit
    rw [hsplit] at hright
    exact absurd hright (not_checksumRight_frameHead _ _ _ _)
  · obtain ⟨x, hx⟩ := List.length_eq_one_iff.mp htail
    rw [hx] at hsplit
    rw [hsplit] at hright ⊢
    obtain ⟨rfl, hs, hc, hr, rfl⟩ := (checksumRight_twelve_iff ..).mp hright
    rw [hs, hc, hr]
    rfl

lemma decodeBasic_shortFrame (rest : List UInt8) :
    decodeBasic (shortFrame ++ rest)
      = .ok (.body, .new false false false, shortFrame, rest) := by
  rw [decodeBasic_eq_ok_iff]
  exact ⟨rfl, 1, by decide, rfl, rfl, (checksumRight_twelve_iff ..).mpr (by decide)⟩

/-- **Room for the checksum.**  Every frame that `decode_basic` accepts has room for its checksum
behind the fixed header, except the one frame of twelve bytes whose checksum begins inside its own
length field. -/
theorem checksum_room_iff (b : List UInt8) :
    (∀ t f cur rest, decodeBasic b = .ok (t, f, cur, rest) → ChecksumApart b cur) ↔
      ¬ shortFrame <+: b := by
  constructor
  · rintro h ⟨rest, rfl⟩
    exact absurd (h _ _ _ _ (decodeBasic_shortFrame rest)).length_ge (by decide)
  · intro hshort t f cur rest h
    have hlen := length_of_decodeBasic h
    have hlong : 13 ≤ cur.length := by
      by_contra hlt
      have hcur := eq_shortFrame_of_decodeBasic h (by omega)
      exact hshort ⟨rest, hcur ▸ append_of_decodeBasic h⟩
    exact ⟨hlong, by omega, Nat.le_sub_of_add_le hlong⟩

/-- The short frame is accepted, with two bytes read as its checksum of which the first is the last
byte of the frame length. -/
theorem shortFrame_is_accepted :
    decodeBasic shortFrame = .ok (.body, .new false false false, shortFrame, []) ∧
      announcedLen shortFrame = 1 ∧
      ¬ ∀ t f cur rest, decodeBasic shortFrame = .ok (t, f, cur, rest) →
        ChecksumApart shortFrame cur := by
  have hdec := decodeBasic_shortFrame []
  rw [List.append_nil] at hdec
  exact ⟨hdec, by decide, fun h => absurd (h _ _ _ _ hdec).length_ge (by decide)⟩

end Fernq
