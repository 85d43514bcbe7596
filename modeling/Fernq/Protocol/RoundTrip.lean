import Mathlib.Tactic
import Fernq.Base.Stream
import Fernq.Protocol.Encoder
import Fernq.Protocol.Decoder

/-!
The decoders undo the encoders.

* `decodeBasic_sealFrame`: any frame with a correct head and checksum is read off the
  front of a byte string, whatever follows it.
* `parseMessage_of_encloses`: the fields of a message are read back from between any eleven bytes
  and any two; `parseMessage_messageFrame`, `getChannelId_messageFrame`,
  `getMessageSourceTarget_messageFrame` are the frames of the encoder.
* `framing_round_trip`: over the concatenated frames of any number of messages,
  repeated decoding returns the frames in order, and each frame says which part of
  which message it carries.
* `endsOnce_iff`: the accepted messages with exactly one end.
-/

namespace Fernq

/-! ### One frame -/

section Frame

variable {t : MessageType} {f : MessageFlags} {len : ℕ} {body : List UInt8}

/-- The bytes before the frame length. -/
def framePrefix (t : MessageType) (f : MessageFlags) : List UInt8 :=
  beEncode 4 magicNumber ++ [version, t.asU8, f.asU8]

/-- The checksum of a frame, as it is written. -/
def frameCrc (frame : List UInt8) : List UInt8 := beEncode 2 (netCrc (frame.drop magicLen)).toNat

lemma frameHead_eq (hlen : len < 2 ^ 32) :
    frameHead t f len = framePrefix t f ++ beEncode 4 len := by
  simp [frameHead, framePrefix, asU32_of_lt hlen]

/-- The magic comes first, and what is checked comes after it. -/
lemma frameHead_append_eq (body : List UInt8) :
    frameHead t f len ++ body
      = beEncode 4 magicNumber ++ (frameHead t f len ++ body).drop magicLen := by
  simp [frameHead, magicLen]

/-- A sealed frame is read off the front of any byte string. -/
theorem decodeBasic_sealFrame (hbody : body.length + crcLen = len) (hlen : len < 2 ^ 32)
    (s : List UInt8) :
    decodeBasic (sealFrame (frameHead t f len ++ body) ++ s)
      = .ok (t, f, sealFrame (frameHead t f len ++ body), s) := by
  set unsealed := frameHead t f len ++ body with hunsealed
  set frame := sealFrame unsealed with hframe
  have hfix : fixedHeaderLen = 11 := rfl
  have hcrcLen : crcLen = 2 := rfl
  have hulen : unsealed.length = fixedHeaderLen + len - 2 := by
    rw [hunsealed, List.length_append, frameHead_length]
    omega
  have hflen : frame.length = fixedHeaderLen + len := by
    rw [hframe, sealFrame_length]
    omega
  have hall : (frame ++ s).length = fixedHeaderLen + len + s.length := by
    rw [List.length_append, hflen]
  -- the three ways the decoder looks at the bytes
  have hcut : frame ++ s
      = framePrefix t f ++ (beEncode 4 len ++ (body ++ (frameCrc unsealed ++ s))) := by
    simp only [hframe, sealFrame, hunsealed, frameHead_eq hlen, frameCrc, List.append_assoc]
  have hmagic : frame ++ s
      = beEncode 4 magicNumber ++ (unsealed.drop magicLen ++ (frameCrc unsealed ++ s)) := by
    rw [hframe, sealFrame, ← List.append_assoc, ← List.append_assoc, ← frameHead_append_eq]
    rfl
  have hchecked : frame
      = beEncode 4 magicNumber ++ (unsealed.drop magicLen ++ frameCrc unsealed) := by
    rw [← List.append_assoc, ← frameHead_append_eq]
    rfl
  have hbyte : ∀ i < 7,
      (index (frame ++ s) i : Outcome ProtocolError UInt8) = index (framePrefix t f) i := by
    intro i hi
    rw [hcut, index_append_left hi]
  have hhead : (slice (frame ++ s) 0 magicLen : Outcome ProtocolError (List UInt8))
      = .ok (beEncode 4 magicNumber) := by
    rw [hmagic]
    exact slice_append_left rfl
  have hread : (readBe32 (frame ++ s) (magicLen + versionLen + typeLen + flagsLen)
      : Outcome ProtocolError ℕ) = .ok len := by
    rw [hcut]
    exact readBe32_append rfl (by omega)
  have hrange : (slice frame magicLen (fixedHeaderLen + len - 2)
      : Outcome ProtocolError (List UInt8)) = .ok (unsealed.drop magicLen) := by
    rw [hchecked]
    refine slice_append rfl ?_
    rw [List.length_drop, hulen]
    simp only [magicLen]
    omega
  have hreceived : (readBe16 frame (fixedHeaderLen + len - 2) : Outcome ProtocolError ℕ)
      = .ok (netCrc (unsealed.drop magicLen)).toNat := by
    have h := readBe16_append (ε := ProtocolError) (s := []) hulen
      (netCrc (unsealed.drop magicLen)).isLt
    rwa [List.append_nil] at h
  rw [decodeBasic, if_neg (by omega), hhead, Outcome.ok_bind, validateMagic_beEncode,
    Outcome.ok_bind, hread, Outcome.ok_bind, checkedAdd_of_lt (by omega), Outcome.okOr_some,
    Outcome.ok_bind, if_neg (by omega), slice_append_left hflen, Outcome.ok_bind,
    slice_append_right hflen, Outcome.ok_bind, checkedSub_of_le (by omega), Outcome.okOr_some,
    Outcome.ok_bind, hrange, Outcome.ok_bind, hreceived, Outcome.ok_bind, if_neg (by simp),
    hbyte _ (by decide), hbyte _ (by decide), hbyte _ (by decide)]
  change (do
    let _ ← validateVersion version
    let msgType ← MessageType.tryFrom t.asU8
    let flags ← MessageFlags.tryFrom f.asU8
    return (msgType, flags, frame, s)) = _
  rw [validateVersion_version, Outcome.ok_bind, MessageType.tryFrom_asU8, Outcome.ok_bind,
    MessageFlags.tryFrom_asU8, Outcome.ok_bind, Outcome.pure_eq]

end Frame

/-! ### The fields of a message frame -/

/-- A name with its length before it is read back. -/
lemma readName_append {p q : List UInt8} {offset : ℕ} (nameType : String) (name : String)
    (hp : p.length = offset) (hpos : 0 < name.utf8ByteSize)
    (hle : name.utf8ByteSize ≤ maxNameLength) :
    readName (p ++ (beEncode 2 (asU16 name.utf8ByteSize) ++ (utf8Bytes name ++ q))) nameType 2
        offset
      = .ok (name, offset + 2 + name.utf8ByteSize) := by
  have hmax : maxNameLength = 128 := rfl
  have hu16 : asU16 name.utf8ByteSize = name.utf8ByteSize := asU16_of_lt (by omega)
  have hraw : (slice (p ++ (beEncode 2 name.utf8ByteSize ++ (utf8Bytes name ++ q))) (offset + 2)
      (offset + 2 + name.utf8ByteSize) : Outcome ProtocolError (List UInt8))
      = .ok (utf8Bytes name) := by
    rw [← List.append_assoc]
    exact slice_append (by simp [hp]) (by simp)
  rw [hu16, readName, readBe16_append hp (by omega), Outcome.ok_bind, if_neg (by omega),
    if_neg hpos.ne', hraw, Outcome.ok_bind, fromUtf8_utf8Bytes, Outcome.okOr_some,
    Outcome.ok_bind, Outcome.pure_eq]

section Message

variable {t : MessageType} {f : MessageFlags} {id : ChannelId} {src tgt : String}
  {total offset : ℕ} {payload : List UInt8}

/-- The arguments of the encoder's loop that fit their fields. -/
structure FieldsFit (src tgt : String) (total offset : ℕ) (payload : List UInt8) : Prop where
  source_pos : 0 < src.utf8ByteSize
  source_le : src.utf8ByteSize ≤ maxNameLength
  target_pos : 0 < tgt.utf8ByteSize
  target_le : tgt.utf8ByteSize ≤ maxNameLength
  total_lt : total < 2 ^ 32
  offset_lt : offset < 2 ^ 32
  payload_le : payload.length ≤ maxFrameSize

/-- A message frame is read off the front of any byte string. -/
theorem decodeBasic_messageFrame (h : FieldsFit src tgt total offset payload)
    (s : List UInt8) :
    decodeBasic (messageFrame t f id src tgt total offset payload ++ s)
      = .ok (t, f, messageFrame t f id src tgt total offset payload, s) := by
  have hs := h.source_le
  have ht := h.target_le
  have hp := h.payload_le
  simp only [maxNameLength, maxFrameSize] at hs ht hp
  refine decodeBasic_sealFrame ?_ ?_ s
  · rw [messageBody_length]
    simp only [messageFixedLen, fixedHeaderLen, magicLen, versionLen, typeLen, flagsLen,
      frameLengthLen, channelIdLen, sourceLenSize, targetLenSize, totalStreamLen,
      streamOffsetLen, crcLen]
    omega
  · simp only [messageFixedLen, fixedHeaderLen, magicLen, versionLen, typeLen, flagsLen,
      frameLengthLen, channelIdLen, sourceLenSize, targetLenSize, totalStreamLen,
      streamOffsetLen, crcLen]
    omega

/-- `body` stands between the eleven bytes of a fixed header and the two of a checksum. -/
def Encloses (bytes body : List UInt8) : Prop :=
  ∃ head crc : List UInt8, head.length = 11 ∧ crc.length = 2 ∧ bytes = head ++ (body ++ crc)

/-- The header fields a frame has room for. -/
structure FieldsInRange (src tgt : String) (total offset : ℕ) : Prop where
  source_pos : 0 < src.utf8ByteSize
  source_le : src.utf8ByteSize ≤ maxNameLength
  target_pos : 0 < tgt.utf8ByteSize
  target_le : tgt.utf8ByteSize ≤ maxNameLength
  total_lt : total < 2 ^ 32
  offset_lt : offset < 2 ^ 32

lemma FieldsFit.inRange (h : FieldsFit src tgt total offset payload) :
    FieldsInRange src tgt total offset :=
  ⟨h.source_pos, h.source_le, h.target_pos, h.target_le, h.total_lt, h.offset_lt⟩

variable (t f id src tgt total offset payload) in
lemma encloses_messageFrame :
    Encloses (messageFrame t f id src tgt total offset payload)
      (messageBody id src tgt total offset payload) := by
  set head := frameHead t f (messageFixedLen + src.utf8ByteSize + tgt.utf8ByteSize
    + payload.length - fixedHeaderLen) with hhead
  refine ⟨head, frameCrc (head ++ messageBody id src tgt total offset payload),
    frameHead_length _ _ _, beEncode_length 2 _, ?_⟩
  rw [messageFrame, sealFrame, List.append_assoc]
  rfl

section Enclosed

variable {bytes : List UInt8}

lemma Encloses.length (h : Encloses bytes (messageBody id src tgt total offset payload)) :
    bytes.length = 41 + src.utf8ByteSize + tgt.utf8ByteSize + payload.length := by
  obtain ⟨head, crc, hhead, hcrc, rfl⟩ := h
  rw [List.length_append, List.length_append, messageBody_length, hhead, hcrc]
  omega

lemma Encloses.not_short (h : Encloses bytes (messageBody id src tgt total offset payload)) :
    ¬ bytes.length < messageFixedLen := by
  rw [h.length, show messageFixedLen = 41 from rfl]
  omega

lemma slice_channelId_of_encloses
    (h : Encloses bytes (messageBody id src tgt total offset payload)) :
    (slice bytes fixedHeaderLen (fixedHeaderLen + channelIdLen)
      : Outcome ProtocolError (List UInt8)) = .ok id.asBytes := by
  obtain ⟨head, crc, hhead, -, rfl⟩ := h
  rw [messageBody, List.append_assoc]
  exact slice_append hhead (by rw [ChannelId.asBytes_length]; rfl)

lemma readName_source_of_encloses (hfit : FieldsInRange src tgt total offset)
    (h : Encloses bytes (messageBody id src tgt total offset payload)) :
    readName bytes "source" sourceLenSize (fixedHeaderLen + channelIdLen)
      = .ok (src, 29 + src.utf8ByteSize) := by
  obtain ⟨head, crc, hhead, -, rfl⟩ := h
  simp only [messageBody, List.append_assoc]
  rw [← List.append_assoc head]
  exact readName_append "source" src (by simp [hhead, fixedHeaderLen, channelIdLen, magicLen,
    versionLen, typeLen, flagsLen, frameLengthLen]) hfit.source_pos hfit.source_le

lemma readName_target_of_encloses (hfit : FieldsInRange src tgt total offset)
    (h : Encloses bytes (messageBody id src tgt total offset payload)) :
    readName bytes "target" targetLenSize (29 + src.utf8ByteSize)
      = .ok (tgt, 31 + src.utf8ByteSize + tgt.utf8ByteSize) := by
  obtain ⟨head, crc, hhead, -, rfl⟩ := h
  have hsplit : head ++ (messageBody id src tgt total offset payload ++ crc)
      = (head ++ id.asBytes ++ beEncode 2 (asU16 src.utf8ByteSize) ++ utf8Bytes src) ++
        (beEncode 2 (asU16 tgt.utf8ByteSize) ++ (utf8Bytes tgt ++ (beEncode 4 (asU32 total) ++
          (beEncode 4 (asU32 offset) ++ (payload ++ crc))))) := by
    simp only [messageBody, List.append_assoc]
  rw [hsplit, targetLenSize, readName_append "target" tgt (by simp [hhead]; omega)
    hfit.target_pos hfit.target_le, Outcome.ok.injEq, Prod.mk.injEq]
  exact ⟨rfl, by omega⟩

/-- The fields of an enclosed message and its payload are read back. -/
theorem parseMessage_of_encloses (hfit : FieldsInRange src tgt total offset)
    (h : Encloses bytes (messageBody id src tgt total offset payload)) :
    parseMessage bytes = .ok (⟨id, src, tgt, total, offset⟩, payload) := by
  have hlen := h.length
  have hchannel := slice_channelId_of_encloses h
  have hsource := readName_source_of_encloses hfit h
  have htarget := readName_target_of_encloses hfit h
  have hshort := h.not_short
  obtain ⟨head, crc, hhead, hcrc, heq⟩ := h
  have htotal : (readBe32 bytes (31 + src.utf8ByteSize + tgt.utf8ByteSize)
      : Outcome ProtocolError ℕ) = .ok total := by
    have hsplit : bytes
        = (head ++ id.asBytes ++ beEncode 2 (asU16 src.utf8ByteSize) ++ utf8Bytes src ++
            beEncode 2 (asU16 tgt.utf8ByteSize) ++ utf8Bytes tgt) ++
          (beEncode 4 total ++ (beEncode 4 (asU32 offset) ++ (payload ++ crc))) := by
      simp only [heq, messageBody, asU32_of_lt hfit.total_lt, List.append_assoc]
    rw [hsplit]
    exact readBe32_append (by simp [hhead]; omega) (by have := hfit.total_lt; omega)
  have hoffset : (readBe32 bytes (31 + src.utf8ByteSize + tgt.utf8ByteSize + totalStreamLen)
      : Outcome ProtocolError ℕ) = .ok offset := by
    have hsplit : bytes
        = (head ++ id.asBytes ++ beEncode 2 (asU16 src.utf8ByteSize) ++ utf8Bytes src ++
            beEncode 2 (asU16 tgt.utf8ByteSize) ++ utf8Bytes tgt ++ beEncode 4 (asU32 total)) ++
          (beEncode 4 offset ++ (payload ++ crc)) := by
      simp only [heq, messageBody, asU32_of_lt hfit.offset_lt, List.append_assoc]
    rw [hsplit]
    exact readBe32_append (by simp [hhead, totalStreamLen]; omega)
      (by have := hfit.offset_lt; omega)
  have hpayload : (slice bytes
      (31 + src.utf8ByteSize + tgt.utf8ByteSize + totalStreamLen + streamOffsetLen)
      (bytes.length - 2) : Outcome ProtocolError (List UInt8)) = .ok payload := by
    have hsplit : bytes
        = (head ++ id.asBytes ++ beEncode 2 (asU16 src.utf8ByteSize) ++ utf8Bytes src ++
            beEncode 2 (asU16 tgt.utf8ByteSize) ++ utf8Bytes tgt ++ beEncode 4 (asU32 total) ++
            beEncode 4 (asU32 offset)) ++ (payload ++ crc) := by
      simp only [heq, messageBody, List.append_assoc]
    rw [hlen, hsplit]
    exact slice_append (by simp [hhead, totalStreamLen, streamOffsetLen]; omega)
      (by simp only [totalStreamLen, streamOffsetLen]; omega)
  rw [parseMessage, if_neg hshort, hchannel, Outcome.ok_bind, ChannelId.tryFromSlice_asBytes,
    Outcome.ok_bind, hsource, Outcome.ok_bind]
  dsimp only
  rw [htarget, Outcome.ok_bind]
  dsimp only
  rw [htotal, Outcome.ok_bind, hoffset, Outcome.ok_bind, hpayload, Outcome.ok_bind,
    Outcome.pure_eq]

end Enclosed

variable (t f id src tgt total offset payload) in
/-- The channel id of a message frame is read back. -/
theorem getChannelId_messageFrame :
    getChannelId (messageFrame t f id src tgt total offset payload) = .ok id := by
  have h := encloses_messageFrame t f id src tgt total offset payload
  rw [getChannelId, if_neg h.not_short, slice_channelId_of_encloses h, Outcome.ok_bind,
    ChannelId.tryFromSlice_asBytes]

/-- The names of a message frame are read back. -/
theorem getMessageSourceTarget_messageFrame (h : FieldsFit src tgt total offset payload) :
    getMessageSourceTarget (messageFrame t f id src tgt total offset payload)
      = .ok (src, tgt) := by
  have henc := encloses_messageFrame t f id src tgt total offset payload
  rw [getMessageSourceTarget, if_neg henc.not_short, readName_source_of_encloses h.inRange henc,
    Outcome.ok_bind]
  dsimp only
  rw [readName_target_of_encloses h.inRange henc]
  rfl

/-- All fields of a message frame and its payload are read back. -/
theorem parseMessage_messageFrame (h : FieldsFit src tgt total offset payload) :
    parseMessage (messageFrame t f id src tgt total offset payload)
      = .ok (⟨id, src, tgt, total, offset⟩, payload) :=
  parseMessage_of_encloses h.inRange (encloses_messageFrame ..)

end Message

/-! ### Streams -/

/-- The arguments of one call of `generateMessageDataStream`. -/
structure StreamCall where
  messageType : MessageType
  endChannel : Bool
  isResponse : Bool
  channelId : ChannelId
  sourceName : String
  targetName : String
  data : List UInt8

/-- What `decodeBasic` returns for a frame besides the remaining bytes. -/
structure DecodedFrame where
  messageType : MessageType
  flags : MessageFlags
  frame : List UInt8
  deriving DecidableEq

/-- One application of `decodeBasic`: the frame in front, and the remaining slice. -/
def decodeFrame (bytes : List UInt8) : Outcome ProtocolError (DecodedFrame × List UInt8) := do
  let (messageType, flags, currentFrame, remaining) ← decodeBasic bytes
  return (⟨messageType, flags, currentFrame⟩, remaining)

/-- The payload `parseMessage` finds in a decoded frame. -/
def DecodedFrame.payload (d : DecodedFrame) : List UInt8 :=
  match parseMessage d.frame with
  | .ok (_, payload) => payload
  | _ => []

namespace StreamCall

/-- The frames the encoder returns. -/
def encode (c : StreamCall) : Outcome ProtocolError (List (List UInt8)) :=
  generateMessageDataStream c.messageType c.endChannel c.isResponse c.channelId c.sourceName
    c.targetName c.data

/-- Decoded frames that carry a call: each has the call's type, flags, channel and names and
says where in the data its payload belongs, the last one alone ends the stream, and the
payloads make up the data. -/
structure CarriedBy (c : StreamCall) (ds : List DecodedFrame) : Prop where
  messageType : ∀ d ∈ ds, d.messageType = c.messageType
  endChannel : ∀ d ∈ ds, d.flags.endChannel = c.endChannel
  isResponse : ∀ d ∈ ds, d.flags.isResponse = c.isResponse
  endStream : ∀ i (hi : i < ds.length), ds[i].flags.endStream = true ↔ i + 1 = ds.length
  fields : ∀ i (hi : i < ds.length), parseMessage ds[i].frame
    = .ok (⟨c.channelId, c.sourceName, c.targetName, c.data.length,
        ((ds.take i).map (·.payload.length)).sum⟩, ds[i].payload)
  data : (ds.map (·.payload)).flatten = c.data

/-- The `i`-th frame of a call, as it is decoded. -/
def decodedFrame (c : StreamCall) (i : ℕ) : DecodedFrame where
  messageType := c.messageType
  flags := .new (decide (i + 1 = frameCount c.sourceName c.targetName c.data)) c.endChannel
    c.isResponse
  frame := streamFrame c.messageType c.endChannel c.isResponse c.channelId c.sourceName
    c.targetName c.data i

/-- All frames of a call, as they are decoded. -/
def decodedFrames (c : StreamCall) : List DecodedFrame :=
  (List.range (frameCount c.sourceName c.targetName c.data)).map c.decodedFrame

variable {c : StreamCall}

lemma encode_eq (h : Encodable c.sourceName c.targetName c.data) :
    c.encode = .ok (c.decodedFrames.map (·.frame)) := by
  rw [encode, generateMessageDataStream_eq_ok h, decodedFrames, List.map_map]
  rfl

/-- Offsets, lengths and names of an accepted call fit their fields. -/
lemma fieldsFit (h : Encodable c.sourceName c.targetName c.data) {i : ℕ}
    (hi : i < frameCount c.sourceName c.targetName c.data) :
    FieldsFit c.sourceName c.targetName c.data.length
      (i * maxPayloadLen c.sourceName c.targetName)
      (streamPayload c.sourceName c.targetName c.data i) := by
  have hm := le_maxPayloadLen h.source_le h.target_le
  have hoff := (lt_frameCount_iff (by omega) c.data i).mp hi
  have hdata := h.data_le
  have hmax : maxStreamLength = 8388608 := rfl
  have hfit : maxPayloadLen c.sourceName c.targetName ≤ 8151 := maxPayloadLen_le
  refine ⟨h.source_pos, h.source_le, h.target_pos, h.target_le, by omega, by omega, ?_⟩
  rw [streamPayload_length]
  simp only [maxFrameSize]
  omega

lemma decodeFrame_decodedFrame (h : Encodable c.sourceName c.targetName c.data) {i : ℕ}
    (hi : i < frameCount c.sourceName c.targetName c.data) (s : List UInt8) :
    decodeFrame ((c.decodedFrame i).frame ++ s) = .ok (c.decodedFrame i, s) := by
  rw [decodeFrame, decodedFrame, streamFrame, decodeBasic_messageFrame (fieldsFit h hi) s]
  rfl

lemma parseMessage_decodedFrame (h : Encodable c.sourceName c.targetName c.data) {i : ℕ}
    (hi : i < frameCount c.sourceName c.targetName c.data) :
    parseMessage (c.decodedFrame i).frame
      = .ok (⟨c.channelId, c.sourceName, c.targetName, c.data.length,
          i * maxPayloadLen c.sourceName c.targetName⟩,
        streamPayload c.sourceName c.targetName c.data i) := by
  rw [decodedFrame, streamFrame, parseMessage_messageFrame (fieldsFit h hi)]

lemma payload_decodedFrame (h : Encodable c.sourceName c.targetName c.data) {i : ℕ}
    (hi : i < frameCount c.sourceName c.targetName c.data) :
    (c.decodedFrame i).payload = streamPayload c.sourceName c.targetName c.data i := by
  rw [DecodedFrame.payload, parseMessage_decodedFrame h hi]

/-- The frames of an accepted call carry it. -/
lemma carriedBy_decodedFrames (h : Encodable c.sourceName c.targetName c.data) :
    c.CarriedBy c.decodedFrames := by
  have hm : 0 < maxPayloadLen c.sourceName c.targetName :=
    lt_of_lt_of_le (by omega) (le_maxPayloadLen h.source_le h.target_le)
  have hlen : c.decodedFrames.length = frameCount c.sourceName c.targetName c.data := by
    rw [decodedFrames, List.length_map, List.length_range]
  have hget : ∀ i (hi : i < c.decodedFrames.length), c.decodedFrames[i] = c.decodedFrame i := by
    intro i hi
    simp [decodedFrames]
  have hmem : ∀ d ∈ c.decodedFrames, ∃ i, c.decodedFrame i = d := by
    intro d hd
    obtain ⟨i, -, hi⟩ := List.mem_map.mp hd
    exact ⟨i, hi⟩
  have hpay : c.decodedFrames.map (·.payload)
      = (List.range (frameCount c.sourceName c.targetName c.data)).map
          (streamPayload c.sourceName c.targetName c.data) := by
    rw [decodedFrames, List.map_map]
    exact List.map_congr_left fun i hi => payload_decodedFrame h (List.mem_range.mp hi)
  have hsum : ∀ i < frameCount c.sourceName c.targetName c.data,
      ((c.decodedFrames.take i).map (·.payload.length)).sum
        = i * maxPayloadLen c.sourceName c.targetName := by
    intro i hi
    have hfull : ∀ j ∈ List.range i, (c.decodedFrame j).payload.length
        = maxPayloadLen c.sourceName c.targetName := by
      intro j hj
      have hj' := List.mem_range.mp hj
      rw [payload_decodedFrame h (by omega), streamPayload_length_of_lt hm hi hj']
    have hmap : (List.range i).map ((fun d : DecodedFrame => d.payload.length) ∘ c.decodedFrame)
        = (List.range i).map fun _ => maxPayloadLen c.sourceName c.targetName :=
      List.map_congr_left hfull
    rw [decodedFrames, ← List.map_take, List.take_range, min_eq_left hi.le, List.map_map, hmap]
    simp
  refine ⟨?_, ?_, ?_, ?_, ?_, ?_⟩
  · intro d hd
    obtain ⟨i, rfl⟩ := hmem d hd
    rfl
  · intro d hd
    obtain ⟨i, rfl⟩ := hmem d hd
    exact MessageFlags.endChannel_new _ _ _
  · intro d hd
    obtain ⟨i, rfl⟩ := hmem d hd
    exact MessageFlags.isResponse_new _ _ _
  · intro i hi
    rw [hget i hi, hlen, decodedFrame, MessageFlags.endStream_new, decide_eq_true_iff]
  · intro i hi
    have hi' := hlen ▸ hi
    rw [hget i hi, parseMessage_decodedFrame h hi', payload_decodedFrame h hi', hsum i hi']
  · rw [hpay, flatten_streamPayload hm]

end StreamCall

/-- **Framing round trip.**  For any calls the encoder accepts, let the frames of all calls be
concatenated in order and followed by any bytes `s`.  Decoding as often as there are frames
returns the frames of each call in turn and leaves `s`, and the frames of a call carry it. -/
theorem framing_round_trip (calls : List StreamCall)
    (h : ∀ c ∈ calls, Encodable c.sourceName c.targetName c.data) :
    ∃ decoded : List (List DecodedFrame),
      calls.map StreamCall.encode = decoded.map (fun ds => .ok (ds.map (·.frame))) ∧
      List.Forall₂ StreamCall.CarriedBy calls decoded ∧
      ∀ s : List UInt8,
        decodeTimes decodeFrame decoded.flatten.length
            ((decoded.flatten.map (·.frame)).flatten ++ s)
          = .ok (decoded.flatten, s) := by
  refine ⟨calls.map StreamCall.decodedFrames, ?_, ?_, ?_⟩
  · rw [List.map_map]
    exact List.map_congr_left fun c hc => StreamCall.encode_eq (h c hc)
  · rw [List.forall₂_map_right_iff, List.forall₂_same]
    exact fun c hc => StreamCall.carriedBy_decodedFrames (h c hc)
  · intro s
    have hall : ∀ d ∈ (calls.map StreamCall.decodedFrames).flatten,
        ∀ s, decodeFrame (d.frame ++ s) = .ok (d, s) := by
      intro d hd s
      obtain ⟨ds, hds, hd⟩ := List.mem_flatten.mp hd
      obtain ⟨c, hc, rfl⟩ := List.mem_map.mp hds
      obtain ⟨i, hi, rfl⟩ := List.mem_map.mp hd
      exact StreamCall.decodeFrame_decodedFrame (h c hc) (List.mem_range.mp hi) s
    have hdec := decodeTimes_flatten DecodedFrame.frame id _ s hall
    rwa [List.map_id] at hdec

/-- A request of 20000 bytes, which takes three frames. -/
def longCall : StreamCall :=
  ⟨.body, true, false, ⟨⟨List.replicate 16 13, rfl⟩⟩, "a", "b", List.replicate 20000 1⟩

/-- A response of three bytes on another channel. -/
def replyCall : StreamCall :=
  ⟨.header, true, true, ⟨⟨List.replicate 16 14, rfl⟩⟩, "b", "a", [1, 2, 3]⟩

lemma frameCount_longCall :
    frameCount longCall.sourceName longCall.targetName longCall.data = 3 := by
  rw [longCall, frameCount, List.length_replicate]
  decide

lemma frameCount_replyCall :
    frameCount replyCall.sourceName replyCall.targetName replyCall.data = 1 := by decide

/-- The frames of both calls, one after the other. -/
theorem framing_round_trip_call :
    ∃ decoded : List (List DecodedFrame),
      decoded.map List.length = [3, 1] ∧
      [longCall, replyCall].map StreamCall.encode
        = decoded.map (fun ds => .ok (ds.map (·.frame))) ∧
      List.Forall₂ StreamCall.CarriedBy [longCall, replyCall] decoded ∧
      ∀ s : List UInt8,
        decodeTimes decodeFrame decoded.flatten.length
            ((decoded.flatten.map (·.frame)).flatten ++ s)
          = .ok (decoded.flatten, s) := by
  have hlong : Encodable longCall.sourceName longCall.targetName longCall.data := by
    refine ⟨by decide, by decide, by decide, by decide, ?_⟩
    rw [longCall, List.length_replicate]
    decide
  have hshort : Encodable replyCall.sourceName replyCall.targetName replyCall.data := by
    constructor <;> decide
  obtain ⟨decoded, hencode, hcarried, hdecode⟩ := framing_round_trip [longCall, replyCall] (by
    simpa using ⟨hlong, hshort⟩)
  refine ⟨decoded, ?_, hencode, hcarried, hdecode⟩
  obtain _ | ⟨-, _ | ⟨-, ⟨⟩⟩⟩ := hcarried
  simp only [List.map_cons, List.map_nil, StreamCall.encode_eq hlong, StreamCall.encode_eq hshort,
    List.cons.injEq, Outcome.ok.injEq, and_true] at hencode
  have hlen := congrArg List.length hencode.1
  have hlen' := congrArg List.length hencode.2
  simp only [List.length_map, StreamCall.decodedFrames, List.length_range, frameCount_longCall,
    frameCount_replyCall] at hlen hlen'
  rw [List.map_cons, List.map_cons, List.map_nil, ← hlen, ← hlen']

/-! ### The end of a stream -/

/-- Whether a receiver that decodes a frame sees the end of its stream. -/
def endsStream (frame : List UInt8) : Bool :=
  match decodeBasic frame with
  | .ok (_, flags, _, _) => flags.endStream
  | _ => false

/-- The last frame, and no other, ends the stream. -/
def EndsOnce (frames : List (List UInt8)) : Prop :=
  ∃ init last, frames = init ++ [last] ∧ endsStream last = true ∧ ∀ f ∈ init, endsStream f = false

section EndOfStream

variable {t : MessageType} {endChannel isResponse : Bool} {id : ChannelId} {src tgt : String}
  {data : List UInt8}

/-- A frame of an accepted message ends the stream exactly when no frame comes after it. -/
lemma endsStream_streamFrame (h : Encodable src tgt data) {i : ℕ}
    (hi : i < frameCount src tgt data) :
    endsStream (streamFrame t endChannel isResponse id src tgt data i)
      = decide (i + 1 = frameCount src tgt data) := by
  have hfit := StreamCall.fieldsFit (c := ⟨t, endChannel, isResponse, id, src, tgt, data⟩) h hi
  rw [endsStream, streamFrame, ← List.append_nil (messageFrame ..),
    decodeBasic_messageFrame hfit []]
  exact MessageFlags.endStream_new _ _ _

/-- No data, no frames. -/
lemma frameCount_eq_zero_iff (h : Encodable src tgt data) :
    frameCount src tgt data = 0 ↔ data = [] := by
  have hm : 0 < maxPayloadLen src tgt :=
    lt_of_lt_of_le (by omega) (le_maxPayloadLen h.source_le h.target_le)
  have hcount := lt_frameCount_iff hm data 0
  rw [← List.length_eq_zero_iff]
  omega

/-- **The end of a stream.**  The encoder marks the end of every message it accepts, except the
empty one, of which it makes no frame at all. -/
theorem endsOnce_iff (t : MessageType) (endChannel isResponse : Bool) (id : ChannelId)
    (src tgt : String) (data : List UInt8) (frames : List (List UInt8))
    (h : generateMessageDataStream t endChannel isResponse id src tgt data = .ok frames) :
    EndsOnce frames ↔ data ≠ [] := by
  obtain ⟨henc, rfl⟩ := generateMessageDataStream_eq_ok_iff.mp h
  rw [ne_eq, ← frameCount_eq_zero_iff henc]
  constructor
  · rintro ⟨init, last, hframes, -, -⟩ hzero
    simp [streamFrames, hzero] at hframes
  · intro hne
    obtain ⟨n, hn⟩ := Nat.exists_eq_succ_of_ne_zero hne
    refine ⟨(List.range n).map (streamFrame t endChannel isResponse id src tgt data),
      streamFrame t endChannel isResponse id src tgt data n, ?_, ?_, ?_⟩
    · rw [streamFrames, hn, Nat.succ_eq_add_one, List.range_succ, List.map_append,
        List.map_singleton]
    · rw [endsStream_streamFrame henc (by omega), decide_eq_true_iff]
      omega
    · intro f hf
      obtain ⟨i, hi, rfl⟩ := List.mem_map.mp hf
      have hlt := List.mem_range.mp hi
      rw [endsStream_streamFrame henc (by omega), decide_eq_false_iff_not]
      omega

/-- A message of one byte. -/
theorem endsOnce_iff_byte :
    EndsOnce [messageFrame .body (.new true false false) ⟨⟨List.replicate 16 7, rfl⟩⟩ "a" "b" 1 0
        [5]] ↔ [(5 : UInt8)] ≠ [] :=
  endsOnce_iff .body false false ⟨⟨List.replicate 16 7, rfl⟩⟩ "a" "b" [5] _
    (generateMessageDataStream_eq_ok ⟨by decide, by decide, by decide, by decide, by decide⟩)

/-- The empty message is accepted and has no end. -/
theorem empty_message_has_no_end :
    generateMessageDataStream .body true false ⟨⟨List.replicate 16 7, rfl⟩⟩ "a" "b" [] = .ok [] ∧
      ¬ EndsOnce [] := by
  refine ⟨generateMessageDataStream_eq_ok ⟨by decide, by decide, by decide, by decide, by decide⟩,
    ?_⟩
  rintro ⟨init, last, hframes, -⟩
  exact List.append_ne_nil_of_right_ne_nil init (List.cons_ne_nil last []) hframes.symm

end EndOfStream

end Fernq
