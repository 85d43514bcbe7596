import Mathlib.Tactic
import Fernq.Protocol.Frame

/-!
The frame encoders (`fernq-core/src/protocol/encoder.rs`).

* `pingFrame`, `pongFrame`: the two heartbeat frames.
* `messageFrame`: one round of the encoder's loop, a frame laid out field by field.
* `generateMessageDataStream`: a message cut into frames, with the checks made before.
* `generateMessageDataStream_eq_ok`: on names of 1 to 128 bytes and at most 8 MiB of
  data the encoder returns `streamFrames`, the frames numbered `0, …, n-1`, the `i`-th
  carrying the `i`-th piece of `maxPayloadLen` bytes of the data.
* `generateMessageDataStream_eq_ok_iff`: these are the only arguments it accepts.
-/

namespace Fernq

/-- `x as u16` and `x as u32`: the low bits of a size. -/
def asU16 (x : ℕ) : ℕ := x % 2 ^ 16

def asU32 (x : ℕ) : ℕ := x % 2 ^ 32

lemma asU16_of_lt {x : ℕ} (h : x < 2 ^ 16) : asU16 x = x := Nat.mod_eq_of_lt h

lemma asU32_of_lt {x : ℕ} (h : x < 2 ^ 32) : asU32 x = x := Nat.mod_eq_of_lt h

/-! ### The common parts of every frame -/

/-- The fixed header: magic, version, type, flags and frame length. -/
def frameHead (messageType : MessageType) (flags : MessageFlags) (frameLen : ℕ) : List UInt8 :=
  beEncode 4 magicNumber ++ ([version] ++ ([messageType.asU8] ++ ([flags.asU8] ++
    beEncode 4 (asU32 frameLen))))

/-- The frame with its checksum, which covers everything from the version on. -/
def sealFrame (frame : List UInt8) : List UInt8 :=
  frame ++ beEncode 2 (netCrc (frame.drop magicLen)).toNat

@[simp] lemma frameHead_length (t : MessageType) (f : MessageFlags) (len : ℕ) :
    (frameHead t f len).length = fixedHeaderLen := by
  simp [frameHead, fixedHeaderLen, magicLen, versionLen, typeLen, flagsLen, frameLengthLen]

@[simp] lemma sealFrame_length (frame : List UInt8) :
    (sealFrame frame).length = frame.length + crcLen := by
  simp [sealFrame, crcLen]

/-! ### Heartbeat frames -/

/-- 生成Ping帧. -/
def pingFrame : List UInt8 := sealFrame (frameHead .ping (.new true true false) 2)

/-- 生成Pong帧. -/
def pongFrame : List UInt8 := sealFrame (frameHead .pong (.new true true true) 2)

/-! ### Message frames -/

/-- The counted part of a message frame without its checksum. -/
def messageBody (channelId : ChannelId) (sourceName targetName : String)
    (totalStreamLength offset : ℕ) (payload : List UInt8) : List UInt8 :=
  channelId.asBytes ++ (beEncode 2 (asU16 sourceName.utf8ByteSize) ++ (utf8Bytes sourceName ++
    (beEncode 2 (asU16 targetName.utf8ByteSize) ++ (utf8Bytes targetName ++
      (beEncode 4 (asU32 totalStreamLength) ++ (beEncode 4 (asU32 offset) ++ payload))))))

/-- One round of the encoder's loop: the frame that carries `payload`, the part of the
stream that starts at `offset`. -/
def messageFrame (messageType : MessageType) (flags : MessageFlags) (channelId : ChannelId)
    (sourceName targetName : String) (totalStreamLength offset : ℕ) (payload : List UInt8) :
    List UInt8 :=
  let capacity :=
    messageFixedLen + sourceName.utf8ByteSize + targetName.utf8ByteSize + payload.length
  let frameLen := capacity - fixedHeaderLen
  sealFrame (frameHead messageType flags frameLen ++
    messageBody channelId sourceName targetName totalStreamLength offset payload)

@[simp] lemma messageBody_length (id : ChannelId) (src tgt : String) (total offset : ℕ)
    (payload : List UInt8) :
    (messageBody id src tgt total offset payload).length
      = 28 + src.utf8ByteSize + tgt.utf8ByteSize + payload.length := by
  simp only [messageBody, List.length_append, ChannelId.asBytes_length, beEncode_length,
    utf8Bytes_length]
  omega

lemma messageFrame_length (t : MessageType) (f : MessageFlags) (id : ChannelId)
    (src tgt : String) (total offset : ℕ) (payload : List UInt8) :
    (messageFrame t f id src tgt total offset payload).length
      = messageFixedLen + src.utf8ByteSize + tgt.utf8ByteSize + payload.length := by
  simp only [messageFrame, sealFrame_length, List.length_append, frameHead_length,
    messageBody_length, messageFixedLen, channelIdLen, sourceLenSize, targetLenSize,
    totalStreamLen, streamOffsetLen, crcLen]
  omega

/-! ### The encoder -/

section Stream

variable (messageType : MessageType) (endChannel isResponse : Bool) (channelId : ChannelId)
  (sourceName targetName : String) (data : List UInt8)

/-- `while offset < total_stream_length`: the frames from `offset` on. -/
def frameLoop (maxPayloadLen : ℕ) (hpos : 0 < maxPayloadLen) (offset : ℕ) :
    Outcome ProtocolError (List (List UInt8)) :=
  if offset < data.length then do
    let payloadLen := min maxPayloadLen (data.length - offset)
    let payload ← slice data offset (offset + payloadLen)
    let frame := messageFrame messageType
      (.new (decide (offset + payloadLen ≥ data.length)) endChannel isResponse)
      channelId sourceName targetName data.length offset payload
    let frames ← frameLoop maxPayloadLen hpos (offset + payloadLen)
    return frame :: frames
  else
    return []
termination_by data.length - offset
decreasing_by
  rename_i h
  have h1 : 0 < min maxPayloadLen (data.length - offset) := by omega
  omega

/-- 生成消息数据流. -/
def generateMessageDataStream : Outcome ProtocolError (List (List UInt8)) :=
  if sourceName.utf8ByteSize = 0 then .err (.emptyName "source")
  else if targetName.utf8ByteSize = 0 then .err (.emptyName "target")
  else if sourceName.utf8ByteSize > maxNameLength then
    .err (.nameTooLong "source" sourceName.utf8ByteSize maxNameLength)
  else if targetName.utf8ByteSize > maxNameLength then
    .err (.nameTooLong "target" targetName.utf8ByteSize maxNameLength)
  else do
    let a ← usizeSub maxFrameSize messageFixedLen
    let b ← usizeSub a sourceName.utf8ByteSize
    let maxPayloadLen ← usizeSub b targetName.utf8ByteSize
    if h : maxPayloadLen = 0 then
      .err (.invalidFrameLength "names too long, no space for payload")
    else if data.length > maxStreamLength then
      .err (.streamTooLong data.length maxStreamLength)
    else
      frameLoop messageType endChannel isResponse channelId sourceName targetName data
        maxPayloadLen (Nat.pos_of_ne_zero h) 0

/-- The payload bytes a frame with these names has room for. -/
def maxPayloadLen : ℕ :=
  maxFrameSize - messageFixedLen - sourceName.utf8ByteSize - targetName.utf8ByteSize

/-- `⌈|data| / maxPayloadLen⌉`, the number of frames of a stream. -/
def frameCount : ℕ :=
  (data.length + maxPayloadLen sourceName targetName - 1) / maxPayloadLen sourceName targetName

/-- The `i`-th piece of the data. -/
def streamPayload (i : ℕ) : List UInt8 :=
  (data.drop (i * maxPayloadLen sourceName targetName)).take
    (maxPayloadLen sourceName targetName)

/-- The `i`-th frame of a stream. -/
def streamFrame (i : ℕ) : List UInt8 :=
  messageFrame messageType
    (.new (decide (i + 1 = frameCount sourceName targetName data)) endChannel isResponse)
    channelId sourceName targetName data.length
    (i * maxPayloadLen sourceName targetName) (streamPayload sourceName targetName data i)

/-- The frames of a stream, in order. -/
def streamFrames : List (List UInt8) :=
  (List.range (frameCount sourceName targetName data)).map
    (streamFrame messageType endChannel isResponse channelId sourceName targetName data)

variable {messageType endChannel isResponse channelId sourceName targetName data}

lemma maxPayloadLen_le : maxPayloadLen sourceName targetName ≤ 8151 := by
  simp only [maxPayloadLen, maxFrameSize, messageFixedLen, fixedHeaderLen, magicLen, versionLen,
    typeLen, flagsLen, frameLengthLen, channelIdLen, sourceLenSize, targetLenSize,
    totalStreamLen, streamOffsetLen, crcLen]
  omega

/-- Two names of at most 128 bytes leave room for 7895 bytes of payload. -/
lemma le_maxPayloadLen (hs : sourceName.utf8ByteSize ≤ maxNameLength)
    (ht : targetName.utf8ByteSize ≤ maxNameLength) :
    7895 ≤ maxPayloadLen sourceName targetName := by
  simp only [maxPayloadLen, maxFrameSize, messageFixedLen, fixedHeaderLen, magicLen, versionLen,
    typeLen, flagsLen, frameLengthLen, channelIdLen, sourceLenSize, targetLenSize,
    totalStreamLen, streamOffsetLen, crcLen, maxNameLength] at *
  omega

/-- The count is the number of pieces: the last frame is the one whose piece reaches the
end of the data. -/
lemma lt_frameCount_iff (hm : 0 < maxPayloadLen sourceName targetName) (data : List UInt8)
    (i : ℕ) :
    i < frameCount sourceName targetName data
      ↔ i * maxPayloadLen sourceName targetName < data.length := by
  rw [frameCount, Nat.lt_div_iff_mul_lt hm]
  omega

lemma streamPayload_length (i : ℕ) :
    (streamPayload sourceName targetName data i).length
      = min (maxPayloadLen sourceName targetName)
          (data.length - i * maxPayloadLen sourceName targetName) := by
  rw [streamPayload, List.length_take, List.length_drop]

/-- Every piece before the last is full. -/
lemma streamPayload_length_of_lt (hm : 0 < maxPayloadLen sourceName targetName) {i j : ℕ}
    (hi : i < frameCount sourceName targetName data) (hj : j < i) :
    (streamPayload sourceName targetName data j).length
      = maxPayloadLen sourceName targetName := by
  have h := (lt_frameCount_iff hm data i).mp hi
  have hmul : (j + 1) * maxPayloadLen sourceName targetName
      ≤ i * maxPayloadLen sourceName targetName := Nat.mul_le_mul_right _ hj
  rw [Nat.succ_mul] at hmul
  rw [streamPayload_length]
  omega

/-- The first `k` pieces are the data up to the offset of piece `k`. -/
lemma flatten_streamPayload_range (k : ℕ) :
    ((List.range k).map (streamPayload sourceName targetName data)).flatten
      = data.take (k * maxPayloadLen sourceName targetName) := by
  induction k with
  | zero => simp
  | succ k ih =>
      rw [List.range_succ, List.map_append, List.flatten_append, ih, List.map_singleton,
        List.flatten_singleton, streamPayload, Nat.succ_mul, List.take_add]

/-- The pieces concatenate to the data. -/
lemma flatten_streamPayload (hm : 0 < maxPayloadLen sourceName targetName) :
    ((List.range (frameCount sourceName targetName data)).map
      (streamPayload sourceName targetName data)).flatten = data := by
  have h := lt_frameCount_iff hm data (frameCount sourceName targetName data)
  rw [flatten_streamPayload_range, List.take_of_length_le (by omega)]

lemma frameLoop_of_le {m : ℕ} (hm : 0 < m) {offset : ℕ} (h : data.length ≤ offset) :
    frameLoop messageType endChannel isResponse channelId sourceName targetName data m hm offset
      = .ok [] := by
  rw [frameLoop, if_neg (by omega)]
  rfl

/-- The loop invariant: at the offset of frame `i` the loop produces the frames from `i`
on. -/
lemma frameLoop_eq (hm : 0 < maxPayloadLen sourceName targetName) (k i : ℕ)
    (hk : i + k = frameCount sourceName targetName data) :
    frameLoop messageType endChannel isResponse channelId sourceName targetName data
        (maxPayloadLen sourceName targetName) hm (i * maxPayloadLen sourceName targetName)
      = .ok ((List.range' i k).map (streamFrame messageType endChannel isResponse channelId
          sourceName targetName data)) := by
  induction k generalizing i with
  | zero =>
      have hlt := lt_frameCount_iff hm data i
      rw [frameLoop_of_le hm (by omega)]
      rfl
  | succ k ih =>
      have hi := (lt_frameCount_iff hm data i).mp (by omega)
      have hi' := lt_frameCount_iff hm data (i + 1)
      have hmul : (i + 1) * maxPayloadLen sourceName targetName
          = i * maxPayloadLen sourceName targetName + maxPayloadLen sourceName targetName := by
        ring
      rw [hmul] at hi'
      rw [frameLoop, if_pos hi]
      dsimp only
      rw [slice_of_le (by omega) (by omega), Outcome.ok_bind, Nat.add_sub_cancel_left]
      have hpay : (data.drop (i * maxPayloadLen sourceName targetName)).take
            (min (maxPayloadLen sourceName targetName)
              (data.length - i * maxPayloadLen sourceName targetName))
          = streamPayload sourceName targetName data i := by
        rw [streamPayload, List.take_eq_take_iff, List.length_drop]
        omega
      have hlast : (i * maxPayloadLen sourceName targetName
            + min (maxPayloadLen sourceName targetName)
              (data.length - i * maxPayloadLen sourceName targetName) ≥ data.length)
          ↔ i + 1 = frameCount sourceName targetName data := by
        omega
      have hrest : frameLoop messageType endChannel isResponse channelId sourceName targetName
            data (maxPayloadLen sourceName targetName) hm
            (i * maxPayloadLen sourceName targetName
              + min (maxPayloadLen sourceName targetName)
                (data.length - i * maxPayloadLen sourceName targetName))
          = .ok ((List.range' (i + 1) k).map (streamFrame messageType endChannel isResponse
              channelId sourceName targetName data)) := by
        by_cases hnext : i + 1 < frameCount sourceName targetName data
        · rw [← ih (i + 1) (by omega), hmul]
          congr 1
          omega
        · rw [frameLoop_of_le hm (by omega), show k = 0 by omega]
          rfl
      rw [hpay, hrest, Outcome.ok_bind, List.range'_succ, List.map_cons, streamFrame]
      simp only [hlast]
      rfl

/-- The arguments the encoder accepts. -/
structure Encodable (sourceName targetName : String) (data : List UInt8) : Prop where
  source_pos : 0 < sourceName.utf8ByteSize
  source_le : sourceName.utf8ByteSize ≤ maxNameLength
  target_pos : 0 < targetName.utf8ByteSize
  target_le : targetName.utf8ByteSize ≤ maxNameLength
  data_le : data.length ≤ maxStreamLength

/-- On accepted arguments the encoder returns the frames of the stream. -/
theorem generateMessageDataStream_eq_ok (h : Encodable sourceName targetName data) :
    generateMessageDataStream messageType endChannel isResponse channelId sourceName targetName
        data
      = .ok (streamFrames messageType endChannel isResponse channelId sourceName targetName
          data) := by
  have hm := le_maxPayloadLen h.source_le h.target_le
  have hs := h.source_le
  have ht := h.target_le
  have hfix : messageFixedLen = 41 := rfl
  have hmax : maxFrameSize = 8192 := rfl
  have hname : maxNameLength = 128 := rfl
  have hpos : maxPayloadLen sourceName targetName ≠ 0 := by omega
  rw [generateMessageDataStream, if_neg h.source_pos.ne', if_neg h.target_pos.ne',
    if_neg (not_lt.mpr hs), if_neg (not_lt.mpr ht), usizeSub_of_le (by omega), Outcome.ok_bind,
    usizeSub_of_le (by omega), Outcome.ok_bind, usizeSub_of_le (by omega), Outcome.ok_bind]
  change (if h : maxPayloadLen sourceName targetName = 0 then _ else _) = _
  rw [dif_neg hpos, if_neg (not_lt.mpr h.data_le)]
  rw [streamFrames, List.range_eq_range',
    ← frameLoop_eq (Nat.pos_of_ne_zero hpos) (frameCount sourceName targetName data) 0
      (by omega), Nat.zero_mul]
  rfl

/-- The encoder accepts names of 1 to 128 bytes with at most 8 MiB of data, and nothing
else. -/
theorem generateMessageDataStream_eq_ok_iff {frames : List (List UInt8)} :
    generateMessageDataStream messageType endChannel isResponse channelId sourceName targetName
        data = .ok frames
      ↔ Encodable sourceName targetName data ∧
        frames = streamFrames messageType endChannel isResponse channelId sourceName targetName
          data := by
  constructor
  · intro h
    have henc : Encodable sourceName targetName data := by
      by_contra hne
      rw [generateMessageDataStream] at h
      split_ifs at h with h1 h2 h3 h4 h5
      · simp only [Outcome.bind_eq_ok] at h
        obtain ⟨_, _, _, _, m, _, h⟩ := h
        split at h <;> cases h
      · exact hne ⟨Nat.pos_of_ne_zero h1, not_lt.mp h3, Nat.pos_of_ne_zero h2, not_lt.mp h4,
          not_lt.mp h5⟩
    refine ⟨henc, ?_⟩
    rw [generateMessageDataStream_eq_ok henc, Outcome.ok.injEq] at h
    exact h.symm
  · rintro ⟨henc, rfl⟩
    exact generateMessageDataStream_eq_ok henc

/-- On other arguments it returns an error, and it never aborts. -/
theorem exists_generateMessageDataStream_eq_err (h : ¬ Encodable sourceName targetName data) :
    ∃ e, generateMessageDataStream messageType endChannel isResponse channelId sourceName targetName
      data = .err e := by
  have hfix : messageFixedLen = 41 := rfl
  have hmax : maxFrameSize = 8192 := rfl
  have hname : maxNameLength = 128 := rfl
  rw [generateMessageDataStream]
  by_cases h1 : sourceName.utf8ByteSize = 0
  · exact ⟨_, if_pos h1⟩
  by_cases h2 : targetName.utf8ByteSize = 0
  · exact ⟨_, by rw [if_neg h1, if_pos h2]⟩
  by_cases h3 : sourceName.utf8ByteSize > maxNameLength
  · exact ⟨_, by rw [if_neg h1, if_neg h2, if_pos h3]⟩
  by_cases h4 : targetName.utf8ByteSize > maxNameLength
  · exact ⟨_, by rw [if_neg h1, if_neg h2, if_neg h3, if_pos h4]⟩
  -- The names are fine, so there is space for a payload, and the data is too long.
  have hdata : data.length > maxStreamLength := by
    by_contra hle
    exact h ⟨by omega, by omega, by omega, by omega, by omega⟩
  refine ⟨.streamTooLong data.length maxStreamLength, ?_⟩
  rw [if_neg h1, if_neg h2, if_neg h3, if_neg h4, usizeSub_of_le (by omega), Outcome.ok_bind,
    usizeSub_of_le (by omega), Outcome.ok_bind, usizeSub_of_le (by omega), Outcome.ok_bind,
    dif_neg (by omega), if_pos hdata]

/-- The encoder aborts on no arguments. -/
theorem generateMessageDataStream_ne_panicked (messageType : MessageType)
    (endChannel isResponse : Bool) (channelId : ChannelId) (sourceName targetName : String)
    (data : List UInt8) :
    generateMessageDataStream messageType endChannel isResponse channelId sourceName targetName data
      ≠ .panicked := by
  by_cases henc : Encodable sourceName targetName data
  · rw [generateMessageDataStream_eq_ok henc]
    simp
  · obtain ⟨e, he⟩ := exists_generateMessageDataStream_eq_err henc
    rw [he]
    simp

/-- The length of a frame: what its payload leaves of 8192 bytes. -/
lemma streamFrame_length (h : Encodable sourceName targetName data) (i : ℕ) :
    (streamFrame messageType endChannel isResponse channelId sourceName targetName data i).length
      = maxFrameSize - (maxPayloadLen sourceName targetName
          - (streamPayload sourceName targetName data i).length) := by
  have hm := le_maxPayloadLen h.source_le h.target_le
  have hle : (streamPayload sourceName targetName data i).length
      ≤ maxPayloadLen sourceName targetName := List.length_take_le ..
  rw [streamFrame, messageFrame_length]
  rw [maxPayloadLen] at *
  omega

/-- A frame of a stream has at most 8192 bytes. -/
lemma streamFrame_length_le (h : Encodable sourceName targetName data) (i : ℕ) :
    (streamFrame messageType endChannel isResponse channelId sourceName targetName data i).length
      ≤ maxFrameSize := by
  rw [streamFrame_length h]
  exact Nat.sub_le ..

end Stream

end Fernq
