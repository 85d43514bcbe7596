import Mathlib.Tactic
import Mathlib.Algebra.Order.Floor.Div
import Fernq.Protocol.Canonical

/-!
The limits of a stream, on both sides (`generate_message_data_stream` of
`fernq-core/src/protocol/encoder.rs`, `parse_message` of `fernq-core/src/protocol/decoder.rs`).

* `encoder_limits`: which arguments the encoder refuses, and the number, the sizes and the fields
  of the frames it makes of the others; no cast loses a bit.
* `limits_enforced_iff`: what the receiver lets through.
-/

namespace Fernq

/-! ### The sender -/

section Sender

variable {t : MessageType} {endChannel isResponse : Bool} {id : ChannelId} {src tgt : String}
  {data : List UInt8}

/-- The arguments that the encoder refuses: an empty name, a name of more than 128 bytes, or more
than 8 MiB of data. -/
def Refused (src tgt : String) (data : List UInt8) : Prop :=
  src = "" ∨ tgt = "" ∨ maxNameLength < src.utf8ByteSize ∨ maxNameLength < tgt.utf8ByteSize ∨
    maxStreamLength < data.length

/-- The casts made for a frame lose nothing. -/
structure CastsExact (src tgt : String) (data frame : List UInt8) (offset : ℕ) : Prop where
  source_len : asU16 src.utf8ByteSize = src.utf8ByteSize
  target_len : asU16 tgt.utf8ByteSize = tgt.utf8ByteSize
  frame_len : asU32 (frame.length - fixedHeaderLen) = frame.length - fixedHeaderLen
  total_len : asU32 data.length = data.length
  stream_offset : asU32 offset = offset

/-- The frames of a stream keep to the limits of the protocol. -/
structure StreamWithin (t : MessageType) (id : ChannelId) (src tgt : String) (data : List UInt8)
    (frames : List (List UInt8)) : Prop where
  count : frames.length = data.length ⌈/⌉ (8192 - 41 - src.utf8ByteSize - tgt.utf8ByteSize)
  length_le : ∀ frame ∈ frames, frame.length ≤ maxFrameSize
  length_eq : ∀ i (hi : i + 1 < frames.length), frames[i].length = maxFrameSize
  announced : ∀ frame ∈ frames, announcedLen frame = frame.length - fixedHeaderLen
  fields : ∀ frame ∈ frames, ∃ flags offset payload,
    frame = messageFrame t flags id src tgt data.length offset payload ∧
      CastsExact src tgt data frame offset ∧
      parseMessage frame = .ok (⟨id, src, tgt, data.length, offset⟩, payload) ∧
      offset + payload.length ≤ data.length

lemma not_refused_iff : ¬ Refused src tgt data ↔ Encodable src tgt data := by
  have hpos : ∀ s : String, ¬ s = "" ↔ 0 < s.utf8ByteSize := by
    intro s
    rw [Nat.pos_iff_ne_zero, ne_eq, String.utf8ByteSize_eq_zero_iff]
  simp only [Refused, not_or, not_lt, hpos]
  constructor
  · rintro ⟨hsrc, htgt, hsrc', htgt', hdata⟩
    exact ⟨hsrc, hsrc', htgt, htgt', hdata⟩
  · rintro ⟨hsrc, hsrc', htgt, htgt', hdata⟩
    exact ⟨hsrc, htgt, hsrc', htgt', hdata⟩

/-- The encoder's frames announce the bytes behind their fixed header. -/
lemma announcedLen_messageFrame {flags : MessageFlags} {total offset : ℕ} {payload : List UInt8}
    (hlen : (messageFrame t flags id src tgt total offset payload).length < 2 ^ 32) :
    announcedLen (messageFrame t flags id src tgt total offset payload)
      = (messageFrame t flags id src tgt total offset payload).length - fixedHeaderLen := by
  rw [messageFrame_length] at hlen ⊢
  refine announcedLen_eq_of_take (t := t) (f := flags) ?_ (by omega)
  rw [messageFrame, sealFrame, List.append_assoc]
  exact List.take_left' (frameHead_length ..)

/-- The frames of an accepted message keep to the limits. -/
lemma streamWithin_streamFrames (h : Encodable src tgt data) :
    StreamWithin t id src tgt data (streamFrames t endChannel isResponse id src tgt data) := by
  have hm := le_maxPayloadLen h.source_le h.target_le
  have hlen : (streamFrames t endChannel isResponse id src tgt data).length
      = frameCount src tgt data := by
    rw [streamFrames, List.length_map, List.length_range]
  have hmem : ∀ frame ∈ streamFrames t endChannel isResponse id src tgt data,
      ∃ i < frameCount src tgt data,
        frame = streamFrame t endChannel isResponse id src tgt data i := by
    intro frame hframe
    obtain ⟨i, hi, rfl⟩ := List.mem_map.mp hframe
    exact ⟨i, List.mem_range.mp hi, rfl⟩
  have hsize : ∀ i, (streamFrame t endChannel isResponse id src tgt data i).length
      ≤ maxFrameSize := streamFrame_length_le h
  have hmax : maxFrameSize = 8192 := rfl
  refine ⟨?_, ?_, ?_, ?_, ?_⟩
  · rw [hlen, Nat.ceilDiv_eq_add_pred_div]
    rfl
  · intro frame hframe
    obtain ⟨i, -, rfl⟩ := hmem frame hframe
    exact hsize i
  · intro i hi
    have hget : (streamFrames t endChannel isResponse id src tgt data)[i]
        = streamFrame t endChannel isResponse id src tgt data i := by simp [streamFrames]
    rw [hget, streamFrame_length h,
      streamPayload_length_of_lt (by omega) (hlen ▸ hi) (Nat.lt_succ_self i), Nat.sub_self,
      Nat.sub_zero]
  · intro frame hframe
    obtain ⟨i, -, rfl⟩ := hmem frame hframe
    exact announcedLen_messageFrame (by have := hsize i; rw [streamFrame] at this; omega)
  · intro frame hframe
    obtain ⟨i, hi, rfl⟩ := hmem frame hframe
    have hfit := StreamCall.fieldsFit (c := ⟨t, endChannel, isResponse, id, src, tgt, data⟩) h hi
    have hoff := (lt_frameCount_iff (by omega) data i).mp hi
    have hfits := hsize i
    have hname : maxNameLength = 128 := rfl
    have hs := h.source_le
    have ht := h.target_le
    refine ⟨_, _, _, rfl, ⟨asU16_of_lt (by omega), asU16_of_lt (by omega), asU32_of_lt (by omega),
      asU32_of_lt hfit.total_lt, asU32_of_lt hfit.offset_lt⟩, parseMessage_messageFrame hfit, ?_⟩
    rw [streamPayload_length]
    omega

/-- **Encoder limits and arithmetic.**  The encoder refuses empty names, names of more than 128
bytes and data of more than 8 MiB.  All other arguments it turns into `⌈|data| / M⌉` frames, where
the room for the payload `M` is what the names leave of 8 KiB; each frame keeps to 8 KiB and all
but the last fill them, each announces its own length, and every number in it is the number meant,
so that the payload ends inside the stream. -/
theorem encoder_limits (t : MessageType) (endChannel isResponse : Bool) (id : ChannelId)
    (src tgt : String) (data : List UInt8) :
    (Refused src tgt data →
      ∃ e, generateMessageDataStream t endChannel isResponse id src tgt data = .err e) ∧
    (¬ Refused src tgt data →
      41 + src.utf8ByteSize + tgt.utf8ByteSize < 8192 ∧
      ∃ frames, generateMessageDataStream t endChannel isResponse id src tgt data = .ok frames ∧
        StreamWithin t id src tgt data frames) := by
  constructor
  · intro hrefused
    refine exists_generateMessageDataStream_eq_err fun henc => ?_
    exact not_refused_iff.mpr henc hrefused
  · intro hnot
    have henc := not_refused_iff.mp hnot
    have hs := henc.source_le
    have ht := henc.target_le
    have hname : maxNameLength = 128 := rfl
    exact ⟨by omega, _, generateMessageDataStream_eq_ok henc, streamWithin_streamFrames henc⟩

end Sender

/-! ### The receiver -/

section Receiver

variable {b cur rest payload : List UInt8} {t : MessageType} {f : MessageFlags}
  {header : MessageHeader}

/-- The limits of a stream: it is not too long, and the payload ends inside it. -/
structure MessageHeader.Within (header : MessageHeader) (payload : List UInt8) : Prop where
  total_le : header.totalLen ≤ maxStreamLength
  end_le : header.streamOffset + payload.length ≤ header.totalLen

/-- A limit of the stream is reported as broken. -/
def ReportsLimit (parsed : Outcome ProtocolError (MessageHeader × List UInt8)) : Prop :=
  (∃ length max, parsed = .err (.streamTooLong length max)) ∨
    ∃ offset total, parsed = .err (.invalidOffset offset total)

/-- A receiver of these bytes holds the frame in front to the limits of its stream. -/
def LimitsEnforced (b : List UInt8) : Prop :=
  ∀ t f cur rest, decodeBasic b = .ok (t, f, cur, rest) →
    (∀ header payload, parseMessage cur = .ok (header, payload) → header.Within payload) ∧
    ∀ (header : MessageHeader) payload, header.InRange → Encloses cur (header.body payload) →
      ¬ header.Within payload → ReportsLimit (parseMessage cur)

/-- The bytes start with a frame, as the encoder's loop would lay it out, for numbers that the
encoder never writes. -/
def StartsOutside (b : List UInt8) : Prop :=
  ∃ (header : MessageHeader) (t : MessageType) (f : MessageFlags) (payload : List UInt8),
    header.InRange ∧ ¬ header.Within payload ∧
    (header.toFrame t f payload).length < 2 ^ 32 + fixedHeaderLen ∧
    header.toFrame t f payload <+: b

/-- **The receiver and the limits of a stream.**  Neither decoder looks at the two numbers of a
stream: a limit holds of what they return exactly when the bytes do not start with a frame that
breaks it. -/
theorem limits_enforced_iff (b : List UInt8) : LimitsEnforced b ↔ ¬ StartsOutside b := by
  constructor
  · rintro h ⟨header, t, f, payload, hrange, hout, hsmall, rest, rfl⟩
    obtain ⟨hdec, hparse⟩ := received_iff.mpr ⟨rfl, rfl, hrange, hsmall⟩
    exact hout ((h t f _ rest hdec).1 header payload hparse)
  · intro hnot t f cur rest hdec
    have hwithin : ∀ header payload, parseMessage cur = .ok (header, payload) →
        header.Within payload := by
      intro header payload hparse
      by_contra hout
      obtain ⟨rfl, rfl, hrange, hsmall⟩ := received_iff.mp ⟨hdec, hparse⟩
      exact hnot ⟨header, t, f, payload, hrange, hout, hsmall, rest, rfl⟩
    refine ⟨hwithin, ?_⟩
    intro header payload hrange hencloses hout
    exact absurd (hwithin header payload (parseMessage_eq_ok_iff.mpr ⟨hrange, hencloses⟩)) hout

/-- What the encoder sends is within the limits, whatever follows it. -/
lemma limitsEnforced_streamFrame {endChannel isResponse : Bool} {id : ChannelId} {src tgt : String}
    {data : List UInt8} (h : Encodable src tgt data) {i : ℕ} (hi : i < frameCount src tgt data)
    (s : List UInt8) :
    LimitsEnforced (streamFrame t endChannel isResponse id src tgt data i ++ s) := by
  have hfit := StreamCall.fieldsFit (c := ⟨t, endChannel, isResponse, id, src, tgt, data⟩) h hi
  have hsent : decodeBasic (streamFrame t endChannel isResponse id src tgt data i ++ s) = _ :=
    decodeBasic_messageFrame hfit s
  have hwithin : ∀ header payload, parseMessage (streamFrame t endChannel isResponse id src tgt data
      i) = .ok (header, payload) → header.Within payload := by
    intro header payload hparse
    rw [streamFrame, parseMessage_messageFrame hfit, Outcome.ok.injEq, Prod.mk.injEq] at hparse
    obtain ⟨rfl, rfl⟩ := hparse
    refine ⟨h.data_le, ?_⟩
    have hm := le_maxPayloadLen h.source_le h.target_le
    have hoff := (lt_frameCount_iff (by omega) data i).mp hi
    dsimp only
    rw [streamPayload_length]
    omega
  intro t' f' cur rest hdec
  rw [hsent] at hdec
  obtain ⟨-, -, rfl, -⟩ := by simpa only [Outcome.ok.injEq, Prod.mk.injEq] using hdec
  refine ⟨hwithin, ?_⟩
  intro header payload hrange hencloses hout
  exact absurd (hwithin header payload (parseMessage_eq_ok_iff.mpr ⟨hrange, hencloses⟩)) hout

/-- The header of a frame whose numbers are as large as they can be. -/
def hugeHeader : MessageHeader := ⟨soloChannel, "a", "b", 4294967295, 4294967295⟩

/-- A frame with one byte of payload at the end of a stream of four gigabytes is accepted by both
decoders. -/
theorem huge_stream_is_accepted :
    decodeBasic (hugeHeader.toFrame .body (.new true false false) [5])
        = .ok (.body, .new true false false, hugeHeader.toFrame .body (.new true false false) [5],
          []) ∧
      parseMessage (hugeHeader.toFrame .body (.new true false false) [5]) = .ok (hugeHeader, [5]) ∧
      ¬ LimitsEnforced (hugeHeader.toFrame .body (.new true false false) [5]) := by
  have hrange : hugeHeader.InRange :=
    ⟨by decide, by decide, by decide, by decide, by decide, by decide⟩
  have hsmall : (hugeHeader.toFrame .body (.new true false false) [5]).length
      < 2 ^ 32 + fixedHeaderLen := by
    rw [MessageHeader.toFrame, messageFrame_length]
    decide
  obtain ⟨hdec, hparse⟩ := received_iff.mpr
    ⟨(List.append_nil (hugeHeader.toFrame .body (.new true false false) [5])).symm, rfl, hrange,
      hsmall⟩
  refine ⟨hdec, hparse, ?_⟩
  intro h
  exact absurd ((h _ _ _ _ hdec).1 _ _ hparse).total_le (by decide)

end Receiver

end Fernq
