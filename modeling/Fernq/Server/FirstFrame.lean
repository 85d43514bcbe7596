import Mathlib.Tactic
import Fernq.Protocol.Address
import Fernq.Protocol.Canonical
import Fernq.Server.Handshake

/-!
Which first frames are taken for a handshake (`ServerNode::add_connection` in
`fernqd/src/server/node.rs`).

* `Buffers`: the bytes that stand in the buffers of the two reads.
* `Taken`: the frames that pass, laid out for their fields; `firstFrame_eq_ok_iff`.
* `IsRequest`: a frame that is one complete request stream.
* `takes_requests_iff`: when only such frames are taken.
* `createValidate_isTaken`: what the client's side makes is one.
-/

namespace Fernq

/-- The bytes that stand in the buffers of the two reads when neither timed out: a fixed header,
and as many bytes as it announces. -/
def Buffers (reads : List ReadResult) (frame : List UInt8) : Prop :=
  ∃ headerRead between bodyRead reader,
    (BufReader.new reads).readExact fixedHeaderLen = (headerRead, between) ∧
    between.readExact (announcedLen (headerRead.filled fixedHeaderLen)) = (bodyRead, reader) ∧
    headerRead ≠ .elapsed ∧ bodyRead ≠ .elapsed ∧
    frame = bufferedFrame headerRead (announcedLen (headerRead.filled fixedHeaderLen)) bodyRead

/-- A frame that passes the checks of `add_connection`, with what is read out of it: it is laid out
for these fields with any two bytes for a checksum, it is no heartbeat, one of the two flags that
end something is set, and it is not too large. -/
structure Taken (t : MessageType) (f : MessageFlags) (header : MessageHeader)
    (payload frame : List UInt8) : Prop where
  inRange : header.InRange
  bytes : ∃ crc, crc.length = crcLen ∧ frame = header.unsealed t f payload ++ crc
  kind : t = .header ∨ t = .body
  ends : f.endStream = true ∨ f.endChannel = true
  length_le : frame.length ≤ fixedHeaderLen + maxFrameSize

/-- A frame that is a request stream of its own: of type `Header`, the last of its stream, no
response, and with the whole stream in it. -/
structure IsRequest (t : MessageType) (f : MessageFlags) (header : MessageHeader)
    (payload : List UInt8) : Prop where
  type_eq : t = .header
  end_stream : f.endStream = true
  request : f.isResponse = false
  offset_eq : header.streamOffset = 0
  total_eq : header.totalLen = payload.length

section Buffered

variable {reads : List ReadResult} {frame payload : List UInt8} {header : MessageHeader}
  {t : MessageType} {f : MessageFlags} {n : ℕ}

/-- The reads are determined by the script. -/
lemma Buffers.unique {frame' : List UInt8} (h : Buffers reads frame)
    (h' : Buffers reads frame') : frame = frame' := by
  obtain ⟨headerRead, between, bodyRead, reader, hhead, hbody, -, -, rfl⟩ := h
  obtain ⟨headerRead', between', bodyRead', reader', hhead', hbody', -, -, rfl⟩ := h'
  rw [hhead, Prod.mk.injEq] at hhead'
  obtain ⟨rfl, rfl⟩ := hhead'
  rw [hbody, Prod.mk.injEq] at hbody'
  rw [hbody'.1]

/-- The bytes that are received stand in the buffers. -/
lemma buffers_of_dataBytes {rest : List UInt8} (hbytes : dataBytes reads = frame ++ rest)
    (hlen : frame.length = fixedHeaderLen + announcedLen frame) : Buffers reads frame := by
  obtain ⟨between, reader, hhead, hbody, -⟩ :=
    BufReader.readExact_split (r := BufReader.new reads) hbytes hlen
  have hle : fixedHeaderLen ≤ frame.length := by
    rw [hlen]
    exact Nat.le_add_right ..
  have hann : announcedLen (frame.take fixedHeaderLen) = announcedLen frame := by
    have happend := announcedLen_append (b := frame.take fixedHeaderLen)
      (s := frame.drop fixedHeaderLen) (List.length_take_of_le hle).ge
    rw [← happend, List.take_append_drop]
  refine ⟨_, between, _, reader, hhead, by rw [ReadExact.filled, hann]; exact hbody, by simp,
    by simp, ?_⟩
  rw [bufferedFrame, ReadExact.filled, ReadExact.filled, List.take_append_drop]

/-- The reads of a frame that passes the checks of its header. -/
lemma exists_framed_iff :
    (∃ headerRead n bodyRead reader, Framed reads headerRead n bodyRead reader ∧
        frame = bufferedFrame headerRead n bodyRead) ↔
      Buffers reads frame ∧ ∃ n, checkHeader (frame.take fixedHeaderLen) = .ok n := by
  constructor
  · rintro ⟨headerRead, n, bodyRead, reader, ⟨⟨between, hhead, hbody⟩, hne, hcheck, hne'⟩, rfl⟩
    have hlen := length_filled hhead
    obtain ⟨t, f, hdec⟩ := decodeHeader_of_checkHeader hcheck
    obtain ⟨htake, hn⟩ := (decodeHeader_eq_ok_iff hlen.ge).mp hdec
    obtain rfl := announcedLen_eq_of_take htake hn
    rw [bufferedFrame, List.take_left' hlen]
    exact ⟨⟨headerRead, between, bodyRead, reader, hhead, hbody, hne, hne', rfl⟩, _, hcheck⟩
  · rintro ⟨⟨headerRead, between, bodyRead, reader, hhead, hbody, hne, hne', rfl⟩, n, hcheck⟩
    have hlen := length_filled hhead
    rw [bufferedFrame, List.take_left' hlen] at hcheck
    obtain ⟨t, f, hdec⟩ := decodeHeader_of_checkHeader hcheck
    obtain ⟨htake, hn⟩ := (decodeHeader_eq_ok_iff hlen.ge).mp hdec
    obtain rfl := announcedLen_eq_of_take htake hn
    exact ⟨headerRead, _, bodyRead, reader, ⟨⟨between, hhead, hbody⟩, hne, hcheck, hne'⟩, rfl⟩

/-- A frame in the buffers has the length that it announces. -/
lemma Buffers.length (h : Buffers reads frame) :
    fixedHeaderLen ≤ frame.length ∧
      frame.length = fixedHeaderLen + announcedLen (frame.take fixedHeaderLen) := by
  obtain ⟨headerRead, between, bodyRead, reader, hhead, hbody, -, -, rfl⟩ := h
  have hlen := length_filled hhead
  rw [bufferedFrame, List.take_left' hlen, List.length_append, hlen, length_filled hbody]
  exact ⟨Nat.le_add_right .., rfl⟩

/-- A frame that was laid out, in its parts. -/
lemma Taken.append (h : Taken t f header payload frame) :
    ∃ n crc, frame = frameHead t f n ++ (header.body payload ++ crc) ∧ crc.length = 2 ∧
      frame.length = fixedHeaderLen + n := by
  obtain ⟨crc, hcrc, hframe⟩ := h.bytes
  rw [MessageHeader.unsealed, List.append_assoc] at hframe
  refine ⟨_, crc, hframe, hcrc, ?_⟩
  have hfix : fixedHeaderLen = 11 := rfl
  have hfixed : messageFixedLen = 41 := rfl
  have hcrcLen : crcLen = 2 := rfl
  rw [hframe, List.length_append, List.length_append, frameHead_length, MessageHeader.body,
    messageBody_length, hcrc]
  omega

/-- A frame that was laid out and is received stands in the buffers. -/
lemma Taken.buffers {rest : List UInt8} (h : Taken t f header payload frame)
    (hbytes : dataBytes reads = frame ++ rest) : Buffers reads frame := by
  obtain ⟨n, crc, hframe, -, hlen⟩ := h.append
  have hle := h.length_le
  have hmax : maxFrameSize = 8192 := rfl
  have htake : frame.take 11 = frameHead t f n := by
    rw [hframe]
    exact List.take_left' (frameHead_length ..)
  refine buffers_of_dataBytes hbytes ?_
  rw [announcedLen_eq_of_take htake (by omega)]
  exact hlen

/-- The header of a frame that was laid out. -/
lemma Taken.decodeHeader_eq (h : Taken t f header payload frame) :
    ∃ n ≤ maxFrameSize, decodeHeader (frame.take fixedHeaderLen) = .ok (t, f, n) := by
  obtain ⟨n, crc, hframe, -, hlen⟩ := h.append
  have hle := h.length_le
  have hmax : maxFrameSize = 8192 := rfl
  have htake : frame.take fixedHeaderLen = frameHead t f n := by
    rw [hframe]
    exact List.take_left' (frameHead_length ..)
  refine ⟨n, by omega, (decodeHeader_eq_ok_iff ?_).mpr ⟨?_, by omega⟩⟩
  · rw [htake]
    exact (frameHead_length ..).ge
  · rw [← htake, List.take_take]
    rfl

lemma Taken.parse (h : Taken t f header payload frame) :
    parseMessage frame = .ok (header, payload) := by
  obtain ⟨n, crc, hframe, hcrc, -⟩ := h.append
  exact parseMessage_eq_ok_iff.mpr ⟨h.inRange, _, crc, frameHead_length .., hcrc, hframe⟩

/-- A frame is laid out for one type, one set of flags and one header and payload. -/
lemma Taken.unique {t' : MessageType} {f' : MessageFlags} {header' : MessageHeader}
    {payload' : List UInt8} (h : Taken t f header payload frame)
    (h' : Taken t' f' header' payload' frame) :
    t = t' ∧ f = f' ∧ header = header' ∧ payload = payload' := by
  obtain ⟨n, -, hdec⟩ := h.decodeHeader_eq
  obtain ⟨n', -, hdec'⟩ := h'.decodeHeader_eq
  rw [hdec, Outcome.ok.injEq, Prod.mk.injEq, Prod.mk.injEq] at hdec'
  have hparse := h.parse
  rw [h'.parse, Outcome.ok.injEq, Prod.mk.injEq] at hparse
  exact ⟨hdec'.1, hdec'.2.1, hparse.1.symm, hparse.2.symm⟩

/-- The checks of `add_connection` on a frame in the buffers: it is taken, for the fields that the
parser reads out of it, or refused. -/
lemma taken_iff (h : Buffers reads frame) :
    Taken t f header payload frame ↔
      (∃ n, decodeHeader (frame.take fixedHeaderLen) = .ok (t, f, n) ∧
        (t = .header ∨ t = .body) ∧ (f.endStream = true ∨ f.endChannel = true) ∧
        n ≤ maxFrameSize) ∧ parseMessage frame = .ok (header, payload) := by
  constructor
  · intro htaken
    obtain ⟨n, hn, hdec⟩ := htaken.decodeHeader_eq
    exact ⟨⟨n, hdec, htaken.kind, htaken.ends, hn⟩, htaken.parse⟩
  · rintro ⟨⟨n, hdec, hkind, hends, hn⟩, hparse⟩
    obtain ⟨hheader, hlen⟩ := h.length
    have hheadLen := List.length_take_of_le hheader
    obtain ⟨htake, hlt⟩ := (decodeHeader_eq_ok_iff hheadLen.ge).mp hdec
    rw [announcedLen_eq_of_take htake hlt] at hlen
    rw [List.take_take] at htake
    obtain ⟨hrange, hencloses⟩ := parseMessage_eq_ok_iff.mp hparse
    have hbody := hencloses.length
    refine ⟨hrange, ⟨frame.drop (frame.length - 2), ?_, ?_⟩, hkind, hends, by omega⟩
    · rw [List.length_drop]
      have hcrc : crcLen = 2 := rfl
      omega
    · rw [← take_of_parseMessage hlen htake hparse, List.take_append_drop]

/-- Credentials are checked of the frames that are taken, with the fields that they are laid out
for. -/
theorem firstFrame_eq_ok_iff :
    (∃ reader, firstFrame reads = .ok (header, payload, reader)) ↔
      ∃ t f frame, Buffers reads frame ∧ Taken t f header payload frame := by
  constructor
  · rintro ⟨reader, h⟩
    obtain ⟨headerRead, n, bodyRead, hframed, hparse⟩ := framed_of_firstFrame h
    obtain ⟨hbuffers, m, hcheck⟩ := exists_framed_iff.mp ⟨_, _, _, _, hframed, rfl⟩
    obtain ⟨t, f, hchecks⟩ := checkHeader_eq_ok_iff.mp hcheck
    exact ⟨t, f, _, hbuffers, (taken_iff hbuffers).mpr ⟨⟨m, hchecks⟩, hparse⟩⟩
  · rintro ⟨t, f, frame, hbuffers, htaken⟩
    obtain ⟨⟨n, hchecks⟩, hparse⟩ := (taken_iff hbuffers).mp htaken
    obtain ⟨headerRead, m, bodyRead, reader, hframed, rfl⟩ :=
      exists_framed_iff.mpr ⟨hbuffers, n, checkHeader_eq_ok_iff.mpr ⟨t, f, hchecks⟩⟩
    refine ⟨reader, ?_⟩
    rw [firstFrame_of_framed hframed, hparse]
    rfl

end Buffered

/-! ### Frames of a split stream -/

section Split

variable {t : MessageType} {endChannel isResponse : Bool} {id : ChannelId} {src tgt : String}
  {data frame : List UInt8} {i : ℕ}

/-- A stream of several frames does not fit one. -/
lemma length_streamPayload_lt (h : Encodable src tgt data) (hsplit : 1 < frameCount src tgt data) :
    (streamPayload src tgt data i).length < data.length := by
  have hm := le_maxPayloadLen h.source_le h.target_le
  have hlong := (lt_frameCount_iff (by omega) data 1).mp hsplit
  rw [streamPayload_length]
  omega

/-- The frames of a stream that end it, or its channel, are taken as a first frame. -/
lemma taken_streamFrame (h : Encodable src tgt data) (hi : i < frameCount src tgt data)
    (hkind : t = .header ∨ t = .body)
    (hends : i + 1 = frameCount src tgt data ∨ endChannel = true) :
    Taken t (.new (decide (i + 1 = frameCount src tgt data)) endChannel isResponse)
      ⟨id, src, tgt, data.length, i * maxPayloadLen src tgt⟩ (streamPayload src tgt data i)
      (streamFrame t endChannel isResponse id src tgt data i) := by
  have hfit := StreamCall.fieldsFit (c := ⟨t, endChannel, isResponse, id, src, tgt, data⟩) h hi
  refine ⟨hfit.inRange, ⟨_, beEncode_length .., rfl⟩, hkind, ?_, ?_⟩
  · rcases hends with hlast | rfl
    · left
      simp [hlast]
    · right
      simp
  · have hle : (streamFrame t endChannel isResponse id src tgt data i).length ≤ maxFrameSize :=
      streamFrame_length_le h i
    omega

/-- No frame of a stream in several frames is a request stream of its own. -/
lemma not_isRequest_of_split {frames : List (List UInt8)} {t' : MessageType} {f : MessageFlags}
    {header : MessageHeader} {payload : List UInt8}
    (hencode : generateMessageDataStream t endChannel isResponse id src tgt data = .ok frames)
    (hsplit : 1 < frames.length) (hmem : frame ∈ frames)
    (htaken : Taken t' f header payload frame) : ¬ IsRequest t' f header payload := by
  intro hrequest
  obtain ⟨henc, rfl⟩ := generateMessageDataStream_eq_ok_iff.mp hencode
  rw [streamFrames, List.length_map, List.length_range] at hsplit
  obtain ⟨i, hi, rfl⟩ := List.mem_map.mp hmem
  have hparse := htaken.parse
  rw [streamFrame, parseMessage_messageFrame
    (StreamCall.fieldsFit (c := ⟨t, endChannel, isResponse, id, src, tgt, data⟩) henc
      (List.mem_range.mp hi)), Outcome.ok.injEq, Prod.mk.injEq] at hparse
  obtain ⟨rfl, rfl⟩ := hparse
  exact (length_streamPayload_lt henc hsplit).ne hrequest.total_eq.symm

end Split

/-! ### The handshake -/

section Requests

variable {reads : List ReadResult}

/-- Of the first frame of a connection the credentials are checked only if it is a request stream of
its own; no frame of a stream in several frames is such. -/
structure TakesRequests (reads : List ReadResult) : Prop where
  whole : ∀ header payload reader, firstFrame reads = .ok (header, payload, reader) →
    ∃ frame t f n, Buffers reads frame ∧ decodeHeader (frame.take fixedHeaderLen) = .ok (t, f, n) ∧
      IsRequest t f header payload
  not_split : ∀ t endChannel isResponse id src tgt data frames frame,
    generateMessageDataStream t endChannel isResponse id src tgt data = .ok frames →
    1 < frames.length → frame ∈ frames → Buffers reads frame →
    ∀ result, firstFrame reads ≠ .ok result

/-- A frame stands in the buffers that passes the checks and is no request stream of its own. -/
def BuffersOther (reads : List ReadResult) : Prop :=
  ∃ t f header payload frame, Buffers reads frame ∧ Taken t f header payload frame ∧
    ¬ IsRequest t f header payload

/-- When every frame that passes the checks is a request stream of its own, only such are taken. -/
lemma takesRequests_of_forall
    (h : ∀ t f header payload frame, Buffers reads frame → Taken t f header payload frame →
      IsRequest t f header payload) : TakesRequests reads := by
  refine ⟨?_, ?_⟩
  · intro header payload reader hfirst
    obtain ⟨t, f, frame, hbuffers, htaken⟩ := firstFrame_eq_ok_iff.mp ⟨reader, hfirst⟩
    obtain ⟨n, -, hdec⟩ := htaken.decodeHeader_eq
    exact ⟨frame, t, f, n, hbuffers, hdec, h t f header payload frame hbuffers htaken⟩
  · rintro t endChannel isResponse id src tgt data frames frame hencode hsplit hmem hbuffers
      ⟨header, payload, reader⟩ hfirst
    obtain ⟨t', f, frame', hbuffers', htaken⟩ := firstFrame_eq_ok_iff.mp ⟨reader, hfirst⟩
    obtain rfl := hbuffers.unique hbuffers'
    exact not_isRequest_of_split hencode hsplit hmem htaken
      (h t' f header payload frame hbuffers htaken)

/-- **The first frame of a connection.**  The credentials of a first frame are checked only if it is
a complete request stream, unless another frame is in the buffers that is laid out for its fields,
is no heartbeat and sets `END_STREAM` or `END_CHANNEL`: this is all that is checked of the type, the
flags and the numbers of a stream. -/
theorem takes_requests_iff (reads : List ReadResult) :
    TakesRequests reads ↔ ¬ BuffersOther reads := by
  refine ⟨?_, fun hnot => takesRequests_of_forall ?_⟩
  · rintro h ⟨t, f, header, payload, frame, hbuffers, htaken, hnot⟩
    obtain ⟨reader, hfirst⟩ := firstFrame_eq_ok_iff.mpr ⟨t, f, frame, hbuffers, htaken⟩
    obtain ⟨frame', t', f', n', hbuffers', hdec', hrequest⟩ := h.whole header payload reader hfirst
    obtain ⟨n, -, hdec⟩ := htaken.decodeHeader_eq
    rw [hbuffers.unique hbuffers', hdec', Outcome.ok.injEq, Prod.mk.injEq, Prod.mk.injEq] at hdec
    obtain ⟨rfl, rfl, -⟩ := hdec
    exact hnot hrequest
  · intro t f header payload frame hbuffers htaken
    by_contra hother
    exact hnot ⟨t, f, header, payload, frame, hbuffers, htaken, hother⟩

/-- The frame of a handshake passes the checks. -/
lemma taken_validateFrame {name url : String} {channelId : ChannelId} (h : Sendable name url) :
    Taken .header (.new true true false) ⟨channelId, name, "fernq", url.utf8ByteSize, 0⟩
      (utf8Bytes url) (validateFrame name channelId url) := by
  have hurl := h.url_le
  have hname := h.name_le
  have hfernq : "fernq".utf8ByteSize = 5 := by decide
  have hrange : FieldsInRange name "fernq" url.utf8ByteSize 0 :=
    ⟨h.name_pos, hname, by omega, by decide, by omega, by omega⟩
  refine ⟨hrange, ⟨_, beEncode_length .., rfl⟩, .inl rfl, .inl (by simp), ?_⟩
  rw [validateFrame, messageFrame_length, utf8Bytes_length, hfernq]
  simp only [messageFixedLen, fixedHeaderLen, magicLen, versionLen, typeLen, flagsLen,
    frameLengthLen, channelIdLen, sourceLenSize, targetLenSize, totalStreamLen, streamOffsetLen,
    crcLen, maxFrameSize]
  omega

/-- What the client's side makes is taken for a handshake with the client's name and URL, and is a
request stream of its own. -/
theorem createValidate_isTaken {name url address : String} {channelId : ChannelId}
    {frame rest : List UInt8} (h : createValidate name channelId url = .ok (address, frame))
    (hbytes : dataBytes reads = frame ++ rest) :
    TakesRequests reads ∧ ∃ reader, firstFrame reads
      = .ok (⟨channelId, name, "fernq", url.utf8ByteSize, 0⟩, utf8Bytes url, reader) := by
  obtain ⟨-, hsendable, -, -, -, rfl⟩ := createValidate_eq_ok_iff.mp h
  have hsent : Taken _ _ _ _ (validateFrame name channelId url) := taken_validateFrame hsendable
  have hbuffers := hsent.buffers hbytes
  refine ⟨takesRequests_of_forall ?_, firstFrame_eq_ok_iff.mpr ⟨_, _, _, hbuffers, hsent⟩⟩
  intro t f header payload frame hbuffers' htaken
  obtain rfl := hbuffers.unique hbuffers'
  obtain ⟨rfl, rfl, rfl, rfl⟩ := hsent.unique htaken
  exact ⟨rfl, by simp, by simp, rfl, (utf8Bytes_length url).symm⟩

/-- A text that does not fit one frame. -/
@[irreducible] def longText : List UInt8 := List.replicate 9000 97

lemma longText_length : longText.length = 9000 := by
  rw [longText]
  exact List.length_replicate

lemma encodable_longText : Encodable "a" "fernq" longText :=
  ⟨by decide, by decide, by decide, by decide, by rw [longText_length]; decide⟩

/-- The channel of a handshake in two frames. -/
def splitChannel : ChannelId := ⟨⟨List.replicate 16 11, rfl⟩⟩

/-- The first of its frames. -/
def splitFrame : List UInt8 := streamFrame .header true false splitChannel "a" "fernq" longText 0

lemma splitFrame_length_le : splitFrame.length ≤ bufCapacity :=
  streamFrame_length_le encodable_longText 0

lemma splitFrame_length_pos : 0 < splitFrame.length := by
  rw [splitFrame, streamFrame, messageFrame_length]
  simp only [messageFixedLen, fixedHeaderLen, magicLen]
  omega

/-- A client that sends it and waits. -/
def splitReads : List ReadResult :=
  [.data ⟨splitFrame, splitFrame_length_pos, splitFrame_length_le⟩]

/-- The first of two frames, which ends the channel and not the stream, is taken for a handshake. -/
theorem split_handshake_is_taken :
    ∃ frames, generateMessageDataStream .header true false splitChannel "a" "fernq" longText
        = .ok frames ∧ 1 < frames.length ∧ splitFrame ∈ frames ∧ Buffers splitReads splitFrame ∧
      (∃ result, firstFrame splitReads = .ok result) ∧ ¬ TakesRequests splitReads := by
  have hcount : 1 < frameCount "a" "fernq" longText := by
    rw [lt_frameCount_iff (by decide), longText_length]
    decide
  have htaken : Taken .header (.new (decide (0 + 1 = frameCount "a" "fernq" longText)) true false)
      _ _ splitFrame :=
    taken_streamFrame encodable_longText (by omega) (.inl rfl) (.inr rfl)
  have hbytes : dataBytes splitReads = splitFrame ++ [] := rfl
  have hbuffers : Buffers splitReads splitFrame := htaken.buffers hbytes
  obtain ⟨reader, hfirst⟩ := firstFrame_eq_ok_iff.mpr ⟨_, _, _, hbuffers, htaken⟩
  have hsplit : 1 < (streamFrames .header true false splitChannel "a" "fernq" longText).length := by
    rw [streamFrames, List.length_map, List.length_range]
    exact hcount
  have hmem : splitFrame ∈ streamFrames .header true false splitChannel "a" "fernq" longText :=
    List.mem_map_of_mem (List.mem_range.mpr (by omega))
  refine ⟨_, generateMessageDataStream_eq_ok encodable_longText, hsplit, hmem, hbuffers,
    ⟨_, hfirst⟩, ?_⟩
  intro h
  exact h.not_split _ _ _ _ _ _ _ _ _ (generateMessageDataStream_eq_ok encodable_longText) hsplit
    hmem hbuffers _ hfirst

end Requests

end Fernq
