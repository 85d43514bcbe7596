import Mathlib.Tactic
import Fernq.Base.Pieces
import Fernq.Protocol.MessageRoundTrip
import Fernq.Protocol.RoundTrip

/-!
What the total length and the offset in a frame are for (`generate_message_data_stream` in
`fernq-core/src/protocol/encoder.rs`, `parse_message` in `fernq-core/src/protocol/decoder.rs`): a
receiver that copies every payload of a channel to its offset gets the message, in whatever order
the frames come, however often, and whatever comes between them.

* `pieceOf`, `reassemble`: the payloads of a channel copied into one buffer.
* `reassemble_eq`: the frames of a stream among any others of other channels make its data.
* `interleaved_streams_reassemble`: the streams of any number of calls.
* `message_through_frames`: a request or response that was cut into frames.
-/

namespace Fernq

/-- The total length that a frame of the channel names, and its payload at its offset. -/
def pieceOf (id : ChannelId) (frame : List UInt8) : Option (ℕ × Piece UInt8) :=
  match parseMessage frame with
  | .ok (header, payload) =>
      if header.channelId = id then some (header.totalLen, ⟨header.streamOffset, payload⟩) else none
  | _ => none

/-- The payloads of a channel copied into a buffer of the length that the first of its frames
names. -/
def reassemble (id : ChannelId) (frames : List (List UInt8)) : Option (List UInt8) :=
  match frames.filterMap (pieceOf id) with
  | [] => none
  | (total, piece) :: rest =>
      some (assemble (List.replicate total 0) (piece :: rest.map Prod.snd))

variable {c : StreamCall} {frames fs : List (List UInt8)} {i : ℕ}

/-- The piece in the `i`-th frame of a stream. -/
def StreamCall.piece (c : StreamCall) (i : ℕ) : Piece UInt8 where
  offset := i * maxPayloadLen c.sourceName c.targetName
  content := streamPayload c.sourceName c.targetName c.data i

lemma StreamCall.piece_of (c : StreamCall) (i : ℕ) : (c.piece i).Of c.data := List.take_prefix ..

lemma pieceOf_decodedFrame (h : Encodable c.sourceName c.targetName c.data)
    (hi : i < frameCount c.sourceName c.targetName c.data) :
    pieceOf c.channelId (c.decodedFrame i).frame = some (c.data.length, c.piece i) := by
  rw [pieceOf, StreamCall.parseMessage_decodedFrame h hi]
  exact if_pos rfl

/-- Every place of the data is in one of the frames. -/
lemma exists_piece_covers (h : Encodable c.sourceName c.targetName c.data) {k : ℕ}
    (hk : k < c.data.length) :
    ∃ i < frameCount c.sourceName c.targetName c.data, (c.piece i).Covers k := by
  have hm := le_maxPayloadLen h.source_le h.target_le
  have hdiv := Nat.div_add_mod' k (maxPayloadLen c.sourceName c.targetName)
  have hmod := Nat.mod_lt k (by omega : 0 < maxPayloadLen c.sourceName c.targetName)
  refine ⟨k / maxPayloadLen c.sourceName c.targetName, ?_, ?_, ?_⟩
  · exact (lt_frameCount_iff (by omega) _ _).mpr (by omega)
  · exact Nat.div_mul_le_self ..
  · rw [StreamCall.piece, streamPayload_length]
    dsimp only
    omega

lemma mem_of_encode (hgen : c.encode = .ok fs) :
    Encodable c.sourceName c.targetName c.data ∧ ∀ frame, frame ∈ fs ↔
      ∃ i < frameCount c.sourceName c.targetName c.data, frame = (c.decodedFrame i).frame := by
  obtain ⟨henc, rfl⟩ := generateMessageDataStream_eq_ok_iff.mp hgen
  refine ⟨henc, fun frame => ?_⟩
  simp only [streamFrames, List.mem_map, List.mem_range, StreamCall.decodedFrame]
  exact exists_congr fun i => and_congr_right fun _ => eq_comm

/-- The frames of a stream make its data, in whatever order and however often they come, and
whatever else comes that is not of their channel. -/
theorem reassemble_eq (hgen : c.encode = .ok fs) (hall : ∀ frame ∈ fs, frame ∈ frames)
    (honly : ∀ frame ∈ frames, (pieceOf c.channelId frame).isSome → frame ∈ fs) :
    reassemble c.channelId frames = if c.data = [] then none else some c.data := by
  obtain ⟨henc, hfs⟩ := mem_of_encode hgen
  -- what the frames of the channel name, and where they reach
  have hpieces : ∀ x ∈ frames.filterMap (pieceOf c.channelId),
      ∃ i < frameCount c.sourceName c.targetName c.data, x = (c.data.length, c.piece i) := by
    intro x hx
    obtain ⟨frame, hmem, hx⟩ := List.mem_filterMap.mp hx
    obtain ⟨i, hi, rfl⟩ := (hfs frame).mp (honly frame hmem (by rw [hx]; rfl))
    rw [pieceOf_decodedFrame henc hi, Option.some.injEq] at hx
    exact ⟨i, hi, hx.symm⟩
  have hcovered : ∀ k < c.data.length,
      ∃ x ∈ frames.filterMap (pieceOf c.channelId), x.2.Covers k := by
    intro k hk
    obtain ⟨i, hi, hcovers⟩ := exists_piece_covers henc hk
    refine ⟨(c.data.length, c.piece i), List.mem_filterMap.mpr ⟨(c.decodedFrame i).frame, ?_, ?_⟩,
      hcovers⟩
    · exact hall _ ((hfs _).mpr ⟨i, hi, rfl⟩)
    · exact pieceOf_decodedFrame henc hi
  rw [reassemble]
  cases hlist : frames.filterMap (pieceOf c.channelId) with
  | nil =>
      rw [hlist] at hcovered
      have hempty : c.data = [] := by
        by_contra hne
        obtain ⟨x, hx, -⟩ := hcovered 0 (List.length_pos_iff.mpr hne)
        cases hx
      rw [if_pos hempty]
  | cons x rest =>
      rw [hlist] at hpieces hcovered
      obtain ⟨total, piece⟩ := x
      obtain ⟨i, hi, heq⟩ := hpieces _ List.mem_cons_self
      obtain ⟨rfl, rfl⟩ := Prod.mk.inj heq
      have hm := le_maxPayloadLen henc.source_le henc.target_le
      have hne : c.data ≠ [] := by
        intro hnil
        have hlt := (lt_frameCount_iff (by omega) _ _).mp hi
        rw [hnil, List.length_nil] at hlt
        omega
      rw [if_neg hne]
      refine congrArg some (assemble_eq List.length_replicate ?_ ?_)
      · intro p hp
        rw [← List.map_cons (f := Prod.snd) (a := (c.data.length, c.piece i))] at hp
        obtain ⟨x, hx, rfl⟩ := List.mem_map.mp hp
        obtain ⟨j, -, rfl⟩ := hpieces x hx
        exact c.piece_of j
      · intro k hk
        obtain ⟨x, hx, hcovers⟩ := hcovered k hk
        exact ⟨x.2, List.mem_map_of_mem (f := Prod.snd) hx, hcovers⟩

/-- A frame of a stream belongs to its channel. -/
lemma channelId_of_pieceOf {c' : StreamCall} {fs' : List (List UInt8)} {frame : List UInt8}
    (hgen : c'.encode = .ok fs') (hmem : frame ∈ fs')
    (hpiece : (pieceOf c.channelId frame).isSome) : c'.channelId = c.channelId := by
  obtain ⟨henc, hfs⟩ := mem_of_encode hgen
  obtain ⟨i, hi, rfl⟩ := (hfs frame).mp hmem
  by_contra hne
  rw [pieceOf, StreamCall.parseMessage_decodedFrame henc hi] at hpiece
  simp [hne] at hpiece

/-- **Streams may be mixed.**  The frames of calls on different channels, in any order, mixed and
repeated, make the data of every call. -/
theorem interleaved_streams_reassemble (calls : List StreamCall) (frames : List (List UInt8))
    (hids : ∀ c ∈ calls, ∀ c' ∈ calls, c.channelId = c'.channelId → c = c')
    (hgen : ∀ c ∈ calls, ∃ fs, c.encode = .ok fs)
    (hmem : ∀ frame, frame ∈ frames ↔ ∃ c ∈ calls, ∃ fs, c.encode = .ok fs ∧ frame ∈ fs) :
    ∀ c ∈ calls, reassemble c.channelId frames = if c.data = [] then none else some c.data := by
  intro c hc
  obtain ⟨fs, hfs⟩ := hgen c hc
  refine reassemble_eq hfs (fun frame hframe => (hmem frame).mpr ⟨c, hc, fs, hfs, hframe⟩) ?_
  intro frame hframe hpiece
  obtain ⟨c', hc', fs', hfs', hframe'⟩ := (hmem frame).mp hframe
  have hid := channelId_of_pieceOf hfs' hframe' hpiece
  obtain rfl : c' = c := hids c' hc' c hc hid
  rw [hfs, Outcome.ok.injEq] at hfs'
  rwa [hfs']

/-- A call that makes `n` frames. -/
lemma StreamCall.encode_of_count {n : ℕ} (henc : Encodable c.sourceName c.targetName c.data)
    (hn : frameCount c.sourceName c.targetName c.data = n) :
    c.encode = .ok ((List.range n).map fun i => (c.decodedFrame i).frame) := by
  rw [StreamCall.encode_eq henc, StreamCall.decodedFrames, hn, List.map_map]
  rfl

/-- Two short messages on two channels, the frame of the second first and again at the end. -/
theorem interleaved_streams_reassemble_two :
    let first : StreamCall :=
      ⟨.body, true, false, ⟨⟨List.replicate 16 7, rfl⟩⟩, "a", "b", [1, 2, 3]⟩
    let second : StreamCall := ⟨.body, false, true, ⟨⟨List.replicate 16 8, rfl⟩⟩, "c", "b", [4]⟩
    ∀ c ∈ [first, second], reassemble c.channelId
        [(second.decodedFrame 0).frame, (first.decodedFrame 0).frame,
          (second.decodedFrame 0).frame]
      = if c.data = [] then none else some c.data := by
  intro first second
  have hfirst : first.encode = .ok [(first.decodedFrame 0).frame] :=
    StreamCall.encode_of_count (c := first) (n := 1) (by constructor <;> decide) (by decide)
  have hsecond : second.encode = .ok [(second.decodedFrame 0).frame] :=
    StreamCall.encode_of_count (c := second) (n := 1) (by constructor <;> decide) (by decide)
  refine interleaved_streams_reassemble [first, second] _ ?_ ?_ ?_
  · intro c hc c' hc' hid
    rcases List.mem_pair.mp hc with rfl | rfl <;> rcases List.mem_pair.mp hc' with rfl | rfl
    · rfl
    · exact absurd hid (by decide)
    · exact absurd hid (by decide)
    · rfl
  · intro c hc
    rcases List.mem_pair.mp hc with rfl | rfl
    · exact ⟨_, hfirst⟩
    · exact ⟨_, hsecond⟩
  · intro frame
    simp only [List.mem_cons, List.not_mem_nil, or_false, exists_eq_or_imp, exists_eq_left, hfirst,
      hsecond, Outcome.ok.injEq, exists_eq_left']
    tauto

/-! ### Messages -/

/-- The bytes of a message are read back, and are bytes that the parser takes. -/
lemma Message.decode_of_encodeToBytes {m : Message} {text : List UInt8}
    {toVec : Json → Except String (List UInt8)} {fromSlice : List UInt8 → Except String Json}
    (hinv : ∀ w, m.encode = .ok w → Inverts toVec fromSlice w)
    (htext : m.encodeToBytes toVec = .ok text) :
    decodeFromBytes fromSlice text = .ok m ∧ ∃ w, fromSlice text = .ok w := by
  have hencode : m.encodeToBytes toVec = m.encode >>= fun val => orInvalidJson (toVec val) := by
    cases m with
    | request r => rfl
    | response r => exact encodeResponseToBytes_eq_bind ..
  rw [hencode] at htext
  obtain ⟨w, hw, hvec⟩ := Outcome.bind_eq_ok.mp htext
  obtain ⟨text', hprint, hparse⟩ := hinv w hw
  rw [hprint, orInvalidJson, Outcome.ok.injEq] at hvec
  subst hvec
  have hrefused : ¬ m.Refused := by
    intro hrefused
    obtain ⟨e, he⟩ := Message.exists_encode_eq_err hrefused
    rw [hw] at he
    cases he
  obtain ⟨w', hw', hdecode⟩ := Message.exists_encode_eq_ok hrefused
  rw [hw, Outcome.ok.injEq] at hw'
  subst hw'
  refine ⟨?_, w, hparse⟩
  rw [decodeFromBytes_eq_bind, hparse, orInvalidJson, Outcome.ok_bind, hdecode]

/-- **A message survives its frames.**  A request or response that is encoded, cut into the frames
of a stream and put together again from the frames of its channel, however they come, is read
back. -/
theorem message_through_frames (toVec : Json → Except String (List UInt8))
    (fromSlice : List UInt8 → Except String Json) (m : Message) (c : StreamCall)
    (frames fs : List (List UInt8)) (hempty : ∀ v, fromSlice [] ≠ .ok v)
    (hinv : ∀ w, m.encode = .ok w → Inverts toVec fromSlice w)
    (htext : m.encodeToBytes toVec = .ok c.data) (hgen : c.encode = .ok fs)
    (hall : ∀ frame ∈ fs, frame ∈ frames)
    (honly : ∀ frame ∈ frames, (pieceOf c.channelId frame).isSome → frame ∈ fs) :
    (reassemble c.channelId frames).map (decodeFromBytes fromSlice) = some (.ok m) := by
  obtain ⟨hdecode, w, hparse⟩ := Message.decode_of_encodeToBytes hinv htext
  have hne : c.data ≠ [] := fun hnil => hempty w (hnil ▸ hparse)
  rw [reassemble_eq hgen hall honly, if_neg hne, Option.map_some, hdecode]

/-- A text of 9000 characters. -/
@[irreducible] def echoBody : String := String.ofList (List.replicate 9000 'p')

/-- The request for `/echo` with the text as its body: the object that is serialised. -/
def longObject : Json :=
  .object [("body", .string echoBody), ("content_type", .string "json"),
    ("header_type", .string "request"), ("path", .string "/echo")]

def longBytes : List UInt8 :=
  utf8Bytes ("\x7b\"body\":\"" ++ (echoBody ++
    "\",\"content_type\":\"json\",\"header_type\":\"request\",\"path\":\"/echo\"\x7d"))

lemma length_longBytes : longBytes.length = 9072 := by
  have hsize : echoBody.utf8ByteSize = 9000 := by
    unfold echoBody
    rw [utf8ByteSize_replicate]
    rfl
  rw [longBytes, utf8Bytes_length, String.utf8ByteSize_append, String.utf8ByteSize_append, hsize]
  decide

lemma encodable_longBytes : Encodable "a" "b" longBytes := by
  refine ⟨by decide, by decide, by decide, by decide, ?_⟩
  rw [length_longBytes]
  decide

lemma frameCount_longBytes : frameCount "a" "b" longBytes = 2 := by
  rw [frameCount, length_longBytes]
  decide

/-- `serde_json::from_slice` on the empty slice and on that text. -/
def parseLong (text : List UInt8) : Except String Json :=
  if text = [] then .error "EOF while parsing a value" else .ok longObject

/-- The request in two frames, which come in the other order, with a frame of another channel
between them. -/
theorem message_through_frames_echo :
    let c : StreamCall := ⟨.body, true, false, ⟨⟨List.replicate 16 7, rfl⟩⟩, "a", "b", longBytes⟩
    let other : StreamCall := ⟨.body, true, false, ⟨⟨List.replicate 16 8, rfl⟩⟩, "a", "b", [1, 2]⟩
    c.encode = .ok [(c.decodedFrame 0).frame, (c.decodedFrame 1).frame] ∧
    (reassemble c.channelId [(c.decodedFrame 1).frame, (other.decodedFrame 0).frame,
        (c.decodedFrame 0).frame]).map (decodeFromBytes parseLong)
      = some (.ok (.request ⟨.json, "/echo", some (.string echoBody)⟩)) := by
  intro c other
  have hgen : c.encode = .ok [(c.decodedFrame 0).frame, (c.decodedFrame 1).frame] :=
    StreamCall.encode_of_count (c := c) (n := 2) encodable_longBytes frameCount_longBytes
  have hother : other.encode = .ok [(other.decodedFrame 0).frame] :=
    StreamCall.encode_of_count (c := other) (n := 1) (by constructor <;> decide) (by decide)
  refine ⟨hgen, message_through_frames (fun _ => .ok longBytes) _ _ c _ _ ?_ ?_ rfl hgen ?_ ?_⟩
  · intro v hv
    cases hv
  · intro w hw
    cases hw
    exact ⟨_, rfl, if_neg (List.ne_nil_of_length_pos (by rw [length_longBytes]; omega))⟩
  · intro frame hframe
    simp only [List.mem_cons, List.not_mem_nil, or_false] at hframe ⊢
    tauto
  · intro frame hframe hpiece
    simp only [List.mem_cons, List.not_mem_nil, or_false] at hframe ⊢
    obtain rfl | rfl | rfl := hframe
    · exact .inr rfl
    · have hid := channelId_of_pieceOf hother (List.mem_singleton_self _) hpiece
      exact absurd hid (by decide)
    · exact .inl rfl

end Fernq
