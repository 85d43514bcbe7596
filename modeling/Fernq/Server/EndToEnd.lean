import Mathlib.Tactic
import Fernq.Protocol.Reassembly
import Fernq.Server.Wire

/-!
A message from client to client: encoded and cut into frames (`message.rs`, `encoder.rs` of
`fernq-core/src/protocol`), read by a listener, forwarded by a worker and written to the socket of
the target (`fernqd/src/server/room.rs`, `conn.rs`), decoded there and put together again
(`decoder.rs`, `message.rs`).

* `OwnsChannel`: the channel of a call carries nothing else.
* `mem_of_pieceOf`: what a client is written on the channel are frames of the call.
* `message_end_to_end`: the client puts together the message, and nothing else before.
-/

namespace Fernq

namespace Room

open TcpConn

variable {C : Type} [DecidableEq C] {cfg : RoomConfig C} {s : Room cfg} {d : C} {call : StreamCall}
  {fs : List (List UInt8)}

/-- No frame on the channel has been sent but these. -/
def OwnsChannel (s : Room cfg) (id : ChannelId) (fs : List (List UInt8)) : Prop :=
  ∀ e frame, s.ReadOn e frame → getChannelId frame = .ok id → frame ∈ fs

/-- A ping belongs to no channel. -/
lemma pieceOf_pingFrame (id : ChannelId) : pieceOf id pingFrame = none := by
  have hshort : pingFrame.length < messageFixedLen := by decide
  rw [pieceOf, parseMessage, if_pos hshort]

omit [DecidableEq C] in
/-- A frame that was sent on the channel is one of these. -/
lemma OwnsChannel.mem {id : ChannelId} {e : C} {call' : StreamCall} {i : ℕ}
    (h : s.OwnsChannel id fs) (hsent : s.Sent e call' i) (hid : call'.channelId = id) :
    (call'.decodedFrame i).frame ∈ fs :=
  h e _ hsent.2.2 (hid ▸ getChannelId_messageFrame ..)

omit [DecidableEq C] in
/-- What a client is written on the channel are frames of the call, unless it sent them. -/
lemma mem_of_pieceOf {frame : DecodedFrame} (hgen : call.encode = .ok fs)
    (hown : s.OwnsChannel call.channelId fs) (hself : call.sourceName ≠ cfg.name d)
    (hframe : s.WireFrame d frame) (hpiece : (pieceOf call.channelId frame.frame).isSome) :
    frame.frame ∈ fs := by
  -- a frame of a call belongs to its channel
  have hchannel : ∀ (call' : StreamCall) {i : ℕ},
      Encodable call'.sourceName call'.targetName call'.data →
      i < frameCount call'.sourceName call'.targetName call'.data →
      (pieceOf call.channelId (call'.decodedFrame i).frame).isSome →
      call'.channelId = call.channelId := by
    intro call' i henc hi hsome
    have hgen' := call'.encode_eq henc
    exact channelId_of_pieceOf (c := call) hgen' (((mem_of_encode hgen').2 _).mpr ⟨i, hi, rfl⟩)
      hsome
  cases hframe with
  | ping =>
      rw [pieceOf_pingFrame] at hpiece
      cases hpiece
  | answer e call' i json hsent hname _ henc hpos =>
      -- then the client has sent a frame of the call
      have hid := hchannel ⟨.header, true, true, call'.channelId, "fernq", cfg.name d, json⟩ henc
        hpos hpiece
      obtain ⟨henc', hfs⟩ := mem_of_encode hgen
      obtain ⟨j, hj, heq⟩ := (hfs _).mp (hown.mem hsent hid)
      have hnames : getMessageSourceTarget (call'.decodedFrame i).frame
          = .ok (call'.sourceName, call'.targetName) :=
        getMessageSourceTarget_messageFrame (StreamCall.fieldsFit hsent.1 hsent.2.1)
      have hnames' : getMessageSourceTarget (call.decodedFrame j).frame
          = .ok (call.sourceName, call.targetName) :=
        getMessageSourceTarget_messageFrame (StreamCall.fieldsFit henc' hj)
      rw [heq, hnames', Outcome.ok.injEq, Prod.mk.injEq] at hnames
      exact absurd (hnames.1.trans hname) hself
  | forwarded e call' i hsent _ =>
      exact hown.mem hsent (hchannel call' hsent.1 hsent.2.1 hpiece)

/-- **A message arrives as it was sent.**  A request or response is encoded and cut into frames on a
channel of its own, and every connection sends what the core's encoders make.  Then in every
reachable state, whatever the listeners, the workers and the heartbeat are doing and however the
bytes of a client other than the sender are cut on the way, all that the client decodes on the
channel are pieces of the message at their offsets; and once the writes of all its frames to the
client have returned, these make the message. -/
theorem message_end_to_end (toVec : Json → Except String (List UInt8))
    (fromSlice : List UInt8 → Except String Json) (m : Message)
    (hempty : ∀ v, fromSlice [] ≠ .ok v) (hinv : ∀ w, m.encode = .ok w → Inverts toVec fromSlice w)
    (htext : m.encodeToBytes toVec = .ok call.data) (hgen : call.encode = .ok fs)
    (h : (lts cfg).Reach s) (hsent : ∀ e, s.Encoding e)
    (hown : s.OwnsChannel call.channelId fs) (hself : call.sourceName ≠ cfg.name d)
    (chunks : List (List UInt8))
    (hchunks : chunks.flatten = (s.link d).conn.out) :
    ∃ (frames : List DecodedFrame) (tail : List UInt8), decodeLoop chunks = ⟨frames, .ok tail⟩ ∧
      (∀ frame ∈ frames, ∀ total piece,
        pieceOf call.channelId frame.frame = some (total, piece) →
          total = call.data.length ∧ piece.Of call.data) ∧
      ((∀ frame ∈ fs, ∃ k, (s.link d).calls k = some (.write frame (.returned (.ok ())))) →
        (reassemble call.channelId (frames.map DecodedFrame.frame)).map (decodeFromBytes fromSlice)
          = some (.ok m)) := by
  obtain ⟨frames, tail, hloop, hframes, hwritten, -⟩ := exists_decoded h hsent d chunks hchunks
  refine ⟨frames, tail, hloop, ?_, fun hall => ?_⟩
  · intro frame hframe total piece hpiece
    have hmem := mem_of_pieceOf hgen hown hself (hframes frame hframe) (by rw [hpiece]; rfl)
    obtain ⟨henc, hfs⟩ := mem_of_encode hgen
    obtain ⟨i, hi, heq⟩ := (hfs _).mp hmem
    rw [heq, pieceOf_decodedFrame henc hi, Option.some.injEq, Prod.mk.injEq] at hpiece
    obtain ⟨rfl, rfl⟩ := hpiece
    exact ⟨rfl, call.piece_of i⟩
  · refine message_through_frames toVec fromSlice m call _ fs hempty hinv htext hgen ?_ ?_
    · intro frame hframe
      obtain ⟨k, hk⟩ := hall frame hframe
      exact hwritten k frame hk
    · intro frame hframe hpiece
      obtain ⟨df, hdf, rfl⟩ := List.mem_map.mp hframe
      exact mem_of_pieceOf hgen hown hself (hframes df hdf) hpiece

section Echo

/-- The request for `/echo` in two frames. -/
def echoCall : StreamCall := ⟨.body, true, false, pairChannel, "a", "b", longBytes⟩

/-- The message that is sent between them. -/
def noteCall : StreamCall := ⟨.body, true, false, noteChannel, "a", "b", [7]⟩

lemma encode_echoCall : echoCall.encode =
    .ok [(echoCall.decodedFrame 0).frame, (echoCall.decodedFrame 1).frame] :=
  StreamCall.encode_of_count (c := echoCall) (n := 2) encodable_longBytes frameCount_longBytes

lemma encode_noteCall : noteCall.encode = .ok [(noteCall.decodedFrame 0).frame] :=
  StreamCall.encode_of_count (c := noteCall) (n := 1) (by constructor <;> decide) (by decide)

/-- What connection 0 sends. -/
def echoEncoding : List EncodedFrame := [.part echoCall 0, .part noteCall 0, .part echoCall 1]

lemma made_echoEncoding : ∀ e ∈ echoEncoding, e.Made := by
  intro e he
  simp only [echoEncoding, List.mem_cons, List.not_mem_nil, or_false] at he
  obtain rfl | rfl | rfl := he
  · exact ⟨_, encode_echoCall, rfl⟩
  · exact ⟨_, encode_noteCall, rfl⟩
  · exact ⟨_, encode_echoCall, rfl⟩

lemma received_parcelForwarded (e : ℕ) :
    (parcelForwarded longBytes).log.received e <+: EncodedFrame.allBytes echoEncoding := by
  by_cases he : e = 0
  · subst he
    simp [parcelForwarded, served, parcelWaiting, parcelSent, parcelSecond, parcelFirst, sent,
      listening, EncodedFrame.bytes, parcelBytes, parcelTask, noteTask, streamTask, echoCall,
      noteCall, StreamCall.decodedFrame, EncodedFrame.allBytes, echoEncoding]
  · simp [parcelForwarded, served, parcelWaiting, parcelSent, parcelSecond, parcelFirst, sent,
      listening, he]

/-- The first and the last of the three calls on connection 1 have returned `Ok`. -/
lemma calls_parcelForwarded (data : List UInt8) :
    ((parcelForwarded data).link 1).calls ⟨.forward ⟨0, parcelTask data 0⟩, 0⟩ =
        some (.write (parcelTask data 0).payload (.returned (.ok ()))) ∧
      ((parcelForwarded data).link 1).calls ⟨.forward ⟨0, parcelTask data 1⟩, 2⟩ =
        some (.write (parcelTask data 1).payload (.returned (.ok ()))) := by
  refine ⟨?_, calls_served⟩
  rw [parcelForwarded, calls_served_of_ne (by simp), calls_served_of_ne (by simp)]
  exact calls_served

/-- The client `b` reads the request of `a`, from two pieces of the stream. -/
theorem message_end_to_end_echo : ∃ (s : Room pair) (frames : List DecodedFrame)
    (tail : List UInt8), (lts pair).Reach s ∧
      decodeLoop [(s.link 1).conn.out.take 100, (s.link 1).conn.out.drop 100]
        = ⟨frames, .ok tail⟩ ∧
      (reassemble pairChannel (frames.map DecodedFrame.frame)).map (decodeFromBytes parseLong)
        = some (.ok (.request ⟨.json, "/echo", some (.string echoBody)⟩)) := by
  have h : (lts pair).Reach (parcelForwarded longBytes) :=
    (reach_parcelForwarded encodable_longBytes frameCount_longBytes).1.reach
  have hown : (parcelForwarded longBytes).OwnsChannel echoCall.channelId
      [(echoCall.decodedFrame 0).frame, (echoCall.decodedFrame 1).frame] := by
    rintro e frame ⟨whole, rest, hwhole, hframes, hmem⟩ hid
    obtain ⟨e', he', rfl⟩ := mem_encoded_of_prefix made_echoEncoding hframes
      (hwhole ▸ received_parcelForwarded e) frame hmem
    simp only [echoEncoding, List.mem_cons, List.not_mem_nil, or_false] at he'
    obtain rfl | rfl | rfl := he'
    · exact List.mem_cons_self
    · have hnote : getChannelId (EncodedFrame.part noteCall 0).bytes = .ok noteChannel :=
        getChannelId_messageFrame ..
      exact absurd (Outcome.ok.inj (hnote.symm.trans hid)) (by decide)
    · exact List.mem_cons_of_mem _ (List.mem_singleton_self _)
  obtain ⟨frames, tail, hloop, -, hmessage⟩ := message_end_to_end (d := 1) (fun _ => .ok longBytes)
    parseLong (.request ⟨.json, "/echo", some (.string echoBody)⟩) (fun v hv => by cases hv)
    (fun w hw => by
      cases hw
      exact ⟨_, rfl, if_neg (List.ne_nil_of_length_pos (by rw [length_longBytes]; omega))⟩)
    rfl encode_echoCall h (fun e => ⟨_, made_echoEncoding, received_parcelForwarded e⟩) hown
    (by decide) [((parcelForwarded longBytes).link 1).conn.out.take 100,
      ((parcelForwarded longBytes).link 1).conn.out.drop 100] (by simp)
  refine ⟨_, frames, tail, h, hloop, hmessage ?_⟩
  intro frame hframe
  simp only [List.mem_cons, List.not_mem_nil, or_false] at hframe
  obtain rfl | rfl := hframe
  · exact ⟨_, (calls_parcelForwarded longBytes).1⟩
  · exact ⟨_, (calls_parcelForwarded longBytes).2⟩

end Echo

end Room

end Fernq
