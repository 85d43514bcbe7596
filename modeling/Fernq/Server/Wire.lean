import Mathlib.Tactic
import Fernq.Protocol.Framing
import Fernq.Server.Sources
import Fernq.Server.Surviving

/-!
What a client of a room reads from its socket (`fernqd/src/server/room.rs`,
`fernqd/src/server/conn.rs`, read with `decode_basic` of `fernq-core/src/protocol/decoder.rs`), when
every client sends what the core's encoders make.

* `Encoding`: what has arrived from a connection is the beginning of encoded frames.
* `exists_sent_of_accepted`: then a frame that was sent to a worker is a frame of a call, sent by
  its connection.
* `WireFrame`: the frames that a connection is written: pings, answers of the server, and frames of
  other clients for its name.
* `socket_decodes`: the bytes of a socket decode to such frames, and to no error, in any chunking.
-/

namespace Fernq

namespace Room

open TcpConn

variable {C : Type} [DecidableEq C] {cfg : RoomConfig C} {s : Room cfg} {c : C}

/-- The bytes from `c` are the beginning of frames that the core's encoders make. -/
def Encoding (s : Room cfg) (c : C) : Prop :=
  ∃ frames : List EncodedFrame, (∀ frame ∈ frames, frame.Made) ∧
    s.log.received c <+: EncodedFrame.allBytes frames

omit [DecidableEq C] in
/-- Whole frames in front of encoded frames are encoded frames. -/
lemma mem_encoded_of_prefix {frames : List (List UInt8)} {rest : List UInt8}
    {encoded : List EncodedFrame} (hmade : ∀ e ∈ encoded, e.Made)
    (hwhole : ∀ frame ∈ frames, WholeFrame frame)
    (hpre : frames.flatten ++ rest <+: EncodedFrame.allBytes encoded) :
    ∀ frame ∈ frames, ∃ e ∈ encoded, frame = e.bytes := by
  induction frames generalizing encoded with
  | nil => exact nofun
  | cons frame frames ih =>
      rw [List.forall_mem_cons] at hwhole
      obtain ⟨head, body, t, f, rfl, hlen, hread⟩ := hwhole.1
      rw [List.flatten_cons, List.append_assoc, List.append_assoc] at hpre
      cases encoded with
      | nil =>
          have hnil := List.append_eq_nil_iff.mp (List.prefix_nil.mp hpre)
          rw [hnil.1] at hlen
          cases hlen
      | cons e encoded =>
          rw [List.forall_mem_cons] at hmade
          obtain ⟨header, payload, t', f', action, he⟩ := e.exists_readAs hmade.1 0
          rw [EncodedFrame.allBytes_cons, he.cut, List.append_assoc] at hpre
          -- the heads agree, so the bodies are equally long and agree too
          have hhead : head = header :=
            append_eq_of_prefix hpre (hlen.trans he.length.symm)
          subst hhead
          have hbody : body.length = payload.length := by
            have heq := hread.symm.trans he.header_eq
            injection heq
          rw [List.prefix_append_right_inj] at hpre
          have hpayload : body = payload := append_eq_of_prefix hpre hbody
          subst hpayload
          rw [List.prefix_append_right_inj] at hpre
          refine List.forall_mem_cons.mpr ⟨⟨e, List.mem_cons_self, he.cut.symm⟩, ?_⟩
          intro frame hframe
          obtain ⟨e', he', heq⟩ := ih hmade.2 hwhole.2 hpre frame hframe
          exact ⟨e', List.mem_cons_of_mem _ he', heq⟩

/-- A frame of a call that a connection has sent as a whole. -/
def Sent (s : Room cfg) (e : C) (call : StreamCall) (i : ℕ) : Prop :=
  Encodable call.sourceName call.targetName call.data ∧
    i < frameCount call.sourceName call.targetName call.data ∧
    s.ReadOn e (call.decodedFrame i).frame

/-- A frame that was sent to a worker is a frame of a call, with the names of the call. -/
lemma exists_sent_of_accepted (h : (lts cfg).Reach s) {item : Item C}
    (hmem : item ∈ s.log.items.accepted) (hsent : s.Encoding item.source) :
    ∃ call i, s.Sent item.source call i ∧ item.task.payload = (call.decodedFrame i).frame ∧
      item.task.fromName = call.sourceName ∧ item.task.toName = call.targetName := by
  obtain ⟨hread, hnames⟩ := fromSource_of_accepted h hmem
  obtain ⟨frames, rest, hreceived, hwhole, hpayload⟩ := id hread
  obtain ⟨encoded, hmade, hpre⟩ := hsent
  rw [hreceived] at hpre
  obtain ⟨e, he, heq⟩ := mem_encoded_of_prefix hmade hwhole hpre _ hpayload
  cases e with
  | ping =>
      rw [heq] at hnames
      cases hnames
  | pong =>
      rw [heq] at hnames
      cases hnames
  | part call i =>
      obtain ⟨fs, hgen, hget⟩ := hmade _ he
      obtain ⟨henc, hfs⟩ := generateMessageDataStream_eq_ok_iff.mp hgen
      have hi : i < frameCount call.sourceName call.targetName call.data := by
        rw [hfs] at hget
        simpa [streamFrames] using (List.getElem?_eq_some_iff.mp hget).1
      rw [heq] at hnames hread
      have hcall : getMessageSourceTarget (call.decodedFrame i).frame
          = .ok (call.sourceName, call.targetName) :=
        getMessageSourceTarget_messageFrame (StreamCall.fieldsFit henc hi)
      have hpair := hnames.symm.trans hcall
      rw [Outcome.ok.injEq, Prod.mk.injEq] at hpair
      exact ⟨call, i, ⟨henc, hi, hread⟩, heq, hpair.1, hpair.2⟩

/-- The frames a connection is written: pings, answers of the server to frames that some connection
has sent in its name, and frames that some connection has sent for its name. -/
inductive WireFrame (s : Room cfg) (c : C) : DecodedFrame → Prop
  | ping : WireFrame s c ⟨.ping, .new true true false, pingFrame⟩
  | answer (e : C) (call : StreamCall) (i : ℕ) (json : List UInt8) : s.Sent e call i →
      call.sourceName = cfg.name c →
      encodeResponseToBytes cfg.toVec 404 .json (some (.string "404 Not Found !")) = .ok json →
      Encodable "fernq" (cfg.name c) json → 0 < frameCount "fernq" (cfg.name c) json →
      WireFrame s c ((⟨.header, true, true, call.channelId, "fernq", cfg.name c, json⟩ :
        StreamCall).decodedFrame 0)
  | forwarded (e : C) (call : StreamCall) (i : ℕ) : s.Sent e call i →
      call.targetName = cfg.name c → WireFrame s c (call.decodedFrame i)

omit [DecidableEq C] in
/-- Such a frame is accepted as a whole. -/
lemma WireFrame.decodeBasic_eq {d : DecodedFrame} (h : s.WireFrame c d) :
    decodeBasic d.frame = .ok (d.messageType, d.flags, d.frame, []) := by
  have hdecoded : ∀ (call : StreamCall) {i : ℕ},
      Encodable call.sourceName call.targetName call.data →
      i < frameCount call.sourceName call.targetName call.data →
      decodeBasic (call.decodedFrame i).frame = .ok ((call.decodedFrame i).messageType,
        (call.decodedFrame i).flags, (call.decodedFrame i).frame, []) := by
    intro call i henc hi
    have hdec : decodeBasic ((call.decodedFrame i).frame ++ [])
        = .ok ((call.decodedFrame i).messageType, (call.decodedFrame i).flags,
          (call.decodedFrame i).frame, []) :=
      decodeBasic_messageFrame (StreamCall.fieldsFit henc hi) []
    rw [List.append_nil] at hdec
    exact hdec
  cases h with
  | ping => decide +kernel
  | answer e call i json _ _ _ henc hpos =>
      exact hdecoded ⟨.header, true, true, call.channelId, "fernq", cfg.name c, json⟩ henc hpos
  | forwarded e call i hsent _ => exact hdecoded call hsent.1 hsent.2.1

omit [DecidableEq C] in
lemma WireFrame.whole {d : DecodedFrame} (h : s.WireFrame c d) : frameDecoder.Whole d.frame d :=
  decodeNext_eq_item_iff.mpr h.decodeBasic_eq

/-- What a call writes to a connection is such a frame. -/
lemma exists_wireFrame (h : (lts cfg).Reach s) (hsent : ∀ e, s.Encoding e) {k : CallId C}
    {data : List UInt8} {stage : WriteStage}
    (hk : (s.link c).calls k = some (.write data stage)) :
    ∃ d, s.WireFrame c d ∧ d.frame = data := by
  have haddr := addressed_of_reach h
  have hmakes := (called_of_reach h).makes c k _ hk
  obtain ⟨caller, n⟩ := k
  cases caller with
  | forward item =>
      obtain ⟨stage', heq⟩ := hmakes
      obtain ⟨rfl, -⟩ := Call.write.inj heq
      obtain ⟨hmem, hname, -⟩ := haddr.forward c item n _ hk
      obtain ⟨call, i, hcall, hpayload, -, hto⟩ := exists_sent_of_accepted h hmem (hsent _)
      exact ⟨_, .forwarded item.source call i hcall (hto.symm.trans hname.symm), hpayload.symm⟩
  | reply item =>
      obtain ⟨res, stage', hres, heq⟩ := hmakes
      obtain ⟨rfl, -⟩ := Call.write.inj heq
      obtain ⟨hmem, hname, -⟩ := haddr.reply c item n _ hk
      obtain ⟨call, i, hcall, hpayload, hfrom, -⟩ := exists_sent_of_accepted h hmem (hsent _)
      obtain ⟨id, hid, hres⟩ := Outcome.bind_eq_ok.mp hres
      obtain rfl : call.channelId = id := by
        have hframe : getChannelId item.task.payload = .ok call.channelId :=
          hpayload ▸ getChannelId_messageFrame ..
        exact Outcome.ok.inj (hframe.symm.trans hid)
      obtain ⟨json, hjson, henc, hpos, rfl⟩ := exists_call_of_createMessageResponse hres
      rw [← hname] at henc hpos ⊢
      exact ⟨_, .answer item.source call i json hcall (hfrom.symm.trans hname.symm) hjson henc hpos,
        rfl⟩
  | ping =>
      obtain ⟨stage', heq⟩ := hmakes
      obtain ⟨rfl, -⟩ := Call.write.inj heq
      exact ⟨_, .ping, rfl⟩
  | replace _ => exact nomatch hmakes
  | cleanup => exact nomatch hmakes
  | timeout => exact nomatch hmakes
  | reject => exact nomatch hmakes

omit [DecidableEq C] in
/-- Data of whole frames, one after the other. -/
lemma exists_frames (datas : List (List UInt8))
    (h : ∀ data ∈ datas, ∃ d, s.WireFrame c d ∧ d.frame = data) :
    ∃ frames : List DecodedFrame, (∀ d ∈ frames, s.WireFrame c d) ∧
      frames.map DecodedFrame.frame = datas := by
  induction datas with
  | nil => exact ⟨[], nofun, rfl⟩
  | cons data datas ih =>
      rw [List.forall_mem_cons] at h
      obtain ⟨d, hd, rfl⟩ := h.1
      obtain ⟨frames, hframes, rfl⟩ := ih h.2
      exact ⟨d :: frames, List.forall_mem_cons.mpr ⟨hd, hframes⟩, rfl⟩

/-- All writes to the connection that have returned `Ok` are among the frames. -/
def HasWritten (s : Room cfg) (c : C) (frames : List DecodedFrame) : Prop :=
  ∀ k data, (s.link c).calls k = some (.write data (.returned (.ok ()))) →
    data ∈ frames.map DecodedFrame.frame

/-- What a connection was written is frames for it, and the beginning of one more. -/
lemma exists_out (h : (lts cfg).Reach s) (hsent : ∀ e, s.Encoding e) (c : C) :
    ∃ (frames : List DecodedFrame) (tail : List UInt8), (∀ d ∈ frames, s.WireFrame c d) ∧
      s.HasWritten c frames ∧
      (s.link c).conn.out = (frames.map DecodedFrame.frame).flatten ++ tail ∧
      ∃ d, s.WireFrame c d ∧ tail <+: d.frame := by
  have hlink := link_of_reach h c
  have hwrite : ∀ {k data stage}, (s.link c).calls k = some (.write data stage) →
      ∃ d, s.WireFrame c d ∧ d.frame = data := fun hk => exists_wireFrame h hsent hk
  have htook : ∀ k ∈ (s.link c).conn.acquired,
      ∃ d, s.WireFrame c d ∧ d.frame = (s.link c).dataOf k := by
    intro k hk
    obtain ⟨call, hcall, hturn⟩ :=
      SharedConn.exists_of_on ((SharedConn.turns_of_reach hlink).took k hk)
    cases call with
    | write data stage =>
        rw [SharedConn.dataOf_eq hcall]
        exact hwrite hcall
    | close stage => cases hturn
  obtain ⟨tail, hout, htail⟩ := SharedConn.whole_of_reach hlink
  obtain ⟨frames, hframes, hdatas⟩ := exists_frames (s := s) (c := c)
    (((s.link c).conn.acquired.filter ((s.link c).on Call.wroteOk)).map (s.link c).dataOf) (by
      intro data hdata
      obtain ⟨k, hk, rfl⟩ := List.mem_map.mp hdata
      exact htook k (List.mem_filter.mp hk).1)
  have hwritten : s.HasWritten c frames := by
    intro k data hk
    have hok : (s.link c).on Call.wroteOk k = true := SharedConn.on_eq hk
    have hmem := (SharedConn.turns_of_reach hlink).owns k
      (SharedConn.on_mono Call.ownsTurn_of_wroteOk hok)
    rw [hdatas]
    exact List.mem_map.mpr ⟨k, List.mem_filter.mpr ⟨hmem, hok⟩, SharedConn.dataOf_eq hk⟩
  refine ⟨frames, tail, hframes, hwritten, by rw [hout, SharedConn.delivered, hdatas], ?_⟩
  cases htail with
  | clean _ => exact ⟨_, .ping, List.nil_prefix⟩
  | running hk =>
      obtain ⟨d, hd, heq⟩ := hwrite hk
      exact ⟨d, hd, heq ▸ List.prefix_append _ _⟩
  | whole hk =>
      obtain ⟨d, hd, heq⟩ := hwrite hk
      exact ⟨d, hd, heq ▸ List.prefix_refl _⟩
  | cut _ hk _ hpre _ =>
      obtain ⟨d, hd, heq⟩ := htook _ hk
      exact ⟨d, hd, heq ▸ hpre⟩

/-- The client decodes what it was written, in any chunks: frames for it, among them all that were
written to the end. -/
lemma exists_decoded (h : (lts cfg).Reach s) (hsent : ∀ e, s.Encoding e) (c : C)
    (chunks : List (List UInt8)) (hchunks : chunks.flatten = (s.link c).conn.out) :
    ∃ (frames : List DecodedFrame) (tail : List UInt8), decodeLoop chunks = ⟨frames, .ok tail⟩ ∧
      (∀ d ∈ frames, s.WireFrame c d) ∧ s.HasWritten c frames ∧
      (s.link c).conn.out = (frames.map DecodedFrame.frame).flatten ++ tail ∧
      ∃ d, s.WireFrame c d ∧ tail <+: d.frame ∧ tail ≠ d.frame := by
  suffices hsuff : ∃ (frames : List DecodedFrame) (tail : List UInt8),
      (∀ d ∈ frames, s.WireFrame c d) ∧ s.HasWritten c frames ∧
      (s.link c).conn.out = (frames.map DecodedFrame.frame).flatten ++ tail ∧
      ∃ d, s.WireFrame c d ∧ tail <+: d.frame ∧ tail ≠ d.frame by
    obtain ⟨frames, tail, hframes, hwritten, hout, d, hd, hpre, hne⟩ := hsuff
    refine ⟨frames, tail, ?_, hframes, hwritten, hout, d, hd, hpre, hne⟩
    have hdrain := IncrementalDecoder.drain_frames (D := frameDecoder)
      (frames.map fun d => (d.frame, d)) (by
        intro x hx
        obtain ⟨d, hd, rfl⟩ := List.mem_map.mp hx
        exact (hframes d hd).whole)
      (IncrementalDecoder.decode_of_strict_prefix hd.whole hpre hne)
    rw [List.map_map, List.map_map] at hdrain
    rw [decodeLoop_eq, hchunks, hout]
    exact hdrain.trans (by rw [show Prod.snd ∘ (fun d : DecodedFrame => (d.frame, d)) = id from rfl,
      List.map_id])
  obtain ⟨frames, tail, hframes, hwritten, hout, d, hd, hpre⟩ := exists_out h hsent c
  by_cases heq : tail = d.frame
  · -- the last write is there as a whole
    refine ⟨frames ++ [d], [], ?_, ?_, ?_, _, .ping, List.nil_prefix, by decide +kernel⟩
    · exact List.forall_mem_append.mpr ⟨hframes, List.forall_mem_singleton.mpr hd⟩
    · intro k data hk
      rw [List.map_append]
      exact List.mem_append_left _ (hwritten k data hk)
    · rw [hout, heq]
      simp
  · exact ⟨frames, tail, hframes, hwritten, hout, d, hd, hpre, heq⟩

/-- **A client decodes what it is written.**  When every connection sends what the core's encoders
make, then in every reachable state and however the bytes of a socket are cut on the way, the client
that buffers and decodes them finds no error: it finds pings, answers of the server to frames sent
in its name and frames that some connection has sent for its name, in which all the bytes are used
but the beginning of one more such frame. -/
theorem socket_decodes (h : (lts cfg).Reach s) (hsent : ∀ e, s.Encoding e) (c : C)
    (chunks : List (List UInt8)) (hchunks : chunks.flatten = (s.link c).conn.out) :
    ∃ (frames : List DecodedFrame) (tail : List UInt8), decodeLoop chunks = ⟨frames, .ok tail⟩ ∧
      (∀ d ∈ frames, s.WireFrame c d) ∧
      (s.link c).conn.out = (frames.map DecodedFrame.frame).flatten ++ tail ∧
      ∃ d, s.WireFrame c d ∧ tail <+: d.frame ∧ tail ≠ d.frame := by
  obtain ⟨frames, tail, hloop, hframes, -, hrest⟩ := exists_decoded h hsent c chunks hchunks
  exact ⟨frames, tail, hloop, hframes, hrest⟩

/-- A request that was answered: the client finds frames in the answer, read as one chunk. -/
theorem socket_decodes_lost : ∃ (s : Room pair) (res : List UInt8) (frames : List DecodedFrame)
    (tail : List UInt8), notFoundReply pair.toVec lostTask = .ok res ∧
      decodeLoop [res] = ⟨frames, .ok tail⟩ ∧ (∀ d ∈ frames, s.WireFrame 0 d) ∧
      (s.link 0).conn.out = (frames.map DecodedFrame.frame).flatten ++ tail ∧
      ∃ d, s.WireFrame 0 d ∧ tail <+: d.frame ∧ tail ≠ d.frame := by
  obtain ⟨res, hres, h⟩ := reach_lost_answered (P := fun _ => True) fun _ _ => trivial
  have hsent : ∀ e,
      (lost.served 0 [] 0 (.reply ⟨0, lostTask⟩) 0 res (.replied 0 0)).Encoding e := by
    intro e
    by_cases he : e = 0
    · subst he
      refine ⟨[.part ⟨.header, true, false, pairChannel, "a", "b", [7]⟩ 0], ?_, ?_⟩
      · exact List.forall_mem_singleton.mpr ⟨_, generate_lost, rfl⟩
      · simp [served, lost, sent, listening, EncodedFrame.bytes, lostTask, streamTask,
          StreamCall.decodedFrame]
    · refine ⟨[], fun _ h => absurd h List.not_mem_nil, ?_⟩
      simp [served, lost, sent, listening, he]
  have hout : ((lost.served 0 [] 0 (.reply ⟨0, lostTask⟩) 0 res (.replied 0 0)).link 0).conn.out
      = res := by
    simp [served, lost, sent, listening, opened, SharedConn.new, TcpConn.new,
      TcpConn.resetHeartbeats]
  obtain ⟨frames, tail, hframes⟩ := socket_decodes h hsent 0 [res]
    (by rw [hout, List.flatten_singleton])
  exact ⟨_, res, frames, tail, hres, hframes⟩

end Room

end Fernq
