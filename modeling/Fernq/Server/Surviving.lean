import Mathlib.Tactic
import Fernq.Server.Listen
import Fernq.Server.Queues

/-!
The frames a listener survives (`Room::listener` in `fernqd/src/server/room.rs`): the ones its own
protocol makes, up to one.

* `EncodedFrame`: a ping, a pong, or a frame of a message of any type.
* `ReadAs`: how the listener reads a frame, and that it goes on, unless the frame is a ping.
* `listen_end`: over any sequence of frames, read in any chunks, the loop goes on until the first
  ping.
* `Aligned`: in a run of the room the listener stands between two frames, or behind the header of
  one; `aligned_of_reach`.
* `listener_survives_iff`: both together.
-/

namespace Fernq

/-- A frame that one of the encoders makes: a ping, a pong, or the `i`-th frame of a message. -/
inductive EncodedFrame
  | ping
  | pong
  | part (call : StreamCall) (i : ℕ)

namespace EncodedFrame

def bytes : EncodedFrame → List UInt8
  | ping => pingFrame
  | pong => pongFrame
  | part c i => (c.decodedFrame i).frame

/-- The encoder accepts the message, and the frame is one of those it returns. -/
def Made : EncodedFrame → Prop
  | ping | pong => True
  | part c i => ∃ frames, c.encode = .ok frames ∧ frames[i]? = some (c.decodedFrame i).frame

/-- The bytes of frames sent one after another. -/
def allBytes (frames : List EncodedFrame) : List UInt8 := (frames.map bytes).flatten

@[simp] lemma allBytes_nil : allBytes [] = [] := rfl

@[simp] lemma allBytes_cons (frame : EncodedFrame) (frames : List EncodedFrame) :
    allBytes (frame :: frames) = frame.bytes ++ allBytes frames := rfl

lemma allBytes_append (frames frames' : List EncodedFrame) :
    allBytes (frames ++ frames') = allBytes frames ++ allBytes frames' := by
  simp [allBytes]

end EncodedFrame

/-- A frame as a listener reads it: a fixed header that it accepts and the bytes the header
announces, and what comes of them.  After a ping the loop ends, and after any other frame it goes
on. -/
structure ReadAs (workerNumber : ℕ) (frame : EncodedFrame) (header payload : List UInt8)
    (t : MessageType) (f : MessageFlags) (action : FrameAction) : Prop where
  cut : frame.bytes = header ++ payload
  length : header.length = fixedHeaderLen
  header_eq : listenHeader header = .read t f payload.length
  action_eq : listenFrame workerNumber t f header payload = action
  leaves : frame = .ping → action = .leave
  goesOn : frame ≠ .ping → action.goesOn = true

namespace EncodedFrame

variable {n : ℕ} {frame : EncodedFrame}

/-- A message frame with names and a payload that fit is handled, whatever its type and however many
workers there are. -/
lemma goesOn_messageFrame {t : MessageType} {f : MessageFlags} {id : ChannelId} {src tgt : String}
    {total offset : ℕ} {payload header rest : List UInt8}
    (h : FieldsFit src tgt total offset payload)
    (hcut : messageFrame t f id src tgt total offset payload = header ++ rest) :
    (listenFrame n t f header rest).goesOn = true := by
  by_cases ht : t = .pong
  · rw [listenFrame, if_pos ht]
    rfl
  · rw [listenFrame, if_neg ht, ← hcut]
    dsimp only
    rw [getChannelId_messageFrame]
    dsimp only
    rw [getMessageSourceTarget_messageFrame h]
    dsimp only
    cases hassign : id.assignTargetFast n with
    | ok w =>
        dsimp only
        rw [if_pos (ChannelId.assignTargetFast_lt hassign)]
        rfl
    | err e => rfl
    | panicked =>
        rw [ChannelId.assignTargetFast] at hassign
        split_ifs at hassign

/-- Every frame of the encoders is read as a whole. -/
lemma exists_readAs (hmade : frame.Made) (n : ℕ) :
    ∃ header payload t f action, ReadAs n frame header payload t f action := by
  cases frame with
  | ping =>
      refine ⟨pingFrame.take 11, pingFrame.drop 11, .ping, .new true true false, .leave,
        by decide +kernel, by decide +kernel, by decide +kernel, ?_, fun _ => rfl, by simp⟩
      have hid : getChannelId (pingFrame.take 11 ++ pingFrame.drop 11)
          = .err (.incompleteFrame messageFixedLen 13 "channel id") := by decide +kernel
      rw [listenFrame, if_neg (by simp)]
      dsimp only
      rw [hid]
  | pong =>
      exact ⟨pongFrame.take 11, pongFrame.drop 11, .pong, .new true true true, .reset,
        by decide +kernel, by decide +kernel, by decide +kernel, rfl, by simp, fun _ => rfl⟩
  | part c i =>
      obtain ⟨frames, henc, hi⟩ := hmade
      obtain ⟨hok, rfl⟩ := generateMessageDataStream_eq_ok_iff.mp henc
      have hlt : i < frameCount c.sourceName c.targetName c.data := by
        have := (List.getElem?_eq_some_iff.mp hi).1
        rwa [streamFrames, List.length_map, List.length_range] at this
      obtain ⟨header, payload, hcut, hlen, hread⟩ :=
        exists_listenHeader_messageFrame
          ((streamFrame_length_le hok i).trans (Nat.le_add_left _ _))
      exact ⟨header, payload, c.messageType, _, _, hcut, hlen, hread, rfl, by simp,
        fun _ => goesOn_messageFrame (StreamCall.fieldsFit hok hlt) hcut⟩

end EncodedFrame

/-! ### The loop -/

section Loop

variable {n : ℕ} {r : BufReader} {frame : EncodedFrame} {header payload rest : List UInt8}
  {t : MessageType} {f : MessageFlags} {action : FrameAction}

/-- A reader in front of a frame handles it. -/
lemma listenRound_of_readAs (h : ReadAs n frame header payload t f action)
    (hbytes : r.pendingBytes = frame.bytes ++ rest)
    (hdata : ∃ chunks, r.inner = dataScript chunks) :
    (action = .leave → listenRound n r = .stop .left) ∧
      (action.goesOn = true → ∃ events r', listenRound n r = .next events r' ∧
        r'.pendingBytes = rest ∧ ∃ chunks, r'.inner = dataScript chunks) := by
  rw [h.cut, List.append_assoc] at hbytes
  -- the header is there, and behind it the payload
  obtain ⟨between, hhead, hbetween⟩ := BufReader.readExact_append hbytes
  obtain ⟨after, hbody, hafter⟩ := BufReader.readExact_append hbetween
  rw [h.length] at hhead
  obtain ⟨chunks, hdata⟩ := hdata
  obtain ⟨cs, hcs⟩ := BufReader.inner_of_readExact hhead hdata
  have haction := h.action_eq
  constructor
  · rintro rfl
    simp only [listenRound, hhead, h.header_eq, hbody, haction]
  · intro hgoes
    have hmore := BufReader.inner_of_readExact hbody hcs
    cases action with
    | reset =>
        refine ⟨[.reset], after, ?_, hafter, hmore⟩
        simp only [listenRound, hhead, h.header_eq, hbody, haction]
    | send w task =>
        refine ⟨[.enqueue w task, .reset], after, ?_, hafter, hmore⟩
        simp only [listenRound, hhead, h.header_eq, hbody, haction]
    | leave => cases hgoes
    | aborted => cases hgoes

/-- Where the loop ends: in front of the next header, or behind the first ping. -/
lemma listen_end {frames : List EncodedFrame} (hmade : ∀ frame ∈ frames, frame.Made)
    (hbytes : r.pendingBytes = EncodedFrame.allBytes frames)
    (hdata : ∃ chunks, r.inner = dataScript chunks) :
    (EncodedFrame.ping ∉ frames → (listen n r).2 = .header ⟨[], []⟩) ∧
      (EncodedFrame.ping ∈ frames → (listen n r).2 = .left) := by
  induction frames generalizing r with
  | nil =>
      obtain ⟨chunks, hdata⟩ := hdata
      rw [BufReader.eq_nil_of_pendingBytes hdata hbytes]
      refine ⟨fun _ => ?_, fun hping => absurd hping (by simp)⟩
      have hround : listenRound n ⟨[], []⟩ = .stop (.header ⟨[], []⟩) := rfl
      rw [listen_of_stop hround]
  | cons frame frames ih =>
      rw [EncodedFrame.allBytes_cons] at hbytes
      obtain ⟨header, payload, t, f, action, hread⟩ :=
        EncodedFrame.exists_readAs (hmade frame (by simp)) n
      obtain ⟨hleave, hgoes⟩ := listenRound_of_readAs hread hbytes hdata
      by_cases hne : frame = .ping
      · refine ⟨fun hping => absurd (by simp [hne]) hping, fun _ => ?_⟩
        rw [listen_of_stop (hleave (hread.leaves hne))]
      · obtain ⟨events, r', hround, hrest, hmore⟩ := hgoes (hread.goesOn hne)
        obtain ⟨hin, hout⟩ := ih (fun g hg => hmade g (by simp [hg])) hrest hmore
        rw [listen_of_next hround]
        refine ⟨fun hping => hin fun hmem => hping (List.mem_cons_of_mem _ hmem), fun hping => ?_⟩
        exact hout ((List.mem_cons.mp hping).resolve_left (Ne.symm hne))

end Loop

/-! ### The listener in its room -/

namespace Room

variable {C : Type} {cfg : RoomConfig C} {s s' : Room cfg} {l : Label C} {c : C}
  {frames : List EncodedFrame}

/-- The listener is registered and in its loop. -/
def ListenerStage.serving : ListenerStage C → Bool
  | .header | .payload _ _ _ _ | .sending _ _ | .resetting => true
  | _ => false

/-- What has come from `c` is whole frames up to where its listener stands: between two frames, or
behind the fixed header of one. -/
inductive Aligned (s : Room cfg) (c : C) (frames : List EncodedFrame) : Prop
  | between (done todo : List EncodedFrame) : frames = done ++ todo →
      s.log.received c = EncodedFrame.allBytes done ++ s.unread c →
      (∀ head t f len, s.listener c ≠ .payload head t f len) → Aligned s c frames
  | inside (done todo : List EncodedFrame) (frame : EncodedFrame) {head body : List UInt8}
      {t : MessageType} {f : MessageFlags} {action : FrameAction} :
      frames = done ++ frame :: todo →
        s.log.received c = EncodedFrame.allBytes done ++ (head ++ s.unread c) →
      s.listener c = .payload head t f body.length →
      ReadAs cfg.workerNumber frame head body t f action → Aligned s c frames

/-- Bytes that arrive do not move the listener. -/
lemma Aligned.arrive (h : Aligned s c frames) (bytes : List UInt8)
    (hreceived : s'.log.received c = s.log.received c ++ bytes)
    (hunread : s'.unread c = s.unread c ++ bytes) (hstage : s'.listener c = s.listener c) :
    Aligned s' c frames := by
  cases h with
  | between done todo hframes hold hnot =>
      refine .between done todo hframes ?_ (by rwa [hstage])
      rw [hreceived, hunread, hold, List.append_assoc]
  | inside done todo frame hframes hold hpayload hread =>
      refine .inside done todo frame hframes ?_ (hstage ▸ hpayload) hread
      rw [hreceived, hunread, hold, List.append_assoc, List.append_assoc]

/-- A listener that goes on between two frames. -/
lemma Aligned.stage (h : Aligned s c frames) (hreceived : s'.log.received c = s.log.received c)
    (hunread : s'.unread c = s.unread c)
    (hold : ∀ head t f len, s.listener c ≠ .payload head t f len)
    (hnew : ∀ head t f len, s'.listener c ≠ .payload head t f len) : Aligned s' c frames := by
  cases h with
  | between done todo hframes hbytes _ =>
      exact .between done todo hframes (by rw [hreceived, hunread, hbytes]) hnew
  | inside done todo frame hframes hbytes hpayload _ => exact absurd hpayload (hold _ _ _ _)

/-- What is read after whole frames is the beginning of the frames that follow. -/
lemma prefix_of_received {done todo : List EncodedFrame} {bytes : List UInt8}
    (hbytes : s.log.received c = EncodedFrame.allBytes done ++ bytes)
    (hfrom : s.log.received c <+: EncodedFrame.allBytes (done ++ todo)) :
    bytes <+: EncodedFrame.allBytes todo := by
  rwa [hbytes, EncodedFrame.allBytes_append, List.prefix_append_right_inj] at hfrom

/-- Equally long beginnings of one text are equal. -/
lemma append_eq_of_prefix {head rest header more : List UInt8}
    (h : head ++ rest <+: header ++ more) (hlen : head.length = header.length) : head = header := by
  obtain ⟨t, ht⟩ := h
  rw [List.append_assoc] at ht
  exact (List.append_inj ht hlen).1

/-- The listener reads the fixed header of the next frame. -/
lemma Aligned.readHeader (h : Aligned s c frames) (hmade : ∀ frame ∈ frames, frame.Made)
    (hfrom : s.log.received c <+: EncodedFrame.allBytes frames) {head rest : List UInt8}
    (hstage : s.listener c = .header) (hunread : s.unread c = head ++ rest)
    (hlen : head.length = fixedHeaderLen) :
    ∃ done todo frame body t f action, frames = done ++ frame :: todo ∧
      s.log.received c = EncodedFrame.allBytes done ++ (head ++ rest) ∧
      ReadAs cfg.workerNumber frame head body t f action := by
  cases h with
  | inside done todo frame hframes hbytes hpayload _ => simp [hstage] at hpayload
  | between done todo hframes hbytes _ =>
      subst hframes
      rw [hunread] at hbytes
      have hnext := prefix_of_received hbytes hfrom
      cases todo with
      | nil =>
          obtain ⟨rfl, -⟩ : head = [] ∧ rest = [] := by simpa using hnext
          cases hlen
      | cons frame todo =>
          obtain ⟨header, payload, t, f, action, hread⟩ :=
            EncodedFrame.exists_readAs (hmade frame (by simp)) cfg.workerNumber
          rw [EncodedFrame.allBytes_cons, hread.cut, List.append_assoc] at hnext
          obtain rfl := append_eq_of_prefix hnext (hlen.trans hread.length.symm)
          exact ⟨done, todo, frame, payload, t, f, action, rfl, hbytes, hread⟩

/-- The listener reads what its fixed header announces: the frame is handled. -/
lemma Aligned.readPayload (h : Aligned s c frames)
    (hfrom : s.log.received c <+: EncodedFrame.allBytes frames) {head body rest : List UInt8}
    {t : MessageType} {f : MessageFlags} {len : ℕ} (hstage : s.listener c = .payload head t f len)
    (hunread : s.unread c = body ++ rest) (hlen : body.length = len) :
    ∃ done todo frame action, frames = done ++ frame :: todo ∧
      s.log.received c = EncodedFrame.allBytes (done ++ [frame]) ++ rest ∧
      ReadAs cfg.workerNumber frame head body t f action := by
  cases h with
  | between done todo hframes hbytes hnot => exact absurd hstage (hnot _ _ _ _)
  | @inside done todo frame head' body' t' f' action hframes hbytes hpayload hread =>
      obtain ⟨rfl, rfl, rfl, rfl⟩ : head = head' ∧ t = t' ∧ f = f' ∧ len = body'.length := by
        simpa [hstage] using hpayload
      subst hframes
      rw [hunread] at hbytes
      have hnext := prefix_of_received hbytes hfrom
      rw [EncodedFrame.allBytes_cons, hread.cut, List.append_assoc,
        List.prefix_append_right_inj] at hnext
      obtain rfl := append_eq_of_prefix hnext hlen
      refine ⟨done, todo, frame, action, rfl, ?_, hread⟩
      rw [hbytes, EncodedFrame.allBytes_append, EncodedFrame.allBytes_cons, hread.cut]
      simp

variable [DecidableEq C]

/-- Bytes come from the network, and only the listener takes them. -/
lemma bytes_of_step (h : Step s l s') (c : C) :
    ∃ bytes, s'.log.received c = s.log.received c ++ bytes ∧
      (l = .listener c ∨ s'.unread c = s.unread c ++ bytes) := by
  have hsame : s'.log.received c = s.log.received c →
      (l = .listener c ∨ s'.unread c = s.unread c) → ∃ bytes,
        s'.log.received c = s.log.received c ++ bytes ∧
          (l = .listener c ∨ s'.unread c = s.unread c ++ bytes) := by
    intro hreceived hunread
    exact ⟨[], by simpa using hreceived, by simpa using hunread⟩
  cases h with
  | @listener _ d h =>
      by_cases hd : d = c
      · refine hsame ?_ (.inl (by rw [hd]))
        cases h <;> rfl
      · cases h <;> exact hsame rfl (.inr (by simp [Ne.symm hd]))
  | worker h => cases h <;> exact hsame rfl (.inr rfl)
  | heartbeat h => cases h <;> exact hsame rfl (.inr rfl)
  | add h => cases h <;> exact hsame rfl (.inr rfl)
  | close h => cases h <;> exact hsame rfl (.inr rfl)
  | call _ _ => exact hsame rfl (.inr rfl)
  | @arrival d bytes =>
      by_cases hd : c = d
      · subst hd
        exact ⟨bytes, by simp, .inr (by simp)⟩
      · exact hsame (by simp [hd]) (.inr (by simp [hd]))

lemma aligned_of_listenerStep (h : Aligned s c frames) (hmade : ∀ frame ∈ frames, frame.Made)
    (hfrom : s.log.received c <+: EncodedFrame.allBytes frames) (hs : ListenerStep s c s')
    (hloop : (s'.listener c).looping = true) : Aligned s' c frames := by
  cases hs with
  | readHeader head rest hc hunread hlen =>
      obtain ⟨done, todo, frame, body, t, f, action, hframes, hbytes, hread⟩ :=
        h.readHeader hmade hfrom hc hunread hlen
      refine .inside done todo frame hframes ?_ ?_ hread
      · simp only [Function.update_self]
        exact hbytes
      · simp only [Function.update_self, afterHeader, hread.header_eq]
  | readPayload head t f len body rest hc hunread hlen =>
      obtain ⟨done, todo, frame, action, rfl, hbytes, hread⟩ := h.readPayload hfrom hc hunread hlen
      refine .between (done ++ [frame]) todo (by simp) ?_ ?_
      · simp only [Function.update_self]
        exact hbytes
      · intro head' t' f' len'
        simp only [Function.update_self, afterPayload]
        split <;> simp
  | gone _ _ => simp [ListenerStage.looping] at hloop
  | headerCancelled _ _ => simp [ListenerStage.looping] at hloop
  | headerErr _ => simp [ListenerStage.looping] at hloop
  | payloadCancelled _ _ _ _ _ _ => simp [ListenerStage.looping] at hloop
  | payloadErr _ _ _ _ _ => simp [ListenerStage.looping] at hloop
  | remove _ _ _ _ => simp [ListenerStage.looping] at hloop
  | closed _ _ _ _ => simp [ListenerStage.looping] at hloop
  | start hc _ => exact h.stage rfl rfl (by simp [hc]) (by simp)
  | insert hc _ _ => exact h.stage rfl rfl (by simp [hc]) (by simp)
  | replace old n hc _ _ _ => exact h.stage rfl rfl (by simp [hc]) (by simp)
  | replaced old n r hc _ => exact h.stage rfl rfl (by simp [hc]) (by simp)
  | send w task hc _ _ => exact h.stage rfl rfl (by simp [hc]) (by simp)
  | sendErr w task hc _ => exact h.stage rfl rfl (by simp [hc]) (by simp)
  | reset hc => exact h.stage rfl rfl (by simp [hc]) (by simp)

lemma looping_of_listenerStep (hs : ListenerStep s c s') (hloop : (s'.listener c).looping = true) :
    (s.listener c).looping = true := by
  cases hs with
  | remove n hc _ _ => simp [ListenerStage.looping] at hloop
  | closed n r hc _ => simp [ListenerStage.looping] at hloop
  | _ => simp_all [ListenerStage.looping]

/-- As long as only frames of the encoders have come from a connection, its listener stands between
two of them or behind the fixed header of one. -/
theorem aligned_of_reach (h : (lts cfg).Reach s) (hmade : ∀ frame ∈ frames, frame.Made)
    (hfrom : s.log.received c <+: EncodedFrame.allBytes frames)
    (hloop : (s.listener c).looping = true) : Aligned s c frames := by
  revert hfrom hloop
  refine h.invariant (I := fun s => s.log.received c <+: EncodedFrame.allBytes frames →
    (s.listener c).looping = true → Aligned s c frames) (fun s hs _ _ => ?_)
    fun s l s' hr hi hs hfrom hloop => ?_
  · subst hs
    exact .between [] frames rfl rfl (by simp [opened])
  · obtain ⟨bytes, hreceived, hunread⟩ := bytes_of_step hs c
    have hold : s.log.received c <+: EncodedFrame.allBytes frames :=
      (hreceived ▸ List.prefix_append _ bytes : s.log.received c <+: s'.log.received c).trans hfrom
    by_cases hl : l = .listener c
    · subst hl
      cases hs with
      | listener hstep =>
          exact aligned_of_listenerStep (hi hold (looping_of_listenerStep hstep hloop)) hmade hold
            hstep
            hloop
    · obtain hstage | ⟨heq, -⟩ | ⟨rfl, hspawn, hstage⟩ := listener_of_step hs c
      · exact (hi hold (hstage ▸ hloop)).arrive bytes hreceived (hunread.resolve_left hl) hstage
      · exact absurd heq hl
      · have habsent : s.listener c = .absent := by
          by_contra hne
          simp [adding_of_listener hr hne] at hspawn
        have hmore := hunread.resolve_left hl
        cases hi hold (by rw [habsent]; rfl) with
        | between done todo hframes hbytes _ =>
            refine .between done todo hframes ?_ (by simp [hstage])
            rw [hreceived, hmore, hbytes, List.append_assoc]
        | inside done todo frame hframes hbytes hpayload _ => simp [habsent] at hpayload

/-- What a step of a listener does to its room while it is in its loop: nothing to the
registrations, the closed flags and the tokens. -/
structure KeepsConnections (s s' : Room cfg) : Prop where
  conns : s'.conns = s.conns
  closed : ∀ d, (s'.link d).conn.closed = (s.link d).conn.closed
  cancelToken : ∀ d, (s'.link d).conn.cancelToken = (s.link d).conn.cancelToken

/-- The listener leaves its loop for a cancellation or a failed read, in front of the same bytes. -/
def LeavesUnread (s s' : Room cfg) (c : C) : Prop :=
  s'.listener c = .removing ∧ s'.unread c = s.unread c

lemma keepsConnections_of_serving (hs : ListenerStep s c s')
    (hserving : (s.listener c).serving = true) : KeepsConnections s s' := by
  cases hs with
  | reset hc =>
      refine ⟨rfl, ?_, ?_⟩ <;>
      · intro d
        by_cases hd : d = c <;> simp [hd, TcpConn.resetHeartbeats]
  | insert hc _ _ => simp [hc, ListenerStage.serving] at hserving
  | replace old n hc _ _ _ => simp [hc, ListenerStage.serving] at hserving
  | remove n hc _ _ => simp [hc, ListenerStage.serving] at hserving
  | _ => exact ⟨rfl, fun _ => rfl, fun _ => rfl⟩

/-- A listener in its loop stays in it, unless it is cancelled or a read fails. -/
lemma serving_of_listenerStep (h : Aligned s c frames) (hmade : ∀ frame ∈ frames, frame.Made)
    (hping : EncodedFrame.ping ∉ frames) (hfrom : s.log.received c <+: EncodedFrame.allBytes frames)
    (hs : ListenerStep s c s') (hserving : (s.listener c).serving = true) :
    (s'.listener c).serving = true ∨ LeavesUnread s s' c := by
  cases hs with
  | readHeader head rest hc hunread hlen =>
      obtain ⟨done, todo, frame, body, t, f, action, -, -, hread⟩ :=
        h.readHeader hmade hfrom hc hunread hlen
      refine .inl ?_
      simp only [Function.update_self, afterHeader, hread.header_eq]
      rfl
  | readPayload head t f len body rest hc hunread hlen =>
      obtain ⟨done, todo, frame, action, rfl, -, hread⟩ := h.readPayload hfrom hc hunread hlen
      have hne : frame ≠ .ping := by
        rintro rfl
        exact hping (by simp)
      have hgoes := hread.goesOn hne
      refine .inl ?_
      simp only [Function.update_self, afterPayload, hread.action_eq]
      cases action with
      | reset => rfl
      | send w task => rfl
      | leave => cases hgoes
      | aborted => cases hgoes
  | headerCancelled _ _ => exact .inr ⟨Function.update_self .., rfl⟩
  | headerErr _ => exact .inr ⟨Function.update_self .., rfl⟩
  | payloadCancelled _ _ _ _ _ _ => exact .inr ⟨Function.update_self .., rfl⟩
  | payloadErr _ _ _ _ _ => exact .inr ⟨Function.update_self .., rfl⟩
  | send w task hc _ _ => exact .inl (by simp [ListenerStage.serving])
  | sendErr w task hc _ => exact .inl (by simp [ListenerStage.serving])
  | reset hc => exact .inl (by simp [ListenerStage.serving])
  | gone hc _ => simp [hc, ListenerStage.serving] at hserving
  | start hc _ => simp [hc, ListenerStage.serving] at hserving
  | insert hc _ _ => simp [hc, ListenerStage.serving] at hserving
  | replace old n hc _ _ _ => simp [hc, ListenerStage.serving] at hserving
  | replaced old n r hc _ => simp [hc, ListenerStage.serving] at hserving
  | remove n hc _ _ => simp [hc, ListenerStage.serving] at hserving
  | closed n r hc _ => simp [hc, ListenerStage.serving] at hserving

/-- In every run of a room, as long as only `frames` have come from a connection, no step of its
listener touches a registration, a closed flag or a token while it is in its loop, and none takes it
out of the loop but a cancellation or a failed read. -/
def SurvivedIn (cfg : RoomConfig C) (frames : List EncodedFrame) : Prop :=
  ∀ s s' c, (lts cfg).Reach s → s.log.received c <+: EncodedFrame.allBytes frames →
    (s.listener c).serving = true → (lts cfg).Step s (.listener c) s' →
    KeepsConnections s s' ∧ ((s'.listener c).serving = true ∨ LeavesUnread s s' c)

lemma survivedIn_of_no_ping (hmade : ∀ frame ∈ frames, frame.Made)
    (hping : EncodedFrame.ping ∉ frames) : SurvivedIn cfg frames := by
  intro s s' c hr hfrom hserving hs
  have hloop : (s.listener c).looping = true := by
    cases hstage : s.listener c <;> simp_all [ListenerStage.serving, ListenerStage.looping]
  cases hs with
  | listener hs =>
      exact ⟨keepsConnections_of_serving hs hserving,
        serving_of_listenerStep (aligned_of_reach hr hmade hfrom hloop) hmade hping hfrom hs
          hserving⟩

end Room

/-- **The frames a listener survives.**  Over frames that the encoders make, of any type and read in
any chunks, the loop is in front of the next header at the end exactly when no ping is among them;
and then, in every run of a room, none of them costs its connection the loop, the registration or
the socket. -/
theorem listener_survives_iff (n : ℕ) (frames : List EncodedFrame)
    (hmade : ∀ frame ∈ frames, frame.Made) (chunks : List Chunk)
    (hchunks : chunkBytes chunks = EncodedFrame.allBytes frames) :
    ((∃ r, (listen n (.new (dataScript chunks))).2 = .header r) ↔ EncodedFrame.ping ∉ frames) ∧
      (EncodedFrame.ping ∉ frames → ∀ (C : Type) [DecidableEq C] (cfg : RoomConfig C),
        Room.SurvivedIn cfg frames) := by
  have hbytes : (BufReader.new (dataScript chunks)).pendingBytes = EncodedFrame.allBytes frames :=
    (dataBytes_dataScript chunks).trans hchunks
  obtain ⟨hin, hout⟩ := listen_end (n := n) hmade hbytes ⟨chunks, rfl⟩
  refine ⟨⟨?_, fun hping => ⟨_, hin hping⟩⟩, ?_⟩
  · rintro ⟨r, hr⟩ hping
    rw [hout hping] at hr
    cases hr
  · intro hping C _ cfg
    exact Room.survivedIn_of_no_ping hmade hping

/-- A pong and a request of three bytes. -/
theorem listener_survives_short :
    ((∃ r, (listen 2 (.new (dataScript shortChunks))).2 = .header r)
        ↔ EncodedFrame.ping ∉ [EncodedFrame.pong, .part shortCall 0]) ∧
      (EncodedFrame.ping ∉ [EncodedFrame.pong, .part shortCall 0] →
        ∀ (C : Type) [DecidableEq C] (cfg : RoomConfig C),
          Room.SurvivedIn cfg [EncodedFrame.pong, .part shortCall 0]) := by
  have hmade : ∀ frame ∈ [EncodedFrame.pong, .part shortCall 0], frame.Made := by
    intro frame hframe
    rcases List.mem_pair.mp hframe with rfl | rfl
    · trivial
    · have hok : Encodable "a" "b" [1, 2, 3] := by constructor <;> decide
      exact ⟨_, generateMessageDataStream_eq_ok hok, by decide +kernel⟩
  exact listener_survives_iff 2 _ hmade shortChunks (by decide +kernel)

/-- A ping in one piece. -/
def pingChunks : List Chunk := [⟨pingFrame, by decide +kernel, by decide +kernel⟩]

/-- A ping, which `ping_frame` makes, takes the listener out of its loop. -/
theorem ping_ends_the_loop :
    chunkBytes pingChunks = EncodedFrame.allBytes [.ping] ∧ EncodedFrame.ping.Made ∧
      listen 32 (.new (dataScript pingChunks)) = ([], .left) := by
  refine ⟨by decide +kernel, trivial, ?_⟩
  have hround : listenRound 32 (.new (dataScript pingChunks)) = .stop .left := by decide +kernel
  exact listen_of_stop hround

end Fernq
