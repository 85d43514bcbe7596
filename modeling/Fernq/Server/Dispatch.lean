import Mathlib.Tactic
import Fernq.Protocol.Bounds
import Fernq.Protocol.RoundTrip
import Fernq.Protocol.Validate

/-!
What a listener of a room does with a frame, and what a worker answers to a request it cannot
forward (`fernqd/src/server/room.rs`, without the waiting).

* `listenHeader`, `listenFrame`: the listener's decision on a fixed header and on a whole frame.
* `MessageTask.FromFrame`: what is known of a task a listener has made.
* `Passes`: a frame after which a listener reads on; `passes_of_goesOn`, `goesOn_of_names`.
* `listenFrame_messageFrame`: a frame of the encoder becomes the task that carries it.
* `notFoundReply`: the 404 response to a task; `notFoundReply_eq_ok`.
-/

namespace Fernq

/-- 任务结构体. -/
structure MessageTask where
  fromName : String
  toName : String
  flags : MessageFlags
  payload : List UInt8
  deriving DecidableEq, Repr

/-! ### The listener -/

/-- What follows the fixed header: the loop ends, the task aborts, or the payload is read. -/
inductive HeaderAction
  | leave
  | aborted
  | read (messageType : MessageType) (flags : MessageFlags) (frameLength : ℕ)
  deriving DecidableEq, Repr

/-- 解析头部获取帧长度, 安全检查. -/
def listenHeader (header : List UInt8) : HeaderAction :=
  match decodeHeader header with
  | .err _ => .leave
  | .panicked => .aborted
  | .ok (messageType, flags, frameLength) =>
    if frameLength > maxFrameSize then .leave else .read messageType flags frameLength

/-- What follows the payload: the heartbeat counter is reset at once, or after the task has gone
to its worker; or the loop ends; or the task aborts. -/
inductive FrameAction
  | reset
  | send (worker : ℕ) (task : MessageTask)
  | leave
  | aborted
  deriving DecidableEq, Repr

/-- The loop goes on after the frame. -/
def FrameAction.goesOn : FrameAction → Bool
  | .reset | .send _ _ => true
  | .leave | .aborted => false

/-- 处理完整帧（header + payload）; an invalid worker count skips the message. -/
def listenFrame (workerNumber : ℕ) (messageType : MessageType) (flags : MessageFlags)
    (header payload : List UInt8) : FrameAction :=
  if messageType = .pong then .reset
  else
    let frame := header ++ payload
    match getChannelId frame with
    | .err _ => .leave
    | .panicked => .aborted
    | .ok channelId =>
      match getMessageSourceTarget frame with
      | .err _ => .leave
      | .panicked => .aborted
      | .ok (sourceName, targetName) =>
        match channelId.assignTargetFast workerNumber with
        | .ok workerId =>
          if workerId < workerNumber then .send workerId ⟨sourceName, targetName, flags, frame⟩
          else .aborted
        | .err _ => .reset
        | .panicked => .aborted

section Listen

variable {n w : ℕ} {t : MessageType} {f : MessageFlags} {header payload frame : List UInt8}
  {task : MessageTask}

/-- What a task made by a listener says is what its frame says: a fixed header that the listener
accepts, the bytes the header announces, and in them the names and the channel. -/
structure MessageTask.FromFrame (task : MessageTask) (workerNumber w : ℕ) : Prop where
  frame : ∃ header payload t, task.payload = header ++ payload ∧
    header.length = fixedHeaderLen ∧ listenHeader header = .read t task.flags payload.length ∧
    t ≠ .pong
  names : getMessageSourceTarget task.payload = .ok (task.fromName, task.toName)
  worker : ∃ channelId, getChannelId task.payload = .ok channelId ∧
    channelId.assignTargetFast workerNumber = .ok w

lemma listenFrame_eq_send (hlen : header.length = fixedHeaderLen)
    (hhead : listenHeader header = .read t f payload.length)
    (h : listenFrame n t f header payload = .send w task) : task.FromFrame n w := by
  rw [listenFrame] at h
  split_ifs at h with hpong
  dsimp only at h
  cases hid : getChannelId (header ++ payload) with
  | err e => simp [hid] at h
  | panicked => simp [hid] at h
  | ok id =>
    cases hnames : getMessageSourceTarget (header ++ payload) with
    | err e => simp [hid, hnames] at h
    | panicked => simp [hid, hnames] at h
    | ok names =>
      cases hassign : id.assignTargetFast n with
      | err e => simp [hid, hnames, hassign] at h
      | panicked => simp [hid, hnames, hassign] at h
      | ok v =>
        rw [hid, hnames] at h
        simp only [hassign, ChannelId.assignTargetFast_lt hassign, if_true,
          FrameAction.send.injEq] at h
        obtain ⟨rfl, rfl⟩ := h
        exact ⟨⟨header, payload, t, rfl, hlen, hhead, hpong⟩, hnames, id, hid, hassign⟩

/-- The task carries the frame as it was read. -/
lemma payload_of_listenFrame (h : listenFrame n t f header payload = .send w task) :
    task.payload = header ++ payload := by
  rw [listenFrame] at h
  split_ifs at h
  dsimp only at h
  split at h <;> try cases h
  split at h <;> try cases h
  split at h <;> try cases h
  split_ifs at h
  cases h
  rfl

/-- Both names of a frame have 1 to 128 bytes. -/
lemma utf8ByteSize_of_getMessageSourceTarget {bytes : List UInt8} {source target : String}
    (h : getMessageSourceTarget bytes = .ok (source, target)) :
    (0 < source.utf8ByteSize ∧ source.utf8ByteSize ≤ maxNameLength) ∧
      0 < target.utf8ByteSize ∧ target.utf8ByteSize ≤ maxNameLength := by
  rw [getMessageSourceTarget] at h
  split_ifs at h
  obtain ⟨⟨source', next⟩, hsource, h⟩ := Outcome.bind_eq_ok.mp h
  obtain ⟨⟨target', _⟩, htarget, h⟩ := Outcome.bind_eq_ok.mp h
  obtain ⟨rfl, rfl⟩ := by simpa using h
  exact ⟨utf8ByteSize_of_readName hsource, utf8ByteSize_of_readName htarget⟩

lemma MessageTask.FromFrame.utf8ByteSize_fromName (h : task.FromFrame n w) :
    0 < task.fromName.utf8ByteSize ∧ task.fromName.utf8ByteSize ≤ maxNameLength :=
  (utf8ByteSize_of_getMessageSourceTarget h.names).1

lemma MessageTask.FromFrame.utf8ByteSize_toName (h : task.FromFrame n w) :
    0 < task.toName.utf8ByteSize ∧ task.toName.utf8ByteSize ≤ maxNameLength :=
  (utf8ByteSize_of_getMessageSourceTarget h.names).2

/-- The listener aborts on no whole fixed header. -/
lemma listenHeader_ne_aborted (h : fixedHeaderLen ≤ header.length) :
    listenHeader header ≠ .aborted := by
  have hdec := decodeHeader_ne_panicked h
  rw [listenHeader]
  split
  · simp
  · contradiction
  · split_ifs <;> simp

lemma getChannelId_ne_panicked (bytes : List UInt8) : getChannelId bytes ≠ .panicked := by
  rw [getChannelId]
  split_ifs with hlen
  · simp
  · obtain ⟨raw, id, hraw, hid⟩ := exists_channelId (not_lt.mp hlen)
    rw [hraw, Outcome.ok_bind, hid]
    simp

/-- The listener aborts on a frame exactly when the names it reads are not inside the frame. -/
lemma listenFrame_eq_aborted_iff :
    listenFrame n t f header payload = .aborted ↔
      t ≠ .pong ∧ ¬ NamesInside (header ++ payload) True := by
  rw [← getMessageSourceTarget_ne_panicked_iff, not_not, listenFrame]
  split_ifs with hpong
  · simp [hpong]
  · dsimp only
    cases hid : getChannelId (header ++ payload) with
    | panicked => exact absurd hid (getChannelId_ne_panicked _)
    | err e =>
      have hshort : (header ++ payload).length < messageFixedLen := by
        by_contra hlen
        obtain ⟨raw, id, hraw, hid'⟩ := exists_channelId (not_lt.mp hlen)
        rw [getChannelId, if_neg hlen, hraw, Outcome.ok_bind, hid'] at hid
        cases hid
      rw [getMessageSourceTarget, if_pos hshort]
      simp
    | ok id =>
      cases hnames : getMessageSourceTarget (header ++ payload) with
      | panicked => simp [hpong]
      | err e => simp
      | ok names =>
        cases hassign : id.assignTargetFast n with
        | err e => simp [hassign]
        | panicked =>
          rw [ChannelId.assignTargetFast] at hassign
          split_ifs at hassign
        | ok w => simp [hassign, ChannelId.assignTargetFast_lt hassign]

end Listen

/-! ### Frames after which a listener reads on -/

section Passes

variable {n len : ℕ} {t : MessageType} {f : MessageFlags} {header body : List UInt8}

/-- The channel of a frame is read when its names are. -/
lemma exists_getChannelId {bytes : List UInt8} {names : String × String}
    (h : getMessageSourceTarget bytes = .ok names) : ∃ id, getChannelId bytes = .ok id := by
  have hlen : ¬ bytes.length < messageFixedLen := by
    intro hshort
    rw [getMessageSourceTarget, if_pos hshort] at h
    cases h
  obtain ⟨raw, id, hraw, hid⟩ := exists_channelId (not_lt.mp hlen)
  exact ⟨id, by rw [getChannelId, if_neg hlen, hraw, Outcome.ok_bind, hid]⟩

/-- A frame whose names are readable goes to the worker of its channel, if there is one. -/
lemma exists_listenFrame_of_names (ht : t ≠ .pong) {names : String × String}
    (h : getMessageSourceTarget (header ++ body) = .ok names) :
    ∃ id : ChannelId, (∀ w, id.assignTargetFast n = .ok w →
        listenFrame n t f header body = .send w ⟨names.1, names.2, f, header ++ body⟩) ∧
      ∀ e, id.assignTargetFast n = .err e → listenFrame n t f header body = .reset := by
  obtain ⟨id, hid⟩ := exists_getChannelId h
  refine ⟨id, fun w hw => ?_, fun e he => ?_⟩
  · simp only [listenFrame, if_neg ht, hid, h, hw, if_pos (ChannelId.assignTargetFast_lt hw)]
  · simp only [listenFrame, if_neg ht, hid, h, he]

/-- A listener reads on after a frame whose names are readable. -/
lemma goesOn_of_names
    (h : t ≠ .pong → ∃ names, getMessageSourceTarget (header ++ body) = .ok names) :
    (listenFrame n t f header body).goesOn = true := by
  by_cases ht : t = .pong
  · rw [listenFrame, if_pos ht]
    rfl
  · obtain ⟨names, hnames⟩ := h ht
    obtain ⟨id, hsend, hreset⟩ := exists_listenFrame_of_names (n := n) (f := f) ht hnames
    by_cases hpow : ∃ k, n = 2 ^ k
    · obtain ⟨w, hw⟩ : ∃ w, id.assignTargetFast n = .ok w :=
        ChannelId.exists_assignTargetFast_iff.mpr hpow
      rw [hsend w hw]
      rfl
    · obtain ⟨e, he⟩ : ∃ e, id.assignTargetFast n = .err e :=
        ChannelId.exists_assignTargetFast_eq_err hpow
      rw [hreset e he]
      rfl

/-- The names of a frame after which a listener reads on are readable. -/
lemma names_of_goesOn (h : (listenFrame n t f header body).goesOn = true) (ht : t ≠ .pong) :
    ∃ names, getMessageSourceTarget (header ++ body) = .ok names := by
  cases hnames : getMessageSourceTarget (header ++ body) with
  | ok names => exact ⟨names, rfl⟩
  | err e =>
      rw [listenFrame, if_neg ht] at h
      cases hid : getChannelId (header ++ body) <;> simp [hid, hnames, FrameAction.goesOn] at h
  | panicked =>
      rw [listenFrame, if_neg ht] at h
      cases hid : getChannelId (header ++ body) <;> simp [hid, hnames, FrameAction.goesOn] at h

/-- The headers that a listener reads on after. -/
lemma listenHeader_eq_read_iff :
    listenHeader header = .read t f len ↔
      decodeHeader header = .ok (t, f, len) ∧ len ≤ maxFrameSize := by
  rw [listenHeader]
  cases hdec : decodeHeader header with
  | ok head =>
      obtain ⟨t', f', len'⟩ := head
      dsimp only
      split_ifs with hlarge
      · simp only [false_iff, not_and, Outcome.ok.injEq, Prod.mk.injEq]
        rintro ⟨-, -, rfl⟩
        omega
      · simp only [HeaderAction.read.injEq, Outcome.ok.injEq, Prod.mk.injEq, iff_self_and]
        rintro ⟨-, -, rfl⟩
        omega
  | err e => simp
  | panicked => simp

/-- A frame after which a listener reads on: a fixed header that decodes, at most `maxFrameSize`
bytes as it announces, and readable names unless it is a pong. -/
structure Passes (header body : List UInt8) (t : MessageType) : Prop where
  length : header.length = fixedHeaderLen
  decoded : ∃ f, decodeHeader header = .ok (t, f, body.length)
  body_le : body.length ≤ maxFrameSize
  names : t ≠ .pong → ∃ names, getMessageSourceTarget (header ++ body) = .ok names

/-- A frame that a listener has read, and after which it reads on. -/
lemma passes_of_goesOn (hlen : header.length = fixedHeaderLen)
    (hread : listenHeader header = .read t f body.length)
    (hgoes : (listenFrame n t f header body).goesOn = true) : Passes header body t := by
  obtain ⟨hdec, hle⟩ := listenHeader_eq_read_iff.mp hread
  exact ⟨hlen, ⟨f, hdec⟩, hle, names_of_goesOn hgoes⟩

end Passes

/-! ### Frames of the encoder -/

section Encoded

variable {t : MessageType} {f : MessageFlags} {id : ChannelId} {src tgt : String}
  {total offset n w len : ℕ} {payload header rest : List UInt8}

/-- A fixed header is read back. -/
lemma decodeHeader_frameHead (hlen : len < 2 ^ 32) :
    decodeHeader (frameHead t f len) = .ok (t, f, len) := by
  have hcut : frameHead t f len = framePrefix t f ++ beEncode 4 len := frameHead_eq hlen
  have hbyte : ∀ i < 7, (index (frameHead t f len) i : Outcome ProtocolError UInt8) =
      index (framePrefix t f) i := by
    intro i hi
    rw [hcut, index_append_left hi]
  have hmagic : (slice (frameHead t f len) 0 magicLen : Outcome ProtocolError (List UInt8)) =
      .ok (beEncode 4 magicNumber) := slice_append_left rfl
  have hread : (readBe32 (frameHead t f len) (magicLen + versionLen + typeLen + flagsLen)
      : Outcome ProtocolError ℕ) = .ok len := by
    rw [hcut, ← List.append_nil (beEncode 4 len)]
    exact readBe32_append rfl (by omega)
  rw [decodeHeader, if_neg (by rw [frameHead_length]; decide), hmagic, Outcome.ok_bind,
    validateMagic_beEncode, Outcome.ok_bind, hbyte _ (by decide), hbyte _ (by decide),
    hbyte _ (by decide), hread]
  change (do
    let _ ← validateVersion version
    let msgType ← MessageType.tryFrom t.asU8
    let flags ← MessageFlags.tryFrom f.asU8
    let frameLength ← Outcome.ok len
    return (msgType, flags, frameLength)) = _
  rw [validateVersion_version, Outcome.ok_bind, MessageType.tryFrom_asU8, Outcome.ok_bind,
    MessageFlags.tryFrom_asU8, Outcome.ok_bind, Outcome.ok_bind, Outcome.pure_eq]

/-- A message frame of at most 8192 bytes behind its fixed header is the header, which the listener
accepts, and the bytes the header announces. -/
lemma exists_listenHeader_messageFrame
    (hlen : (messageFrame t f id src tgt total offset payload).length
      ≤ fixedHeaderLen + maxFrameSize) :
    ∃ header rest, messageFrame t f id src tgt total offset payload = header ++ rest ∧
      header.length = fixedHeaderLen ∧ listenHeader header = .read t f rest.length := by
  have hfix : messageFixedLen = 41 := rfl
  have hfix' : fixedHeaderLen = 11 := rfl
  rw [messageFrame_length] at hlen
  set len := messageFixedLen + src.utf8ByteSize + tgt.utf8ByteSize + payload.length
    - fixedHeaderLen with hdef
  set body := messageBody id src tgt total offset payload with hbody
  have hmax : maxFrameSize = 8192 := rfl
  refine ⟨frameHead t f len, body ++ frameCrc (frameHead t f len ++ body), ?_,
    frameHead_length .., ?_⟩
  · rw [← List.append_assoc]
    rfl
  · have hrest : (body ++ frameCrc (frameHead t f len ++ body)).length = len := by
      rw [List.length_append, hbody, messageBody_length, frameCrc, beEncode_length]
      omega
    rw [hrest, listenHeader, decodeHeader_frameHead (by omega)]
    dsimp only
    rw [if_neg (by omega)]

/-- The task of a frame of the encoder has its flags and names. -/
lemma MessageTask.FromFrame.eq_of_messageFrame {task : MessageTask} (htask : task.FromFrame n w)
    (h : FieldsFit src tgt total offset payload)
    (hpayload : task.payload = messageFrame t f id src tgt total offset payload) :
    task.flags = f ∧ task.fromName = src ∧ task.toName = tgt := by
  have hnames := htask.names
  rw [hpayload, getMessageSourceTarget_messageFrame h] at hnames
  obtain ⟨header, body, t', hcut, hlen, hread, -⟩ := htask.frame
  have hfix : messageFixedLen = 41 := rfl
  have hfix' : fixedHeaderLen = 11 := rfl
  have hmax : maxFrameSize = 8192 := rfl
  have hname : maxNameLength = 128 := rfl
  have hsrc := h.source_le
  have htgt := h.target_le
  have hpay := h.payload_le
  rw [hpayload, messageFrame, sealFrame, List.append_assoc] at hcut
  obtain ⟨rfl, -⟩ := List.append_inj hcut (by rw [hlen]; exact frameHead_length ..)
  rw [listenHeader, decodeHeader_frameHead (by omega)] at hread
  dsimp only at hread
  split_ifs at hread
  obtain ⟨hfrom, hto⟩ := by simpa using hnames
  exact ⟨(HeaderAction.read.inj hread).2.1.symm, hfrom.symm, hto.symm⟩

/-- A frame of the encoder becomes the task that carries it, for the worker of its channel. -/
lemma listenFrame_messageFrame (h : FieldsFit src tgt total offset payload) (ht : t ≠ .pong)
    (hsplit : messageFrame t f id src tgt total offset payload = header ++ rest)
    (hw : id.assignTargetFast n = .ok w) :
    listenFrame n t f header rest = .send w ⟨src, tgt, f, header ++ rest⟩ := by
  rw [listenFrame, if_neg ht, ← hsplit]
  dsimp only
  rw [getChannelId_messageFrame]
  dsimp only
  rw [getMessageSourceTarget_messageFrame h]
  dsimp only
  rw [hw]
  dsimp only
  rw [if_pos (ChannelId.assignTargetFast_lt hw)]

/-- The task of the `i`-th frame of a stream. -/
def streamTask (t : MessageType) (endChannel isResponse : Bool) (id : ChannelId)
    (src tgt : String) (data : List UInt8) (i : ℕ) : MessageTask where
  fromName := src
  toName := tgt
  flags := .new (decide (i + 1 = frameCount src tgt data)) endChannel isResponse
  payload := streamFrame t endChannel isResponse id src tgt data i

/-- A listener reads a frame of a stream and sends it to the worker of its channel. -/
lemma exists_listen_streamFrame {data : List UInt8} {endChannel isResponse : Bool} {i : ℕ}
    (henc : Encodable src tgt data) (hi : i < frameCount src tgt data) (ht : t ≠ .pong)
    (hw : id.assignTargetFast n = .ok w) :
    ∃ header rest flags, streamFrame t endChannel isResponse id src tgt data i = header ++ rest ∧
      header.length = fixedHeaderLen ∧ listenHeader header = .read t flags rest.length ∧
      listenFrame n t flags header rest =
        .send w (streamTask t endChannel isResponse id src tgt data i) := by
  set flags := MessageFlags.new (decide (i + 1 = frameCount src tgt data)) endChannel isResponse
    with hflags
  have hfit := StreamCall.fieldsFit (c := ⟨t, endChannel, isResponse, id, src, tgt, data⟩) henc hi
  obtain ⟨header, rest, hcut, hlen, hread⟩ :=
    exists_listenHeader_messageFrame ((streamFrame_length_le henc i).trans (Nat.le_add_left _ _))
  have hsend := listenFrame_messageFrame hfit ht hcut hw
  rw [← hcut] at hsend
  exact ⟨header, rest, flags, hcut, hlen, hread, hsend⟩

end Encoded

/-! ### The 404 response -/

/-- The last frame of a request: the frame whose lookup failure is answered. -/
def MessageTask.closesRequest (task : MessageTask) : Bool :=
  task.flags.endStream && task.flags.endChannel && task.flags.isRequest

/-- 创建响应: the frame a worker writes back for a request whose target is not there. -/
def notFoundReply (toVec : Json → Except String (List UInt8)) (task : MessageTask) :
    Outcome ProtocolError (List UInt8) := do
  let channelId ← getChannelId task.payload
  createMessageResponse toVec task.fromName channelId 404 "404 Not Found !"

section Reply

variable {toVec : Json → Except String (List UInt8)} {task : MessageTask}

/-- A task whose names and channel are read is answered with a frame of the server for the
sender's name, with the channel of the task. -/
lemma notFoundReply_eq_ok {n w : ℕ} {id : ChannelId} {text : List UInt8}
    (htask : task.FromFrame n w) (hid : getChannelId task.payload = .ok id)
    (hvec : toVec (responseObject 404 "404 Not Found !") = .ok text) (htext : 0 < text.length)
    (hfits : text.length ≤ 7895) :
    notFoundReply toVec task =
      .ok (messageFrame .header (.new true true true) id "fernq" task.fromName text.length 0
        text) := by
  obtain ⟨hpos, hle⟩ := htask.utf8ByteSize_fromName
  rw [notFoundReply, hid, Outcome.ok_bind]
  exact createMessageResponse_eq_ok hpos hle (by decide) (by decide) hvec htext hfits

end Reply

end Fernq
