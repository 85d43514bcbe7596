import Mathlib.Tactic
import Fernq.Server.Listen
import Fernq.Server.Queues

/-!
The size limit of a listener (`Room::listener` in `fernqd/src/server/room.rs`) against the limit of
the encoder.  The encoder counts whole frames; the listener counts what the fixed header announces,
which leaves out the header itself.

* `OversizedIn`: behind frames after which a listener reads on, one that is forwarded and larger
  than `maxFrameSize`.
* `exists_oversized_iff`: these are the streams of which a listener forwards too large a frame;
  `Room.oversizedIn_of_accepted` is the same in any run of a room.
* `forwarded_within_limit_iff`: both limits together.
-/

namespace Fernq

/-! ### Frames in a stream -/

/-- Behind frames after which a listener reads on there is one that is no pong and, together with
its fixed header, is larger than `maxFrameSize`. -/
inductive OversizedIn : List UInt8 → Prop
  | here {header body rest : List UInt8} {t : MessageType} : Passes header body t → t ≠ .pong →
      maxFrameSize < fixedHeaderLen + body.length → OversizedIn (header ++ body ++ rest)
  | later {header body rest : List UInt8} {t : MessageType} : Passes header body t →
      OversizedIn rest → OversizedIn (header ++ body ++ rest)

section Stream

variable {n : ℕ} {r r' : BufReader} {events : List ListenEvent} {header body rest : List UInt8}
  {t : MessageType} {f : MessageFlags}

/-- A frame that a listener has handled. -/
lemma passes_of_readFrame (h : ReadFrame n r events r' header body t f) : Passes header body t := by
  refine passes_of_goesOn (n := n) h.header_length h.listenHeader_eq ?_
  rcases h.events_eq with ⟨haction, -⟩ | ⟨w, task, haction, -⟩
  · rw [haction]
    rfl
  · rw [haction]
    rfl

/-- A reader in front of a frame after which it reads on handles the frame. -/
lemma exists_readFrame_of_passes (h : Passes header body t)
    (hbytes : r.pendingBytes = header ++ body ++ rest) :
    ∃ f events r', listenRound n r = .next events r' ∧
      ReadFrame n r events r' header body t f ∧ r'.pendingBytes = rest := by
  obtain ⟨f, hdec⟩ := h.decoded
  have hread := listenHeader_eq_read_iff.mpr ⟨hdec, h.body_le⟩
  have hgoes : (listenFrame n t f header body).goesOn = true := goesOn_of_names h.names
  -- the header is there, and behind it the payload
  obtain ⟨between, hhead, hbetween⟩ :=
    BufReader.readExact_append (hbytes.trans (List.append_assoc ..))
  obtain ⟨after, hbody, hafter⟩ := BufReader.readExact_append hbetween
  rw [h.length] at hhead
  have hall : r.pendingBytes = header ++ body ++ after.pendingBytes := by rw [hbytes, hafter]
  cases haction : listenFrame n t f header body with
  | reset =>
      refine ⟨f, [.reset], after, ?_, ⟨h.length, hread, hall, .inl ⟨haction, rfl⟩⟩, hafter⟩
      simp only [listenRound, hhead, hread, hbody, haction]
  | send w task =>
      refine ⟨f, [.enqueue w task, .reset], after, ?_,
        ⟨h.length, hread, hall, .inr ⟨w, task, haction, rfl⟩⟩, hafter⟩
      simp only [listenRound, hhead, hread, hbody, haction]
  | leave =>
      rw [haction] at hgoes
      cases hgoes
  | aborted =>
      rw [haction] at hgoes
      cases hgoes

/-- The worker count of a listener that forwards something is accepted. -/
lemma powerOfTwo_of_send {w : ℕ} {task : MessageTask} (h : ReadFrame n r events r' header body t f)
    (hsend : listenFrame n t f header body = .send w task) : ∃ k, n = 2 ^ k := by
  obtain ⟨id, -, hassign⟩ := (listenFrame_eq_send h.header_length h.listenHeader_eq hsend).worker
  exact ChannelId.exists_assignTargetFast_iff.mp ⟨w, hassign⟩

/-- A frame that is forwarded is no pong. -/
lemma ne_pong_of_send {w : ℕ} {task : MessageTask}
    (hsend : listenFrame n t f header body = .send w task) : t ≠ .pong := by
  rintro rfl
  cases hsend

/-- A listener that forwards too large a frame has read it off its stream. -/
lemma oversizedIn_of_mem {w : ℕ} {task : MessageTask}
    (hmem : .enqueue w task ∈ (listen n r).1) (hlarge : maxFrameSize < task.payload.length) :
    (∃ k, n = 2 ^ k) ∧ OversizedIn r.pendingBytes := by
  induction hlen : r.pendingBytes.length using Nat.strong_induction_on generalizing r with
  | _ len ih =>
    cases hround : listenRound n r with
    | stop ended =>
        rw [listen_of_stop hround] at hmem
        cases hmem
    | next events r' =>
        obtain ⟨header, body, t, f, hframe⟩ := readFrame_of_listenRound hround
        rw [listen_of_next hround, List.mem_append] at hmem
        rw [hframe.bytes]
        rcases hmem with hmem | hmem
        · rcases hframe.events_eq with ⟨-, rfl⟩ | ⟨w', task', hsend, rfl⟩
          · simp at hmem
          · obtain ⟨rfl, rfl⟩ : w = w' ∧ task = task' := by simpa using hmem
            refine ⟨powerOfTwo_of_send hframe hsend, .here (passes_of_readFrame hframe)
              (ne_pong_of_send hsend) ?_⟩
            rwa [payload_of_listenFrame hsend, List.length_append, hframe.header_length] at hlarge
        · obtain ⟨hpow, hrest⟩ := ih _ (hlen ▸ pendingBytes_lt_of_listenRound hround) hmem rfl
          exact ⟨hpow, .later (passes_of_readFrame hframe) hrest⟩

/-- A listener with workers forwards the first too large frame of its stream. -/
lemma exists_mem_of_oversizedIn (hpow : ∃ k, n = 2 ^ k) {bytes : List UInt8}
    (h : OversizedIn bytes) (hbytes : r.pendingBytes = bytes) :
    ∃ w task, .enqueue w task ∈ (listen n r).1 ∧ maxFrameSize < task.payload.length := by
  induction h generalizing r with
  | @here header body rest t hpass ht hlarge =>
      obtain ⟨f, events, r', hround, hframe, -⟩ := exists_readFrame_of_passes (n := n) hpass hbytes
      obtain ⟨names, hnames⟩ := hpass.names ht
      obtain ⟨id, hsend, -⟩ := exists_listenFrame_of_names (n := n) (f := f) ht hnames
      obtain ⟨w, hw⟩ : ∃ w, id.assignTargetFast n = .ok w :=
        ChannelId.exists_assignTargetFast_iff.mpr hpow
      have haction := hsend w hw
      rcases hframe.events_eq with ⟨hreset, -⟩ | ⟨w', task, hsend', rfl⟩
      · simp [haction] at hreset
      · refine ⟨w', task, ?_, ?_⟩
        · rw [listen_of_next hround]
          exact List.mem_append_left _ List.mem_cons_self
        · rwa [payload_of_listenFrame hsend', List.length_append, hpass.length]
  | @later header body rest t hpass _ ih =>
      obtain ⟨f, events, r', hround, -, hrest⟩ := exists_readFrame_of_passes (n := n) hpass hbytes
      obtain ⟨w, task, hmem, hlarge⟩ := ih hrest
      refine ⟨w, task, ?_, hlarge⟩
      rw [listen_of_next hround]
      exact List.mem_append_right _ hmem

/-- The streams of which a listener forwards too large a frame. -/
lemma exists_oversized_iff :
    (∃ w task, .enqueue w task ∈ (listen n r).1 ∧ maxFrameSize < task.payload.length) ↔
      (∃ k, n = 2 ^ k) ∧ OversizedIn r.pendingBytes := by
  refine ⟨fun h => ?_, fun h => exists_mem_of_oversizedIn h.1 h.2 rfl⟩
  obtain ⟨w, task, hmem, hlarge⟩ := h
  exact oversizedIn_of_mem hmem hlarge

end Stream

/-! ### Both limits -/

/-- Every frame of the encoder is within the limit of a listener. -/
lemma wholeFrame_of_encode {call : StreamCall} {frames : List (List UInt8)}
    (h : call.encode = .ok frames) {frame : List UInt8} (hframe : frame ∈ frames) :
    Room.WholeFrame frame := by
  obtain ⟨hok, rfl⟩ := generateMessageDataStream_eq_ok_iff.mp h
  obtain ⟨i, -, rfl⟩ := List.mem_map.mp hframe
  obtain ⟨header, payload, hcut, hlen, hread⟩ :=
    exists_listenHeader_messageFrame ((streamFrame_length_le hok i).trans (Nat.le_add_left _ _))
  exact ⟨header, payload, call.messageType, _, hcut, hlen, hread⟩

namespace Room

variable {C : Type} [DecidableEq C] {cfg : RoomConfig C} {s : Room cfg}

/-- One of the frames that a listener has read. -/
lemma oversizedIn_of_frames {frames : List (List UInt8)} {header body : List UInt8}
    {t : MessageType} (hpassed : ∀ frame ∈ frames, PassedFrame frame)
    (hpass : Passes header body t) (ht : t ≠ .pong)
    (hlarge : maxFrameSize < fixedHeaderLen + body.length) (hmem : header ++ body ∈ frames)
    (rest : List UInt8) : OversizedIn (frames.flatten ++ rest) := by
  induction frames with
  | nil => cases hmem
  | cons frame frames ih =>
      rw [List.flatten_cons, List.append_assoc]
      rcases List.mem_cons.mp hmem with rfl | htail
      · exact .here hpass ht hlarge
      · obtain ⟨header', body', t', rfl, hpass'⟩ := hpassed _ List.mem_cons_self
        exact .later hpass' (ih (fun g hg => hpassed g (List.mem_cons_of_mem _ hg)) htail)

/-- In any run of a room, too large a frame that was sent to a worker has come from its
connection. -/
lemma oversizedIn_of_accepted (h : (lts cfg).Reach s) {item : Item C}
    (hitem : item ∈ s.log.items.accepted) (hlarge : maxFrameSize < item.task.payload.length) :
    (∃ k, cfg.workerNumber = 2 ^ k) ∧ OversizedIn (s.log.received item.source) := by
  obtain ⟨w, hframe⟩ := (queued_of_reach h).accepted item hitem
  obtain ⟨header, body, t, hcut, hlen, hread, ht⟩ := hframe.frame
  obtain ⟨id, -, hassign⟩ := hframe.worker
  refine ⟨ChannelId.exists_assignTargetFast_iff.mp ⟨w, hassign⟩, ?_⟩
  obtain ⟨frames, rest, hframes, hpassed⟩ := passedFrames_of_reach h item.source
  have hmem : item.task.payload ∈ frames := by
    refine hframes.sent.subset (List.mem_append_left _ (List.mem_map_of_mem ?_))
    simpa [acceptedFrom] using hitem
  -- both ways to cut the frame are at the end of its fixed header
  obtain ⟨header', body', t', hcut', hpass⟩ := hpassed _ hmem
  rw [hcut] at hcut' hmem hlarge
  obtain ⟨rfl, rfl⟩ := List.append_inj hcut' (hlen.trans hpass.length.symm)
  obtain ⟨f, hdec⟩ := hpass.decoded
  obtain ⟨rfl, -⟩ : t = t' ∧ item.task.flags = f := by
    simpa [hdec, eq_comm] using (listenHeader_eq_read_iff.mp hread).1
  rw [List.length_append, hlen] at hlarge
  rw [hframes.received]
  exact oversizedIn_of_frames hpassed hpass ht hlarge hmem rest

end Room

/-- **The limits.**  Every frame of the encoder passes the listener's check, and every task that a
listener enqueues has at most `maxFrameSize` bytes, exactly when the room has no worker to enqueue
it for or no frame that is to be forwarded is larger than `maxFrameSize` together with its fixed
header.  In every run of a room whose connections send no such frame, every task that was sent to a
worker has at most `maxFrameSize` bytes. -/
theorem forwarded_within_limit_iff (n : ℕ) (reads : List ReadResult) :
    (((∀ w task, .enqueue w task ∈ (listen n (.new reads)).1 →
        task.payload.length ≤ maxFrameSize) ∧
      ∀ (call : StreamCall) (frames : List (List UInt8)), call.encode = .ok frames →
        ∀ frame ∈ frames, Room.WholeFrame frame) ↔
      ((∃ k, n = 2 ^ k) → ¬ OversizedIn (dataBytes reads))) ∧
    ∀ {C : Type} [DecidableEq C] (cfg : RoomConfig C) (s : Room cfg), (Room.lts cfg).Reach s →
      (∀ c, (∃ k, cfg.workerNumber = 2 ^ k) → ¬ OversizedIn (s.log.received c)) →
      ∀ item ∈ s.log.items.accepted, item.task.payload.length ≤ maxFrameSize := by
  have hiff : _ ↔ (∃ k, n = 2 ^ k) ∧ OversizedIn (dataBytes reads) :=
    exists_oversized_iff (n := n) (r := .new reads)
  rw [and_iff_left fun call frames hencode frame hframe => wholeFrame_of_encode hencode hframe,
    ← not_and, ← hiff]
  refine ⟨⟨fun hle hex => ?_, fun hnot w task hmem => ?_⟩, ?_⟩
  · obtain ⟨w, task, hmem, hlarge⟩ := hex
    exact absurd (hle w task hmem) (not_le.mpr hlarge)
  · by_contra hlarge
    exact hnot ⟨w, task, hmem, not_le.mp hlarge⟩
  · intro C _ cfg s hreach hnone item hitem
    by_contra hlarge
    obtain ⟨hpow, hover⟩ := Room.oversizedIn_of_accepted hreach hitem (not_le.mp hlarge)
    exact hnone item.source hpow hover

/-- 8160 zeros. -/
@[irreducible] def zeros : List UInt8 := List.replicate 8160 0

lemma zeros_length : zeros.length = 8160 := by
  unfold zeros
  exact List.length_replicate

/-- A request of 8192 bytes behind its fixed header. -/
def oversizedFrame : List UInt8 :=
  messageFrame .header (.new true true false) joinChannel "a" "b" 8160 0 zeros

lemma oversizedFrame_length : oversizedFrame.length = 8203 := by
  rw [oversizedFrame, messageFrame_length, zeros_length]
  decide

/-- The request in two reads. -/
def oversizedReads : List ReadResult :=
  [.data ⟨oversizedFrame.take 8192, by simp [oversizedFrame_length],
      by simp [oversizedFrame_length, bufCapacity]⟩,
    .data ⟨oversizedFrame.drop 8192, by simp [oversizedFrame_length],
      by simp [oversizedFrame_length, bufCapacity]⟩]

lemma dataBytes_oversizedReads : dataBytes oversizedReads = oversizedFrame := by
  rw [oversizedReads]
  simp only [dataBytes, List.append_nil, List.take_append_drop]

/-- A frame of 8203 bytes with a right checksum is enqueued by a listener with one worker. -/
theorem oversized_frame_is_forwarded :
    oversizedFrame.length = 8203 ∧
      decodeBasic oversizedFrame = .ok (.header, .new true true false, oversizedFrame, []) ∧
      ¬ ∀ w task, .enqueue w task ∈ (listen 1 (.new oversizedReads)).1 →
        task.payload.length ≤ maxFrameSize := by
  have hfix : fixedHeaderLen = 11 := rfl
  have hmax : maxFrameSize = 8192 := rfl
  have hfit : FieldsFit "a" "b" 8160 0 zeros := by
    refine ⟨by decide, by decide, by decide, by decide, by omega, by omega, ?_⟩
    rw [zeros_length]
    omega
  have hdecode : decodeBasic (oversizedFrame ++ []) = _ := decodeBasic_messageFrame hfit []
  rw [List.append_nil] at hdecode
  refine ⟨oversizedFrame_length, hdecode, fun hle => ?_⟩
  obtain ⟨header, body, hcut, hlen, hread⟩ : ∃ header body, oversizedFrame = header ++ body ∧
      header.length = fixedHeaderLen ∧
        listenHeader header = .read .header (.new true true false) body.length :=
    exists_listenHeader_messageFrame (by rw [← oversizedFrame, oversizedFrame_length]; omega)
  have hbody : fixedHeaderLen + body.length = 8203 := by
    rw [← oversizedFrame_length, hcut, List.length_append, hlen]
  obtain ⟨hdec, hbodyLe⟩ := listenHeader_eq_read_iff.mp hread
  have hnames : getMessageSourceTarget (header ++ body) = .ok ("a", "b") :=
    hcut ▸ getMessageSourceTarget_messageFrame hfit
  have hover : OversizedIn (header ++ body ++ []) := by
    refine .here ⟨hlen, ⟨_, hdec⟩, hbodyLe, fun _ => ⟨_, hnames⟩⟩ (by decide) ?_
    omega
  have hbytes : (BufReader.new oversizedReads).pendingBytes = header ++ body ++ [] := by
    rw [List.append_nil, ← hcut, ← dataBytes_oversizedReads]
    rfl
  obtain ⟨w, task, hmem, hlarge⟩ := exists_mem_of_oversizedIn (n := 1) ⟨0, rfl⟩ hover hbytes
  exact absurd (hle w task hmem) (not_le.mpr hlarge)

end Fernq
