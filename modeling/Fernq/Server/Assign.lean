import Mathlib.Tactic
import Fernq.Server.Queues

/-!
Which sender of its room a listener takes for a frame (`Room::open` and `Room::listener` in
`fernqd/src/server/room.rs`).

* `openChannels`: the senders and receivers that `open` makes.
* `workerSender`, `dispatchFrame`: the index into the senders, and the listener's decision with
  it; `dispatchFrame_openChannels` is the decision of the listeners of an opened room.
* `assign_target_fast_agrees`: the fast assignment is the plain one, and its index is in bounds.
-/

namespace Fernq

/-! ### The channels of a room -/

/-- The channels of a room: the senders that it keeps and the receivers of its workers.  A channel
is known by the round of the loop that makes it. -/
structure Channels where
  senders : List ℕ
  receivers : List ℕ

/-- 创建 worker_number 个通道，发送端保留，接收端收集起来: the loop of `open`. -/
def openChannels : ℕ → Channels
  | 0 => ⟨[], []⟩
  | n + 1 =>
      let channels := openChannels n
      ⟨channels.senders ++ [n], channels.receivers ++ [n]⟩

lemma openChannels_eq (n : ℕ) : openChannels n = ⟨List.range n, List.range n⟩ := by
  induction n with
  | zero => rfl
  | succ n ih => rw [openChannels, ih, List.range_succ]

lemma senders_length (n : ℕ) : (openChannels n).senders.length = n := by
  rw [openChannels_eq, List.length_range]

/-- Every receiver is the one of a worker that `open` spawns. -/
lemma tasks_opened {C : Type} (cfg : RoomConfig C) :
    (Room.opened cfg).tasks
      = .heartbeat :: (openChannels cfg.workerNumber).receivers.map .worker := by
  rw [openChannels_eq]
  rfl

/-! ### The index -/

/-- `self.worker_senders[worker_id]`: the sender for a channel, when the number of workers is
accepted. -/
def workerSender (workerSenders : List ℕ) (workerNumber : ℕ) (channelId : ChannelId) :
    Outcome ProtocolError ℕ := do
  let workerId ← channelId.assignTargetFast workerNumber
  index workerSenders workerId

/-- The sender that is taken in an opened room is the one of the assigned worker. -/
lemma workerSender_openChannels (n : ℕ) (id : ChannelId) :
    workerSender (openChannels n).senders n id = id.assignTargetFast n := by
  rw [workerSender]
  cases hassign : id.assignTargetFast n with
  | ok w =>
      have hlt : w < (openChannels n).senders.length := by
        rw [senders_length]
        exact ChannelId.assignTargetFast_lt hassign
      rw [Outcome.ok_bind, index_of_lt hlt]
      simp only [openChannels_eq, List.getElem_range]
  | err e => rfl
  | panicked => rfl

/-- 处理完整帧（header + payload）, with the senders of the room. -/
def dispatchFrame (workerSenders : List ℕ) (workerNumber : ℕ) (messageType : MessageType)
    (flags : MessageFlags) (header payload : List UInt8) : FrameAction :=
  if messageType = .pong then .reset
  else
    let frame := header ++ payload
    match getChannelId frame with
    | .err _ => .leave
    | .panicked => .aborted
    | .ok channelId =>
      match getMessageSourceTarget frame with
      | .err _ => .leave
      | .panicked => .aborted
      | .ok (sourceName, targetName) =>
        match workerSender workerSenders workerNumber channelId with
        | .ok sender => .send sender ⟨sourceName, targetName, flags, frame⟩
        | .err _ => .reset
        | .panicked => .aborted

/-- The listeners of an opened room. -/
lemma dispatchFrame_openChannels (n : ℕ) (t : MessageType) (f : MessageFlags)
    (header payload : List UInt8) :
    dispatchFrame (openChannels n).senders n t f header payload
      = listenFrame n t f header payload := by
  rw [dispatchFrame, listenFrame]
  split_ifs with hpong
  · rfl
  · dsimp only
    cases getChannelId (header ++ payload) with
    | err e => rfl
    | panicked => rfl
    | ok id =>
      cases getMessageSourceTarget (header ++ payload) with
      | err e => rfl
      | panicked => rfl
      | ok names =>
        dsimp only
        rw [workerSender_openChannels]
        cases hassign : id.assignTargetFast n with
        | err e => rfl
        | panicked => rfl
        | ok w =>
          dsimp only
          rw [if_pos (ChannelId.assignTargetFast_lt hassign)]

/-- A listener of an opened room aborts only over the names of a frame, and never over the index. -/
lemma dispatchFrame_eq_aborted_iff {n : ℕ} {t : MessageType} {f : MessageFlags}
    {header payload : List UInt8} :
    dispatchFrame (openChannels n).senders n t f header payload = .aborted
      ↔ t ≠ .pong ∧ getMessageSourceTarget (header ++ payload) = .panicked := by
  rw [dispatchFrame_openChannels, listenFrame_eq_aborted_iff,
    ← getMessageSourceTarget_ne_panicked_iff, not_not]

/-! ### The two assignments -/

/-- **The fast assignment.**  It accepts the powers of two, where it is the plain assignment and
below `n`.  So the index of a listener is in bounds in a room opened with a power of two of workers:
no frame makes the listener abort over it, and in every state of the room what is sent goes to one
of the senders.  For any other number no index is taken, whatever the senders are. -/
theorem assign_target_fast_agrees (id : ChannelId) (n : ℕ) :
    ((∃ w, id.assignTargetFast n = .ok w) ↔ ∃ k, n = 2 ^ k) ∧
      (∀ w, id.assignTargetFast n = .ok w → id.assignTarget n = .ok w ∧ w < n) ∧
      ((∃ k, n = 2 ^ k) → ∃ w < (openChannels n).senders.length,
        id.assignTargetFast n = .ok w ∧ workerSender (openChannels n).senders n id = .ok w) ∧
      ((¬ ∃ k, n = 2 ^ k) → ∀ senders, ∃ e, workerSender senders n id = .err e) ∧
      (∀ (t : MessageType) (f : MessageFlags) (header payload : List UInt8),
        dispatchFrame (openChannels n).senders n t f header payload = .aborted
          ↔ t ≠ .pong ∧ getMessageSourceTarget (header ++ payload) = .panicked) ∧
      ∀ {C : Type} [DecidableEq C] (cfg : RoomConfig C) (s : Room cfg), cfg.workerNumber = n →
        (Room.lts cfg).Reach s → ∀ c w task, s.listener c = .sending w task →
          (∃ k, n = 2 ^ k) ∧ w < (openChannels n).senders.length := by
  have haccepts : (∃ w, id.assignTargetFast n = .ok w) ↔ ∃ k, n = 2 ^ k :=
    ChannelId.exists_assignTargetFast_iff
  refine ⟨haccepts, fun w hw => ⟨ChannelId.assignTarget_of_assignTargetFast hw,
    ChannelId.assignTargetFast_lt hw⟩, fun hpow => ?_, fun hpow senders => ?_,
    fun t f header payload => dispatchFrame_eq_aborted_iff, ?_⟩
  · obtain ⟨w, hw⟩ := haccepts.mpr hpow
    refine ⟨w, ?_, hw, ?_⟩
    · rw [senders_length]
      exact ChannelId.assignTargetFast_lt hw
    · rw [workerSender_openChannels, hw]
  · obtain ⟨e, he⟩ : ∃ e, id.assignTargetFast n = .err e :=
      ChannelId.exists_assignTargetFast_eq_err hpow
    exact ⟨e, by rw [workerSender, he, Outcome.err_bind]⟩
  · rintro C _ cfg s rfl hreach c w task hsending
    obtain ⟨channel, -, hassign⟩ := ((Room.queued_of_reach hreach).sending c w task hsending).worker
    rw [senders_length]
    exact ⟨ChannelId.exists_assignTargetFast_iff.mp ⟨w, hassign⟩,
      ChannelId.assignTargetFast_lt hassign⟩

end Fernq
