import Mathlib.Tactic
import Fernq.Server.NotFound

/-!
How much of what its clients send a room keeps in memory (`Room::listener`, `Room::worker` and the
channels of `Room::open` in `fernqd/src/server/room.rs`).

* `MessageTask.bytes`, `ListenerStage.bytes`, `workerBytes`: the bytes that the tasks hold.
* `Bounded`: no queue is over its capacity, and the queue of a worker that has ended is empty.
* `memory_bounded`: bounds that depend on the number of workers and of listeners alone.
-/

namespace Fernq

/-- The bytes of the longest frame that a listener reads. -/
def frameLimit : ℕ := fixedHeaderLen + maxFrameSize

/-- What a task holds: its frame and its two names. -/
def MessageTask.bytes (task : MessageTask) : ℕ :=
  task.payload.length + task.fromName.utf8ByteSize + task.toName.utf8ByteSize

/-- The bytes of the largest task. -/
def taskLimit : ℕ := frameLimit + 2 * maxNameLength

/-- A task carries a frame that a listener reads. -/
lemma MessageTask.FromFrame.length_le {task : MessageTask} {n w : ℕ} (h : task.FromFrame n w) :
    task.payload.length ≤ frameLimit := by
  obtain ⟨header, payload, t, heq, hlen, hread, -⟩ := h.frame
  have hle := (listenHeader_eq_read_iff.mp hread).2
  rw [heq, List.length_append, frameLimit]
  omega

lemma MessageTask.FromFrame.bytes_le {task : MessageTask} {n w : ℕ} (h : task.FromFrame n w) :
    task.bytes ≤ taskLimit := by
  have hpayload := h.length_le
  have hfrom := h.utf8ByteSize_fromName.2
  have hto := h.utf8ByteSize_toName.2
  rw [bytes, taskLimit]
  omega

namespace Room

variable {C : Type} [DecidableEq C] {cfg : RoomConfig C} {s s' : Room cfg} {l : Label C} {c : C}
  {w : ℕ}

/-- The buffers that a listener keeps as long as it reads: that of its `BufReader`, and the fixed
header. -/
def readerBytes : ℕ := bufCapacity + fixedHeaderLen

/-- The bytes that a listener holds.  While it sends a task, the payload it has read is still there
beside the frame made of it; and so it is after that, when the stage does not keep the frame. -/
def ListenerStage.bytes : ListenerStage C → ℕ
  | .header | .removing | .closing _ => readerBytes
  | .payload _ _ _ len => readerBytes + len
  | .sending _ task => readerBytes + (task.payload.length - fixedHeaderLen) + task.bytes
  | .resetting => readerBytes + maxFrameSize + frameLimit
  | _ => 0

/-- The bytes of a listener that holds as much as it can. -/
def listenerLimit : ℕ := readerBytes + maxFrameSize + taskLimit

/-- The bytes of the tasks that wait for a worker, or are in its hands. -/
def workerBytes (s : Room cfg) (w : ℕ) : ℕ :=
  (((s.worker w).inflight ++ s.queue w).map fun item => item.task.bytes).sum

/-- No queue is over its capacity, and that of a worker that has ended is empty. -/
structure Bounded (s : Room cfg) : Prop where
  length : ∀ w, (s.queue w).length ≤ queueCapacity
  ended : ∀ w, s.worker w = .ended → s.queue w = []

omit [DecidableEq C] in
lemma Bounded.congr (h : Bounded s) (hqueue : s'.queue = s.queue) (hworker : s'.worker = s.worker) :
    Bounded s' :=
  ⟨fun w => hqueue ▸ h.length w, fun w hw => hqueue ▸ h.ended w (hworker ▸ hw)⟩

omit [DecidableEq C] in
/-- One worker and its queue have changed. -/
lemma Bounded.update (h : Bounded s) (v : ℕ) (hqueue : ∀ w, w ≠ v → s'.queue w = s.queue w)
    (hworker : ∀ w, w ≠ v → s'.worker w = s.worker w)
    (hlength : (s'.queue v).length ≤ queueCapacity)
    (hended : s'.worker v = .ended → s'.queue v = []) : Bounded s' := by
  refine ⟨fun w => ?_, fun w hw => ?_⟩
  · by_cases hv : w = v
    · exact hv ▸ hlength
    · rw [hqueue w hv]
      exact h.length w
  · by_cases hv : w = v
    · subst hv
      exact hended hw
    · rw [hqueue w hv]
      exact h.ended w (hworker w hv ▸ hw)

lemma Bounded.workerStep (h : Bounded s) (hs : WorkerStep s w s') : Bounded s' := by
  have hqueue := h.length w
  have hother : ∀ v, v ≠ w → s'.queue v = s.queue v ∧ s'.worker v = s.worker v := by
    intro v hv
    cases hs <;> exact ⟨by simp [hv], by simp [hv]⟩
  refine h.update w (fun v hv => (hother v hv).1) (fun v hv => (hother v hv).2) ?_ ?_
  · cases hs with
    | recv item rest _ hq =>
        rw [hq, List.length_cons] at hqueue
        simp only [Function.update_self]
        omega
    | cancelled _ _ => simp
    | _ => exact hqueue
  · cases hs with
    | cancelled _ _ => simp
    | _ => simp

lemma Bounded.step (h : Bounded s) (hs : Step s l s') : Bounded s' := by
  cases hs with
  | worker hs => exact h.workerStep hs
  | listener hs =>
      cases hs with
      | send w task _ hw hroom =>
          refine h.update w (fun v hv => by simp [hv]) (fun _ _ => rfl) ?_ fun hend => ?_
          · simpa using hroom
          · exact absurd hend hw
      | _ => exact h.congr rfl rfl
  | heartbeat hs => cases hs <;> exact h.congr rfl rfl
  | add hs => cases hs <;> exact h.congr rfl rfl
  | close hs => cases hs <;> exact h.congr rfl rfl
  | call _ _ => exact h.congr rfl rfl
  | arrival bytes => exact h.congr rfl rfl

lemma bounded_of_reach (h : (lts cfg).Reach s) : Bounded s := by
  refine h.invariant ?_ fun s l s' _ hi hs => hi.step hs
  rintro s rfl
  exact ⟨fun _ => Nat.zero_le _, fun _ _ => rfl⟩

omit [DecidableEq C] in
/-- Every item that a worker has, or will have, is a frame that a listener has read. -/
lemma bytes_le_of_mem (hq : Queued s) {item : Item C} (hw : s.worker w ≠ .ended)
    (hmem : item ∈ (s.worker w).inflight ++ s.queue w) : item.task.bytes ≤ taskLimit := by
  have haccepted : item ∈ s.log.items.accepted.filter (cfg.route · = some w) := by
    rw [s.log.items.fifo, hq.lane w hw]
    exact List.mem_append_right _ hmem
  obtain ⟨v, hv⟩ := hq.accepted item (List.mem_filter.mp haccepted).1
  exact hv.bytes_le

omit [DecidableEq C] in
lemma WorkerStage.length_inflight_le (stage : WorkerStage C) : stage.inflight.length ≤ 1 := by
  cases stage <;> simp [inflight]

omit [DecidableEq C] in
/-- What is held of tasks of a bounded size. -/
lemma sum_bytes_le {items : List (Item C)} (h : ∀ item ∈ items, item.task.bytes ≤ taskLimit) :
    (items.map fun item => item.task.bytes).sum ≤ items.length * taskLimit := by
  have hsum := List.sum_le_card_nsmul (items.map fun item => item.task.bytes) taskLimit
    (by simpa using h)
  simpa using hsum

omit [DecidableEq C] in
lemma workerBytes_of_ended (hb : Bounded s) (hw : s.worker w = .ended) : s.workerBytes w = 0 := by
  rw [workerBytes, hw, hb.ended w hw]
  rfl

omit [DecidableEq C] in
/-- A worker has one task in its hands, and a full queue at most. -/
lemma workerBytes_le (hq : Queued s) (hb : Bounded s) (w : ℕ) :
    s.workerBytes w ≤ (queueCapacity + 1) * taskLimit := by
  by_cases hw : s.worker w = .ended
  · rw [workerBytes_of_ended hb hw]
    exact Nat.zero_le _
  · have hlength : ((s.worker w).inflight ++ s.queue w).length ≤ queueCapacity + 1 := by
      have hone := (s.worker w).length_inflight_le
      have hqueue := hb.length w
      rw [List.length_append]
      omega
    calc s.workerBytes w
        ≤ ((s.worker w).inflight ++ s.queue w).length * taskLimit :=
          sum_bytes_le fun item hmem => bytes_le_of_mem hq hw hmem
      _ ≤ (queueCapacity + 1) * taskLimit := Nat.mul_le_mul_right _ hlength

omit [DecidableEq C] in
lemma listenerBytes_le (hq : Queued s) (c : C) : (s.listener c).bytes ≤ listenerLimit := by
  have hlimit : listenerLimit = readerBytes + maxFrameSize + taskLimit := rfl
  cases hc : s.listener c with
  | payload head t f len =>
      obtain ⟨-, hread⟩ := hq.reading c head t f len hc
      have hle := (listenHeader_eq_read_iff.mp hread).2
      rw [ListenerStage.bytes]
      omega
  | sending w task =>
      have hframe := (hq.sending c w task hc).length_le
      have htask := (hq.sending c w task hc).bytes_le
      rw [frameLimit] at hframe
      rw [ListenerStage.bytes]
      omega
  | resetting =>
      have hle : frameLimit ≤ taskLimit := Nat.le_add_right ..
      rw [ListenerStage.bytes]
      omega
  | header | removing | closing => rw [ListenerStage.bytes]; omega
  | _ => exact Nat.zero_le _

/-- **A room holds a bounded number of bytes.**  In every state that a room reaches, whatever its
clients send and however slow they read: no queue is longer than its capacity; each listener holds
at most its reading buffers, one payload and one task of the largest size; and the tasks that wait
for the workers, or are in their hands, take at most that size times the capacity of a queue and
one, for each worker. -/
theorem memory_bounded (h : (lts cfg).Reach s) :
    (∀ w, (s.queue w).length ≤ queueCapacity) ∧
      (∀ c, (s.listener c).bytes ≤ listenerLimit) ∧
      (∀ w, cfg.workerNumber ≤ w → s.workerBytes w = 0) ∧
      ∑ w ∈ Finset.range cfg.workerNumber, s.workerBytes w
        ≤ cfg.workerNumber * ((queueCapacity + 1) * taskLimit) := by
  have hq := queued_of_reach h
  have hb := bounded_of_reach h
  refine ⟨hb.length, listenerBytes_le hq, fun w hw => workerBytes_of_ended hb ?_, ?_⟩
  · by_contra hrun
    exact absurd (worker_lt h hrun) (by omega)
  · calc ∑ w ∈ Finset.range cfg.workerNumber, s.workerBytes w
        ≤ ∑ w ∈ Finset.range cfg.workerNumber, (queueCapacity + 1) * taskLimit :=
          Finset.sum_le_sum fun w _ => workerBytes_le hq hb w
      _ = cfg.workerNumber * ((queueCapacity + 1) * taskLimit) := by
          rw [Finset.sum_const, Finset.card_range, smul_eq_mul]

/-- A room of one worker in which a request waits: the 44 bytes of its frame and two of its
names. -/
theorem memory_bounded_lost : lost.workerBytes 0 = 46 ∧
    (∀ w, (lost.queue w).length ≤ queueCapacity) ∧
      (∀ c, (lost.listener c).bytes ≤ listenerLimit) ∧
      (∀ w, pair.workerNumber ≤ w → lost.workerBytes w = 0) ∧
      ∑ w ∈ Finset.range pair.workerNumber, lost.workerBytes w
        ≤ pair.workerNumber * ((queueCapacity + 1) * taskLimit) :=
  ⟨by decide +kernel, memory_bounded (reach_lost (P := fun _ => True) fun _ _ => trivial)⟩

end Room

end Fernq
