import Mathlib.Tactic
import Fernq.Protocol.Framing
import Fernq.Server.Listen

/-!
The frames the server acts on, against the frames `decode_basic` accepts: the listener of a room
(`fernqd/src/server/room.rs`) and the handshake (`fernqd/src/server/node.rs`) decode the header,
read the body it announces and read fields of the frame, and neither looks at the checksum.

* `received_frames_accepted_iff`: a frame the server acts on is accepted by `decode_basic`
  exactly when its checksum is right.
* `wrong_checksum_is_served`: a frame with a wrong checksum goes to a worker and is welcomed.
-/

namespace Fernq

/-- What a read has received. -/
def ReadExact.received : ReadExact → List UInt8
  | .done bytes => bytes
  | .failed received _ => received
  | .elapsed => []

/-- The part of the first frame that was received. -/
def receivedFrame (headerRead bodyRead : ReadExact) : List UInt8 :=
  headerRead.received ++ bodyRead.received

lemma decodeHeader_of_listenHeader {header : List UInt8} {t : MessageType} {f : MessageFlags}
    {n : ℕ} (h : listenHeader header = .read t f n) : decodeHeader header = .ok (t, f, n) := by
  unfold listenHeader at h
  split at h
  · cases h
  · cases h
  · rename_i heq
    split_ifs at h
    cases h
    exact heq

section FirstFrame

variable {reads : List ReadResult} {headerRead bodyRead : ReadExact} {n : ℕ} {reader : BufReader}

/-- The frame in the buffer, of a header that decodes. -/
lemma Framed.acceptedAs_iff {t : MessageType} {f : MessageFlags}
    (h : Framed reads headerRead n bodyRead reader)
    (hdec : decodeHeader (headerRead.filled fixedHeaderLen) = .ok (t, f, n)) :
    AcceptedAs (bufferedFrame headerRead n bodyRead) t f n ↔
      ChecksumRight (bufferedFrame headerRead n bodyRead) := by
  obtain ⟨between, hhead, hbody⟩ := h.exists_between
  exact Fernq.acceptedAs_iff (length_filled hhead) (length_filled hbody) hdec

/-- A read that was cut has received less than it was asked for. -/
lemma length_received_lt {r r' : BufReader} {m : ℕ} {read : ReadExact}
    (h : r.readExact m = (read, r')) (hcut : read.IsCut) : read.received.length < m := by
  obtain ⟨received, e, rfl⟩ := hcut
  have hlt := BufReader.readLoop_failed h
  rwa [List.length_nil, Nat.zero_add] at hlt

lemma length_received_le {r r' : BufReader} {m : ℕ} {read : ReadExact}
    (h : r.readExact m = (read, r')) : read.received.length ≤ m := by
  cases read with
  | done bytes => exact (BufReader.readExact_length h).le
  | failed received e => exact (length_received_lt h ⟨received, e, rfl⟩).le
  | elapsed => exact Nat.zero_le _

/-- The frame that was received, of a header that decodes. -/
lemma Framed.acceptedAs_received_iff {t : MessageType} {f : MessageFlags}
    (h : Framed reads headerRead n bodyRead reader)
    (hdec : decodeHeader (headerRead.filled fixedHeaderLen) = .ok (t, f, n)) :
    AcceptedAs (receivedFrame headerRead bodyRead) t f n ↔
      ¬ (headerRead.IsCut ∨ bodyRead.IsCut) ∧
        ChecksumRight (receivedFrame headerRead bodyRead) := by
  obtain ⟨between, hhead, hbody⟩ := h.exists_between
  have hheadLe := length_received_le hhead
  have hbodyLe := length_received_le hbody
  by_cases hcut : headerRead.IsCut ∨ bodyRead.IsCut
  · -- what was received is shorter than the frame
    have hshort : (receivedFrame headerRead bodyRead).length < fixedHeaderLen + n := by
      rw [receivedFrame, List.length_append]
      rcases hcut with hcut | hcut
      · have := length_received_lt hhead hcut
        omega
      · have := length_received_lt hbody hcut
        omega
    constructor
    · rintro ⟨-, hlen⟩
      omega
    · rintro ⟨hnot, -⟩
      exact absurd hcut hnot
  · obtain ⟨hnotHead, hnotBody⟩ := not_or.mp hcut
    obtain ⟨header, rfl⟩ := exists_done_of_not_cut h.header_ne hnotHead
    obtain ⟨body, rfl⟩ := exists_done_of_not_cut h.body_ne hnotBody
    have hiff := h.acceptedAs_iff hdec
    exact ⟨fun hacc => ⟨hcut, hiff.mp hacc⟩, fun hright => hiff.mpr hright.2⟩

end FirstFrame

/-- **The server acts on a frame that `decode_basic` accepts exactly when its checksum is right.**
A task that a listener enqueues is a header that decodes and the body it announces, and
`decode_basic` accepts it as one frame of that type, flags and length if and only if its checksum is
right.  The same holds of the first frame whose credentials are checked, as it stands in the buffer;
and of what was received of it, if no read of it was cut. -/
theorem received_frames_accepted_iff (r : BufReader) (reads : List ReadResult) :
    (∀ (n w : ℕ) (task : MessageTask), .enqueue w task ∈ (listen n r).1 →
      ∃ header body t, task.payload = header ++ body ∧ header.length = fixedHeaderLen ∧
        decodeHeader header = .ok (t, task.flags, body.length) ∧
        (AcceptedAs task.payload t task.flags body.length ↔ ChecksumRight task.payload)) ∧
    ∀ (headerRead bodyRead : ReadExact) (n : ℕ) (reader : BufReader) (headerInfo : MessageHeader)
      (payload : List UInt8), firstFrame reads = .ok (headerInfo, payload, reader) →
      Framed reads headerRead n bodyRead reader →
      ∃ t f, decodeHeader (headerRead.filled fixedHeaderLen) = .ok (t, f, n) ∧
        (AcceptedAs (bufferedFrame headerRead n bodyRead) t f n ↔
          ChecksumRight (bufferedFrame headerRead n bodyRead)) ∧
        (AcceptedAs (receivedFrame headerRead bodyRead) t f n ↔
          ¬ (headerRead.IsCut ∨ bodyRead.IsCut) ∧
            ChecksumRight (receivedFrame headerRead bodyRead)) := by
  constructor
  · intro n w task hmem
    obtain ⟨header, body, t, hpayload, hlen, hread, -⟩ := (fromFrame_of_listen hmem).frame
    have hdec := decodeHeader_of_listenHeader hread
    rw [hpayload]
    exact ⟨header, body, t, rfl, hlen, hdec, acceptedAs_iff hlen rfl hdec⟩
  · intro headerRead bodyRead n reader headerInfo payload _ hframed
    obtain ⟨t, f, hdec⟩ := decodeHeader_of_checkHeader hframed.check
    exact ⟨t, f, hdec, hframed.acceptedAs_iff hdec, hframed.acceptedAs_received_iff hdec⟩

/-- The first frame of a client with a checksum of zeros. -/
def unsealedFrame : List UInt8 := joinFrame.take 110 ++ [0, 0]

def unsealedReads : List ReadResult := [.data ⟨unsealedFrame, by decide +kernel, by decide +kernel⟩]

/-- The frame is enqueued by a listener, and as a first frame it is welcomed, but it is no frame of
`decode_basic`. -/
theorem wrong_checksum_is_served :
    .enqueue 0 ⟨"a", "fernq", .new true true false, unsealedFrame⟩
        ∈ (listen 1 (.new unsealedReads)).1 ∧
      addConnection plazaEnv unsealedReads = [.respond welcome, .addConn plazaId "a" []] ∧
      ¬ ∃ t f n, AcceptedAs unsealedFrame t f n := by
  have hround : listenRound 1 (.new unsealedReads)
      = .next [.enqueue 0 ⟨"a", "fernq", .new true true false, unsealedFrame⟩, .reset]
          ⟨[], []⟩ := by decide +kernel
  have hfirst : firstFrame unsealedReads
      = .ok (⟨joinChannel, "a", "fernq", joinUrl.length, 0⟩, joinUrl, ⟨[], []⟩) := by
    decide +kernel
  have hwrong : ¬ ChecksumRight unsealedFrame := by
    -- the register after the first half of the bytes
    have hhalf : netCrc ((checkedBytes unsealedFrame).take 53) = 0x31B4 := by decide +kernel
    rw [ChecksumRight, netCrc, ← List.take_append_drop 53 (checkedBytes unsealedFrame), crc16,
      List.foldl_append]
    rw [netCrc, crc16] at hhalf
    rw [hhalf]
    decide +kernel
  refine ⟨?_, addConnection_plaza hfirst, ?_⟩
  · rw [listen_of_next hround]
    exact List.mem_append_left _ List.mem_cons_self
  · rintro ⟨t, f, n, hok, -⟩
    exact hwrong (checkFrame_eq_ok_iff.mp (checks_of_decodeBasic hok).2).1

end Fernq
