import Mathlib.Tactic
import Fernq.Server.Dispatch
import Fernq.Server.Handshake

/-!
The reading loop of a listener (`Room::listener` in `fernqd/src/server/room.rs`) when nothing is
cancelled, over a script of what its socket returns.

* `listenRound`, `listen`: one round of the loop, and the loop.
* `listen_forwards_exactly`: the frames of the encoders are forwarded one by one, exactly.
-/

namespace Fernq

/-- What a listener does while it reads: a task goes to its worker, or the heartbeat counter is
reset. -/
inductive ListenEvent
  | enqueue (worker : ℕ) (task : MessageTask)
  | reset
  deriving DecidableEq

/-- Where a listener stands when nothing more comes: it waits for a fixed header, or for the payload
behind a header; or how it has ended: the loop is left, or the task has aborted. -/
inductive ListenEnd
  | header (reader : BufReader)
  | payload (header : List UInt8) (frameLength : ℕ) (reader : BufReader)
  | left
  | aborted
  deriving DecidableEq

/-- What one round of the loop comes to. -/
inductive ListenRound
  | stop (ended : ListenEnd)
  | next (events : List ListenEvent) (reader : BufReader)
  deriving DecidableEq

/-- One round: the fixed header is read and checked, and then the payload; a whole frame is handled
and the loop goes on (读取 -> 解析 -> 处理). -/
def listenRound (workerNumber : ℕ) (reader : BufReader) : ListenRound :=
  match reader.readExact fixedHeaderLen with
  | (.elapsed, _) => .stop (.header reader)
  | (.failed _ _, _) => .stop .left
  | (.done header, reader) =>
      match listenHeader header with
      | .leave => .stop .left
      | .aborted => .stop .aborted
      | .read messageType flags frameLength =>
          match reader.readExact frameLength with
          | (.elapsed, _) => .stop (.payload header frameLength reader)
          | (.failed _ _, _) => .stop .left
          | (.done payload, reader) =>
              match listenFrame workerNumber messageType flags header payload with
              | .reset => .next [.reset] reader
              | .send worker task => .next [.enqueue worker task, .reset] reader
              | .leave => .stop .left
              | .aborted => .stop .aborted

/-- A frame that a listener has read and handled. -/
structure ReadFrame (workerNumber : ℕ) (reader : BufReader) (events : List ListenEvent)
    (reader' : BufReader) (header payload : List UInt8) (messageType : MessageType)
    (flags : MessageFlags) : Prop where
  header_length : header.length = fixedHeaderLen
  listenHeader_eq : listenHeader header = .read messageType flags payload.length
  bytes : reader.pendingBytes = header ++ payload ++ reader'.pendingBytes
  events_eq :
    (listenFrame workerNumber messageType flags header payload = .reset ∧ events = [.reset]) ∨
      ∃ w task, listenFrame workerNumber messageType flags header payload = .send w task ∧
        events = [.enqueue w task, .reset]

section Round

variable {n : ℕ} {r r' : BufReader} {events : List ListenEvent}

/-- A round after which the loop goes on has read one frame. -/
lemma readFrame_of_listenRound (h : listenRound n r = .next events r') :
    ∃ header payload t f, ReadFrame n r events r' header payload t f := by
  unfold listenRound at h
  split at h
  · cases h
  · cases h
  · rename_i header between hhead
    split at h
    · cases h
    · cases h
    · rename_i t f len haction
      split at h
      · cases h
      · cases h
      · rename_i payload after hbody
        have hlen := BufReader.readExact_length hbody
        subst hlen
        have hbytes : r.pendingBytes = header ++ payload ++ after.pendingBytes := by
          rw [BufReader.pendingBytes_of_readExact hhead, BufReader.pendingBytes_of_readExact hbody,
            List.append_assoc]
        have hhlen := BufReader.readExact_length hhead
        split at h
        · rename_i hframe
          cases h
          exact ⟨header, payload, t, f, hhlen, haction, hbytes, .inl ⟨hframe, rfl⟩⟩
        · rename_i w task hframe
          cases h
          exact ⟨header, payload, t, f, hhlen, haction, hbytes, .inr ⟨w, task, hframe, rfl⟩⟩
        · cases h
        · cases h

/-- A round takes bytes off the stream. -/
lemma pendingBytes_lt_of_listenRound (h : listenRound n r = .next events r') :
    r'.pendingBytes.length < r.pendingBytes.length := by
  obtain ⟨header, payload, t, f, hframe⟩ := readFrame_of_listenRound h
  have hfix : fixedHeaderLen = 11 := rfl
  have hlen := hframe.header_length
  rw [hframe.bytes, List.length_append, List.length_append]
  omega

/-- A listener that waits for a header has read nothing of it. -/
lemma reader_of_listenRound (h : listenRound n r = .stop (.header r')) :
    r' = r := by
  unfold listenRound at h
  split at h
  · cases h
    rfl
  · cases h
  · split at h
    · cases h
    · cases h
    · split at h
      · cases h
      · cases h
      · split at h <;> cases h

end Round

/-- 主循环：读取 -> 解析 -> 处理: what the loop does, and where it ends. -/
def listen (workerNumber : ℕ) (reader : BufReader) : List ListenEvent × ListenEnd :=
  match _h : listenRound workerNumber reader with
  | .stop ended => ([], ended)
  | .next events reader' =>
      let (rest, ended) := listen workerNumber reader'
      (events ++ rest, ended)
termination_by reader.pendingBytes.length
decreasing_by exact pendingBytes_lt_of_listenRound _h

section Listen

variable {n w : ℕ} {r r' : BufReader} {events : List ListenEvent} {ended : ListenEnd}
  {task : MessageTask}

lemma listen_of_stop (h : listenRound n r = .stop ended) : listen n r = ([], ended) := by
  rw [listen]
  split <;> simp_all

lemma listen_of_next (h : listenRound n r = .next events r') :
    listen n r = (events ++ (listen n r').1, (listen n r').2) := by
  rw [listen]
  split <;> simp_all

/-- Whatever the listener reads, a task it enqueues comes from a whole frame that it read. -/
theorem fromFrame_of_listen (h : .enqueue w task ∈ (listen n r).1) : task.FromFrame n w := by
  induction hlen : r.pendingBytes.length using Nat.strong_induction_on generalizing r with
  | _ len ih =>
    cases hround : listenRound n r with
    | stop ended =>
        rw [listen_of_stop hround] at h
        cases h
    | next events r' =>
        rw [listen_of_next hround, List.mem_append] at h
        rcases h with h | h
        · obtain ⟨header, payload, t, f, hframe⟩ := readFrame_of_listenRound hround
          rcases hframe.events_eq with ⟨-, rfl⟩ | ⟨w', task', hsend, rfl⟩
          · simp at h
          · have hmem : w = w' ∧ task = task' := by simpa using h
            obtain ⟨rfl, rfl⟩ := hmem
            exact listenFrame_eq_send hframe.header_length hframe.listenHeader_eq hsend
        · exact ih _ (hlen ▸ pendingBytes_lt_of_listenRound hround) h rfl

end Listen

/-! ### Frames of the encoders -/

/-- A frame that a client sends: a pong, or the `i`-th frame of a stream. -/
inductive ClientFrame
  | pong
  | part (call : StreamCall) (i : ℕ)

namespace ClientFrame

def bytes : ClientFrame → List UInt8
  | pong => pongFrame
  | part c i => (c.decodedFrame i).frame

/-- The frame is a pong, or one that `generate_message_data_stream` returns for a type other than
Pong. -/
def Made : ClientFrame → Prop
  | pong => True
  | part c i => c.messageType ≠ .pong ∧
      ∃ frames, c.encode = .ok frames ∧ frames[i]? = some (c.decodedFrame i).frame

/-- The task that carries a frame: its names, its flags and its exact bytes. -/
def task (c : StreamCall) (i : ℕ) : MessageTask where
  fromName := c.sourceName
  toName := c.targetName
  flags := (c.decodedFrame i).flags
  payload := (c.decodedFrame i).frame

/-- What a listener does with a frame. -/
def events (worker : ChannelId → ℕ) : ClientFrame → List ListenEvent
  | pong => [.reset]
  | part c i => [.enqueue (worker c.channelId) (task c i), .reset]

variable {n : ℕ} {worker : ChannelId → ℕ} {frame : ClientFrame}

/-- A frame of the encoders is a fixed header that the listener accepts, and the bytes the header
announces, which it handles. -/
lemma exists_listen (hmade : frame.Made)
    (hn : ∀ id, ChannelId.assignTargetFast id n = .ok (worker id)) :
    ∃ header payload t f, frame.bytes = header ++ payload ∧ header.length = fixedHeaderLen ∧
      listenHeader header = .read t f payload.length ∧
      ((listenFrame n t f header payload = .reset ∧ frame.events worker = [.reset]) ∨
        ∃ w task, listenFrame n t f header payload = .send w task ∧
          frame.events worker = [.enqueue w task, .reset]) := by
  cases frame with
  | pong =>
      exact ⟨pongFrame.take 11, pongFrame.drop 11, .pong, .new true true true, by decide +kernel,
        by decide +kernel, by decide +kernel, .inl ⟨rfl, rfl⟩⟩
  | part c i =>
      obtain ⟨ht, frames, henc, hi⟩ := hmade
      obtain ⟨hok, rfl⟩ := generateMessageDataStream_eq_ok_iff.mp henc
      have hlt : i < frameCount c.sourceName c.targetName c.data := by
        have := (List.getElem?_eq_some_iff.mp hi).1
        rwa [streamFrames, List.length_map, List.length_range] at this
      obtain ⟨header, payload, f, hcut, hlen, hread, hsend⟩ :
          ∃ header payload f, (c.decodedFrame i).frame = header ++ payload ∧
            header.length = fixedHeaderLen ∧
            listenHeader header = .read c.messageType f payload.length ∧
            listenFrame n c.messageType f header payload = .send (worker c.channelId) (task c i) :=
        exists_listen_streamFrame hok hlt ht (hn c.channelId)
      exact ⟨header, payload, c.messageType, f, hcut, hlen, hread, .inr ⟨_, _, hsend, rfl⟩⟩

end ClientFrame

section Frames

variable {n : ℕ} {worker : ChannelId → ℕ} {r : BufReader} {frame : ClientFrame}

/-- A reader in front of a frame of the encoders handles it and goes on behind it. -/
lemma listenRound_of_made (hn : ∀ id, ChannelId.assignTargetFast id n = .ok (worker id))
    (hmade : frame.Made) {rest : List UInt8} (hbytes : r.pendingBytes = frame.bytes ++ rest)
    (hdata : ∃ chunks, r.inner = dataScript chunks) :
    ∃ r', listenRound n r = .next (frame.events worker) r' ∧ r'.pendingBytes = rest ∧
      ∃ chunks, r'.inner = dataScript chunks := by
  obtain ⟨header, payload, t, f, hcut, hlen, hread, hevents⟩ := ClientFrame.exists_listen hmade hn
  rw [hcut, List.append_assoc] at hbytes
  -- the header is there, and behind it the payload
  obtain ⟨between, hhead, hbetween⟩ := BufReader.readExact_append hbytes
  obtain ⟨after, hbody, hafter⟩ := BufReader.readExact_append hbetween
  rw [hlen] at hhead
  obtain ⟨chunks, hdata⟩ := hdata
  obtain ⟨cs, hcs⟩ := BufReader.inner_of_readExact hhead hdata
  refine ⟨after, ?_, hafter, BufReader.inner_of_readExact hbody hcs⟩
  rcases hevents with ⟨hreset, hevents⟩ | ⟨w, task, hsend, hevents⟩
  · simp only [listenRound, hhead, hread, hbody, hreset, hevents]
  · simp only [listenRound, hhead, hread, hbody, hsend, hevents]

/-- A reader in front of frames of the encoders handles them in order, and then waits for the next
header. -/
lemma listen_of_made (hn : ∀ id, ChannelId.assignTargetFast id n = .ok (worker id))
    {frames : List ClientFrame} (hmade : ∀ frame ∈ frames, frame.Made)
    (hbytes : r.pendingBytes = (frames.map ClientFrame.bytes).flatten)
    (hdata : ∃ chunks, r.inner = dataScript chunks) :
    listen n r = (frames.flatMap (ClientFrame.events worker), .header ⟨[], []⟩) := by
  induction frames generalizing r with
  | nil =>
      obtain ⟨chunks, hdata⟩ := hdata
      rw [BufReader.eq_nil_of_pendingBytes hdata hbytes]
      exact listen_of_stop rfl
  | cons frame frames ih =>
      rw [List.map_cons, List.flatten_cons] at hbytes
      obtain ⟨between, hround, hbetween, hmore⟩ :=
        listenRound_of_made hn (hmade frame (by simp)) hbytes hdata
      have hlisten := ih (fun g hg => hmade g (by simp [hg])) hbetween hmore
      rw [listen_of_next hround, hlisten, List.flatMap_cons]

end Frames

/-- **The listener forwards exactly what the encoders make.**  Over any sequence of pongs and stream
frames, read in any chunks, every stream frame goes to the worker of its channel as one task with
its names, its flags and its bytes, in order and with nothing else; the heartbeat counter is reset
once for each frame; and then the listener waits for the next header. -/
theorem listen_forwards_exactly {n : ℕ} (hn : ChannelId.isPowerOfTwo n = true)
    (frames : List ClientFrame) (hmade : ∀ frame ∈ frames, frame.Made) (chunks : List Chunk)
    (hchunks : chunkBytes chunks = (frames.map ClientFrame.bytes).flatten) :
    ∃ worker : ChannelId → ℕ, (∀ id, ChannelId.assignTargetFast id n = .ok (worker id)) ∧
      listen n (.new (dataScript chunks))
        = (frames.flatMap (ClientFrame.events worker), .header ⟨[], []⟩) := by
  have hworker : ∀ id : ChannelId, id.assignTargetFast n = .ok (id.hashU64 &&& (n - 1)) :=
    fun id => ChannelId.assignTargetFast_eq_ok hn
  refine ⟨fun id => id.hashU64 &&& (n - 1), hworker, ?_⟩
  have hbytes : (BufReader.new (dataScript chunks)).pendingBytes
      = (frames.map ClientFrame.bytes).flatten :=
    (dataBytes_dataScript chunks).trans hchunks
  exact listen_of_made hworker hmade hbytes ⟨chunks, rfl⟩

/-- A request of three bytes from `a` to `b`. -/
def shortCall : StreamCall where
  messageType := .header
  endChannel := true
  isResponse := false
  channelId := joinChannel
  sourceName := "a"
  targetName := "b"
  data := [1, 2, 3]

/-- A pong and the request, cut inside the header of the request. -/
def shortChunks : List Chunk :=
  [⟨pongFrame ++ (shortCall.decodedFrame 0).frame.take 5, by decide +kernel, by decide +kernel⟩,
    ⟨(shortCall.decodedFrame 0).frame.drop 5, by decide +kernel, by decide +kernel⟩]

/-- Both are handled by a listener with two workers. -/
theorem listen_forwards_exactly_short :
    ∃ worker : ChannelId → ℕ, (∀ id, ChannelId.assignTargetFast id 2 = .ok (worker id)) ∧
      listen 2 (.new (dataScript shortChunks))
        = ([ClientFrame.pong, .part shortCall 0].flatMap (ClientFrame.events worker),
            .header ⟨[], []⟩) := by
  have hmade : ∀ frame ∈ [ClientFrame.pong, .part shortCall 0], frame.Made := by
    intro frame hframe
    rcases List.mem_pair.mp hframe with rfl | rfl
    · trivial
    · have hok : Encodable "a" "b" [1, 2, 3] := by constructor <;> decide
      exact ⟨by decide, _, generateMessageDataStream_eq_ok hok, by decide +kernel⟩
  exact listen_forwards_exactly (by decide) _ hmade shortChunks (by decide +kernel)

end Fernq
