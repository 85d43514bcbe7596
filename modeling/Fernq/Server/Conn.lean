import Mathlib.Tactic
import Fernq.Base.Transition

/-!
One TCP connection shared by any number of tasks (`fernqd/src/server/conn.rs`): the closed
flag, the cancel token, the writer lock, the socket and the calls of `write` and `close`
that run on clones of the connection.

* `TcpConn.CallStep`: every atomic operation, every wait and every outcome of the socket is a
  step of its own.
* `SharedConn.Step`: the steps of the calls on one connection, in any order.
-/

namespace Fernq

/-- The kinds of I/O errors the server tells apart (`std::io::ErrorKind`). -/
inductive ErrorKind
  | brokenPipe
  | timedOut
  | unexpectedEof
  | interrupted
  | other
  deriving DecidableEq, Repr

/-- An I/O error: its kind and its text. -/
structure IoError where
  kind : ErrorKind
  message : String
  deriving DecidableEq, Repr

/-- What an I/O operation returns. -/
abbrev IoResult := Except IoError Unit

namespace TcpConn

def connectionClosed : IoError := ⟨.brokenPipe, "connection closed"⟩

def acquireTimeout : IoError := ⟨.timedOut, "acquire write lock timeout"⟩

def writeTimeout : IoError := ⟨.timedOut, "write timeout"⟩

/-- How far a call of `write` is. -/
inductive WriteStage
  /-- before the fast path looks at the token -/
  | start
  /-- in `timeout(self.timeout, self.writer.lock())` -/
  | waiting
  /-- has the lock, before the second look at the token -/
  | locked
  /-- in `write_all`, with `rest` not yet on the socket -/
  | sending (rest : List UInt8)
  /-- `write_all` timed out, before the token is cancelled -/
  | expired
  /-- the result is known, and the guard is not dropped yet -/
  | leaving (r : IoResult)
  | returned (r : IoResult)
  deriving DecidableEq

/-- How far a call of `close` is. -/
inductive CloseStage
  /-- before the swap of the closed flag -/
  | start
  /-- in `timeout(self.timeout, self.writer.lock())` -/
  | waiting
  /-- the wait for the lock timed out, before the token is cancelled -/
  | expired
  /-- has the lock, before the token is cancelled -/
  | locked
  /-- the token is cancelled, before the socket is shut down -/
  | cancelled
  /-- in `shutdown` -/
  | shutting
  /-- the result is known, and the guard is not dropped yet -/
  | leaving (r : IoResult)
  | returned (r : IoResult)
  deriving DecidableEq

/-- A call on a clone of the connection. -/
inductive Call
  | write (data : List UInt8) (stage : WriteStage)
  | close (stage : CloseStage)
  deriving DecidableEq

/-- The bytes the call is to write. -/
def Call.data : Call → List UInt8
  | .write data _ => data
  | .close _ => []

/-- The call holds the writer lock. -/
def Call.holds : Call → Bool
  | .write _ .locked | .write _ (.sending _) | .write _ .expired | .write _ (.leaving _) => true
  | .close .locked | .close .cancelled | .close .shutting | .close (.leaving _) => true
  | _ => false

end TcpConn

/-- The shared fields of a connection.  `broken` is set once `write_all` has returned an I/O
error, `out` holds the bytes on the socket, `shutdowns` counts the calls of `shutdown`, and
`acquired` lists the writes that got the writer lock, in that order. -/
structure TcpConn (κ : Type) where
  closed : Bool
  cancelToken : Bool
  pendingHeartbeats : ℕ
  writer : Option κ
  broken : Bool
  out : List UInt8
  shutdowns : ℕ
  acquired : List κ

namespace TcpConn

variable {κ : Type}

/-- `TcpConn::new`. -/
def new : TcpConn κ where
  closed := false
  cancelToken := false
  pendingHeartbeats := 0
  writer := none
  broken := false
  out := []
  shutdowns := 0
  acquired := []

/-- `is_closed`. -/
def isClosed (s : TcpConn κ) : Bool := s.cancelToken

/-- `reset_heartbeats`. -/
def resetHeartbeats (s : TcpConn κ) : TcpConn κ := { s with pendingHeartbeats := 0 }

/-- `increment_heartbeats`, on an `AtomicU32`. -/
def incrementHeartbeats (s : TcpConn κ) : TcpConn κ :=
  { s with pendingHeartbeats := (s.pendingHeartbeats + 1) % 2 ^ 32 }

/-- One step of call `k`: the shared fields and the call, before and after. -/
inductive CallStep (k : κ) : TcpConn κ → Call → TcpConn κ → Call → Prop
  /-- 快速路径: the token is already cancelled -/
  | fastClosed {s : TcpConn κ} {data : List UInt8} : s.isClosed = true →
      CallStep k s (.write data .start) s (.write data (.returned (.error connectionClosed)))
  | fastOpen {s : TcpConn κ} {data : List UInt8} : s.isClosed = false →
      CallStep k s (.write data .start) s (.write data .waiting)
  | writeLock {s : TcpConn κ} {data : List UInt8} : s.writer = none →
      CallStep k s (.write data .waiting)
        { s with writer := some k, acquired := s.acquired ++ [k] } (.write data .locked)
  | writeLockTimeout {s : TcpConn κ} {data : List UInt8} :
      CallStep k s (.write data .waiting) s (.write data (.returned (.error acquireTimeout)))
  /-- 慢速路径: the token was cancelled during the wait -/
  | slowClosed {s : TcpConn κ} {data : List UInt8} : s.isClosed = true →
      CallStep k s (.write data .locked) s (.write data (.leaving (.error connectionClosed)))
  | slowOpen {s : TcpConn κ} {data : List UInt8} : s.isClosed = false →
      CallStep k s (.write data .locked) s (.write data (.sending data))
  /-- the socket takes some bytes -/
  | put {s : TcpConn κ} {data : List UInt8} (chunk rest : List UInt8) : s.broken = false →
      CallStep k s (.write data (.sending (chunk ++ rest))) { s with out := s.out ++ chunk }
        (.write data (.sending rest))
  | writeAllOk {s : TcpConn κ} {data : List UInt8} :
      CallStep k s (.write data (.sending [])) s (.write data (.leaving (.ok ())))
  | writeAllErr {s : TcpConn κ} {data : List UInt8} (rest : List UInt8) (e : IoError) :
      CallStep k s (.write data (.sending rest)) { s with broken := true }
        (.write data (.leaving (.error e)))
  | writeAllTimeout {s : TcpConn κ} {data : List UInt8} (rest : List UInt8) :
      CallStep k s (.write data (.sending rest)) s (.write data .expired)
  | writeCancel {s : TcpConn κ} {data : List UInt8} :
      CallStep k s (.write data .expired) { s with cancelToken := true }
        (.write data (.leaving (.error writeTimeout)))
  | writeUnlock {s : TcpConn κ} {data : List UInt8} (r : IoResult) :
      CallStep k s (.write data (.leaving r)) { s with writer := none } (.write data (.returned r))
  /-- the flag was set before: another call closes the connection -/
  | swapClosed {s : TcpConn κ} : s.closed = true →
      CallStep k s (.close .start) s (.close (.returned (.ok ())))
  | swapOpen {s : TcpConn κ} : s.closed = false →
      CallStep k s (.close .start) { s with closed := true } (.close .waiting)
  | closeLock {s : TcpConn κ} : s.writer = none →
      CallStep k s (.close .waiting) { s with writer := some k } (.close .locked)
  | closeLockTimeout {s : TcpConn κ} : CallStep k s (.close .waiting) s (.close .expired)
  | cancelExpired {s : TcpConn κ} :
      CallStep k s (.close .expired) { s with cancelToken := true } (.close (.returned (.ok ())))
  | cancel {s : TcpConn κ} :
      CallStep k s (.close .locked) { s with cancelToken := true } (.close .cancelled)
  | shutdown {s : TcpConn κ} :
      CallStep k s (.close .cancelled) { s with shutdowns := s.shutdowns + 1 } (.close .shutting)
  | shutdownDone {s : TcpConn κ} (r : IoResult) :
      CallStep k s (.close .shutting) s (.close (.leaving r))
  /-- 超时视为成功 -/
  | shutdownTimeout {s : TcpConn κ} :
      CallStep k s (.close .shutting) s (.close (.leaving (.ok ())))
  | closeUnlock {s : TcpConn κ} (r : IoResult) :
      CallStep k s (.close (.leaving r)) { s with writer := none } (.close (.returned r))

end TcpConn

/-- A connection and the calls on its clones, finished ones included. -/
structure SharedConn (κ : Type) where
  conn : TcpConn κ
  calls : κ → Option TcpConn.Call

namespace SharedConn

open TcpConn

variable {κ : Type}

/-- Nothing has been called. -/
def new : SharedConn κ := ⟨.new, fun _ => none⟩

/-- Call `k` has been made and `f` holds of it. -/
def on (s : SharedConn κ) (f : Call → Bool) (k : κ) : Bool := (s.calls k).elim false f

/-- The bytes call `k` is to write. -/
def dataOf (s : SharedConn κ) (k : κ) : List UInt8 := (s.calls k).elim [] Call.data

section On

variable {s : SharedConn κ} {k : κ} {conn conn' : TcpConn κ} {c c' : Call} {f : Call → Bool}

lemma on_eq (h : s.calls k = some c) : s.on f k = f c := by
  rw [on, h]
  rfl

lemma exists_of_on (h : s.on f k = true) : ∃ c, s.calls k = some c ∧ f c = true := by
  rw [on] at h
  cases hc : s.calls k with
  | none =>
      rw [hc] at h
      cases h
  | some c =>
      rw [hc] at h
      exact ⟨c, rfl, h⟩

/-- What holds of one stage for another holds of the call. -/
lemma on_mono {g : Call → Bool} (hfg : ∀ {c : Call}, f c = true → g c = true)
    (h : s.on f k = true) : s.on g k = true := by
  obtain ⟨c, hc, hf⟩ := exists_of_on h
  exact (on_eq hc).trans (hfg hf)

lemma on_of_none (h : s.calls k = none) : s.on f k = false := by
  rw [on, h]
  rfl

lemma dataOf_eq (h : s.calls k = some c) : s.dataOf k = c.data := by
  rw [dataOf, h]
  rfl

end On

variable [DecidableEq κ]

/-- Call `k` is at `c` now, and the shared fields are `conn`. -/
def set (s : SharedConn κ) (k : κ) (conn : TcpConn κ) (c : Call) : SharedConn κ :=
  ⟨conn, Function.update s.calls k (some c)⟩

/-- The steps of a connection, labelled with the call that moves, or none for the heartbeat
counter. -/
inductive Step : SharedConn κ → Option κ → SharedConn κ → Prop
  | beginWrite {s : SharedConn κ} {k : κ} (data : List UInt8) : s.calls k = none →
      Step s (some k) (s.set k s.conn (.write data .start))
  | beginClose {s : SharedConn κ} {k : κ} : s.calls k = none →
      Step s (some k) (s.set k s.conn (.close .start))
  | call {s : SharedConn κ} {k : κ} {c c' : Call} {conn : TcpConn κ} :
      s.calls k = some c → CallStep k s.conn c conn c' → Step s (some k) (s.set k conn c')
  | resetHeartbeats {s : SharedConn κ} :
      Step s none { s with conn := s.conn.resetHeartbeats }
  | incrementHeartbeats {s : SharedConn κ} :
      Step s none { s with conn := s.conn.incrementHeartbeats }

/-- The connection from `TcpConn::new` on, with any calls on its clones. -/
def lts (κ : Type) [DecidableEq κ] : Lts (SharedConn κ) (Option κ) where
  Init s := s = new
  Step := Step

section Set

variable {s : SharedConn κ} {k k' : κ} {conn conn' : TcpConn κ} {c c' : Call} {f : Call → Bool}

@[simp] lemma conn_set : (s.set k conn c).conn = conn := rfl

@[simp] lemma calls_set_self : (s.set k conn c).calls k = some c := Function.update_self ..

lemma set_set : (s.set k conn c).set k conn' c' = s.set k conn' c' := by
  rw [set, set, set, Function.update_idem]

lemma calls_set_of_ne (h : k' ≠ k) : (s.set k conn c).calls k' = s.calls k' :=
  Function.update_of_ne h ..

/-- A call after the step: the one that moved, or one that did not. -/
lemma calls_set_eq_some {d : Call} (h : (s.set k conn c).calls k' = some d) :
    (k' = k ∧ c = d) ∨ (k' ≠ k ∧ s.calls k' = some d) := by
  rcases eq_or_ne k' k with rfl | hk
  · rw [calls_set_self] at h
    exact Or.inl ⟨rfl, Option.some_injective _ h⟩
  · rw [calls_set_of_ne hk] at h
    exact Or.inr ⟨hk, h⟩

@[simp] lemma on_set_self : (s.set k conn c).on f k = f c := on_eq calls_set_self

lemma on_set_of_ne (h : k' ≠ k) : (s.set k conn c).on f k' = s.on f k' := by
  rw [on, calls_set_of_ne h, on]

/-- Where the call had `f` before as after, nothing changes for `f`. -/
lemma on_set_of_eq (h : s.on f k = f c) (k' : κ) : (s.set k conn c).on f k' = s.on f k' := by
  by_cases hk : k' = k
  · rw [hk, on_set_self, h]
  · exact on_set_of_ne hk

lemma dataOf_set (h : s.dataOf k = c.data) (k' : κ) : (s.set k conn c).dataOf k' = s.dataOf k' := by
  by_cases hk : k' = k
  · rw [hk, dataOf_eq calls_set_self, h]
  · rw [dataOf, calls_set_of_ne hk, dataOf]

end Set

end SharedConn

end Fernq
