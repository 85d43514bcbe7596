import Mathlib.Tactic
import Fernq.Base.Transition

/-!
A prober and one of its peers.  At every tick the prober meets the peers of the round; it gives a
peer up when more than `limit` probes are not answered, and else sends it a probe, which it counts
after it is sent.  An answer sets the count to zero at any time, also between a probe and its
counting.

* `Probing.lts`: the steps of the prober, and of the answers.
* `unanswered_le`: the count is at most `limit + 1`.
* `givenUp_eq_zero`: a peer that has answered every probe before the next tick was not given up.
* `probes_of_silent`: a peer that never answers gets `limit + 1` probes, and is given up at the next
  tick.
-/

namespace Fernq

namespace Probing

/-- Where the prober is with the peer. -/
inductive Phase
  /-- it is done with the peer, or waits for a tick -/
  | resting
  /-- it gathers the peers of a round, and has not met this one -/
  | gathering
  /-- it has met the peer in this round -/
  | due
  /-- before its look at the count -/
  | looking
  /-- in the probe -/
  | sending
  /-- the probe is sent and not counted -/
  | counting
  deriving DecidableEq

/-- The prober has met the peer, and has neither sent it a probe nor given it up. -/
def Phase.isDue : Phase → Bool
  | .due | .looking | .sending => true
  | .resting | .gathering | .counting => false

/-- What the prober has done: the ticks at which it met the peer, the probes it has sent it, how
often it has given it up; whether there has been an answer since the last probe was begun, and
whether a tick has come before such an answer. -/
structure Tally where
  ticks : ℕ
  probes : ℕ
  givenUp : ℕ
  answered : Bool
  late : Bool

namespace Tally

/-- Nothing has been done, and nothing is to be answered. -/
def zero : Tally := ⟨0, 0, 0, true, false⟩

def tick (g : Tally) : Tally := { g with late := g.late || !g.answered }

def meet (g : Tally) : Tally := { g with ticks := g.ticks + 1 }

def giveUp (g : Tally) : Tally := { g with givenUp := g.givenUp + 1 }

def send (g : Tally) : Tally := { g with answered := false }

def sent (g : Tally) : Tally := { g with probes := g.probes + 1 }

def answer (g : Tally) : Tally := { g with answered := true }

end Tally

structure State where
  phase : Phase
  unanswered : ℕ
  tally : Tally

inductive Move
  | tick | meet | pass | look | drop | giveUp | send | sent | fail | count | answer
  deriving DecidableEq

/-- The steps, with a limit for the count, and the size of its type. -/
inductive Step (limit size : ℕ) : State → Move → State → Prop
  | tick {u : ℕ} {g : Tally} : Step limit size ⟨.resting, u, g⟩ .tick ⟨.gathering, u, g.tick⟩
  | meet {u : ℕ} {g : Tally} : Step limit size ⟨.gathering, u, g⟩ .meet ⟨.due, u, g.meet⟩
  | pass {u : ℕ} {g : Tally} : Step limit size ⟨.gathering, u, g⟩ .pass ⟨.resting, u, g⟩
  | look {u : ℕ} {g : Tally} : Step limit size ⟨.due, u, g⟩ .look ⟨.looking, u, g⟩
  | drop {u : ℕ} {g : Tally} : Step limit size ⟨.due, u, g⟩ .drop ⟨.resting, u, g⟩
  | giveUp {u : ℕ} {g : Tally} : limit < u →
      Step limit size ⟨.looking, u, g⟩ .giveUp ⟨.resting, u, g.giveUp⟩
  | send {u : ℕ} {g : Tally} : u ≤ limit →
      Step limit size ⟨.looking, u, g⟩ .send ⟨.sending, u, g.send⟩
  | sent {u : ℕ} {g : Tally} : Step limit size ⟨.sending, u, g⟩ .sent ⟨.counting, u, g.sent⟩
  | fail {u : ℕ} {g : Tally} : Step limit size ⟨.sending, u, g⟩ .fail ⟨.resting, u, g⟩
  | count {u : ℕ} {g : Tally} : Step limit size ⟨.counting, u, g⟩ .count
      ⟨.resting, (u + 1) % size, g⟩
  | answer {p : Phase} {u : ℕ} {g : Tally} : Step limit size ⟨p, u, g⟩ .answer ⟨p, 0, g.answer⟩

/-- A peer that has not been met yet. -/
def lts (limit size : ℕ) : Lts State Move where
  Init s := s = ⟨.resting, 0, .zero⟩
  Step := Step limit size

variable {limit size : ℕ} {s s' : State} {m : Move}

/-! ### The bound -/

/-- The count is within the limit while a probe is sent and not counted. -/
structure Bounded (limit : ℕ) (s : State) : Prop where
  le : s.unanswered ≤ limit + 1
  probing : s.phase = .sending ∨ s.phase = .counting → s.unanswered ≤ limit

lemma Bounded.step (h : Bounded limit s) (hs : Step limit size s m s') : Bounded limit s' := by
  cases hs with
  | send hle => exact ⟨h.le, fun _ => hle⟩
  | sent => exact ⟨h.le, fun _ => h.probing (.inl rfl)⟩
  | @count u g =>
      have hle : u ≤ limit := h.probing (.inr rfl)
      have hmod : (u + 1) % size ≤ u + 1 := Nat.mod_le ..
      exact ⟨hmod.trans (by omega), by simp⟩
  | answer => exact ⟨Nat.zero_le _, fun _ => Nat.zero_le _⟩
  | _ => exact ⟨h.le, by simp⟩

/-- The count is never more than one above the limit. -/
theorem unanswered_le (h : (lts limit size).Reach s) : s.unanswered ≤ limit + 1 := by
  refine (h.invariant (I := Bounded limit) ?_ fun s m s' _ hi hs => hi.step hs).le
  rintro s rfl
  exact ⟨Nat.zero_le _, by simp⟩

/-! ### A peer that answers -/

/-- After an answer at most the probe before it is counted, and there has been an answer in every
round in which the prober is to look at the count. -/
structure Answered (s : State) : Prop where
  le : s.tally.answered = true → s.unanswered ≤ 1
  zero : s.tally.answered = true → s.phase = .sending ∨ s.phase = .counting → s.unanswered = 0
  round : s.phase = .gathering ∨ s.phase = .due ∨ s.phase = .looking → s.tally.answered = true
  kept : s.tally.givenUp = 0

lemma Answered.step (hlimit : 1 ≤ limit) (h : Answered s) (hs : Step limit size s m s')
    (hlate : s'.tally.late = false) : Answered s' := by
  cases hs with
  | tick =>
      simp only [Tally.tick, Bool.or_eq_false_iff, Bool.not_eq_false'] at hlate
      exact ⟨h.le, by simp, fun _ => hlate.2, h.kept⟩
  | meet => exact ⟨h.le, by simp, fun _ => h.round (.inl rfl), h.kept⟩
  | look => exact ⟨h.le, by simp, fun _ => h.round (.inr (.inl rfl)), h.kept⟩
  | giveUp hlt =>
      have hle := h.le (h.round (.inr (.inr rfl)))
      dsimp only at hle
      omega
  | send _ => exact ⟨by simp [Tally.send], by simp [Tally.send], by simp, h.kept⟩
  | sent => exact ⟨h.le, fun hanswered _ => h.zero hanswered (.inl rfl), by simp, h.kept⟩
  | @count u g =>
      refine ⟨?_, by simp, by simp, h.kept⟩
      intro hanswered
      have hzero : u = 0 := h.zero hanswered (.inr rfl)
      subst hzero
      exact Nat.mod_le ..
  | answer => exact ⟨fun _ => Nat.zero_le _, fun _ _ => rfl, fun _ => rfl, h.kept⟩
  | _ => exact ⟨h.le, by simp, by simp, h.kept⟩

lemma late_of_step (hs : Step limit size s m s') (hlate : s.tally.late = true) :
    s'.tally.late = true := by
  cases hs with
  | tick =>
      rw [Tally.tick]
      simpa using .inl hlate
  | _ => exact hlate

/-- As long as every probe has been answered before the next tick, the peer has not been given
up. -/
theorem givenUp_eq_zero (hlimit : 1 ≤ limit) (h : (lts limit size).Reach s)
    (hlate : s.tally.late = false) : s.tally.givenUp = 0 := by
  have hanswered : s.tally.late = false → Answered s := by
    refine h.invariant (I := fun s => s.tally.late = false → Answered s) ?_ ?_
    · rintro s rfl -
      exact ⟨by simp, by simp, by simp, rfl⟩
    · intro s m s' _ hi hs hlate
      have hbefore : s.tally.late = false := by
        by_contra hnot
        simp [late_of_step hs (by simpa using hnot)] at hlate
      exact (hi hbefore).step hlimit hs hlate
  exact (hanswered hlate).kept

/-! ### A silent peer -/

/-- No answer comes, no probe fails, and every peer of a round is looked at. -/
def Silent (_ : State) (m : Move) : Prop := m ≠ .answer ∧ m ≠ .fail ∧ m ≠ .drop

/-- Every probe is counted, and every tick at which the prober met the peer is a probe or a giving
up. -/
structure Counted (limit : ℕ) (s : State) : Prop where
  ticks : s.tally.ticks = s.tally.probes + s.tally.givenUp + s.phase.isDue.toNat
  probes : s.tally.probes = s.unanswered + (decide (s.phase = .counting)).toNat
  le : s.tally.probes ≤ limit + 1
  room : s.phase = .sending → s.tally.probes ≤ limit
  full : 0 < s.tally.givenUp → s.tally.probes = limit + 1

lemma Counted.step (hsize : limit + 1 < size) (h : Counted limit s) (hok : Silent s m)
    (hs : Step limit size s m s') : Counted limit s' := by
  obtain ⟨hticks, hprobes, hle, hroom, hfull⟩ := h
  cases hs with
  | answer => exact absurd rfl hok.1
  | fail => exact absurd rfl hok.2.1
  | drop => exact absurd rfl hok.2.2
  | @count u g =>
      have hcount : g.probes = u + 1 := by simpa using hprobes
      have hmod : (u + 1) % size = u + 1 := Nat.mod_eq_of_lt (by simp only at hle; omega)
      refine ⟨hticks, ?_, hle, by simp, hfull⟩
      simpa [hmod] using hcount
  | _ =>
      refine ⟨?_, ?_, ?_, ?_, ?_⟩ <;>
        simp_all [Phase.isDue, Tally.tick, Tally.meet, Tally.giveUp, Tally.send, Tally.sent] <;>
          omega

/-- A peer that never answers: after `k` of its ticks it has got `k` probes, up to `limit + 1`, and
has been given up at every later tick. -/
theorem probes_of_silent (hsize : limit + 1 < size) (h : (lts limit size).ReachBy Silent s) :
    ∃ k, s.tally.ticks = k + s.phase.isDue.toNat ∧ s.tally.probes = min k (limit + 1) ∧
      s.tally.givenUp = k - (limit + 1) := by
  have hcounted : Counted limit s := by
    refine h.invariant ?_ fun s m s' _ hi hok hs => hi.step hsize hok hs
    rintro s rfl
    exact ⟨rfl, rfl, Nat.zero_le _, by simp, by simp [Tally.zero]⟩
  obtain ⟨hticks, -, hle, -, hfull⟩ := hcounted
  refine ⟨s.tally.probes + s.tally.givenUp, hticks, ?_, ?_⟩ <;>
    rcases Nat.eq_zero_or_pos s.tally.givenUp with hzero | hpos
  · omega
  · have hprobes := hfull hpos
    omega
  · omega
  · have hprobes := hfull hpos
    omega

end Probing

end Fernq
