import Mathlib.Tactic
import Fernq.Base.Probing
import Fernq.Server.Queues
import Fernq.Server.Registry

/-!
The heartbeat of a room (`Room::heartbeat` in `fernqd/src/server/room.rs`): for each connection it
is a prober whose ticks are those that find the connection registered, and whose answers are the
frames that the listener handles.

* `HeartbeatStage.phase`, `tally`: where the heartbeat is with a connection, and what it has done to
  it.
* `Snapshot`: a connection is at most once in the snapshot of a tick; `snapshot_of_reach`.
* `probing_of_step`: a step of the room is a step of the prober, or is not seen by it.
* `heartbeat_timeout_exact`: the bound of the counter, and who is closed for a timeout.
-/

namespace Fernq

namespace Room

open TcpConn

variable {C : Type} [DecidableEq C] {cfg : RoomConfig C} {s s' : Room cfg} {l : Label C} {c d : C}

/-! ### The snapshot -/

/-- What is left of the snapshot, with the connection the heartbeat is at. -/
def HeartbeatStage.snapshot : HeartbeatStage C → List C
  | .waiting | .ended => []
  | .collecting _ conns | .next conns => conns
  | .checking c conns | .pinging c conns _ | .incrementing c conns | .closing c conns _ =>
    c :: conns

/-- A connection is once in the snapshot, and from a shard that has been read. -/
structure Snapshot (s : Room cfg) : Prop where
  nodup : s.heartbeat.snapshot.Nodup
  read : ∀ i conns, s.heartbeat = .collecting i conns → ∀ d ∈ conns, cfg.shardOf (cfg.name d) < i

/-- A connection that is found in a shard has the name it is found under. -/
lemma shardOf_of_mem (hr : (lts cfg).Reach s) {i : ℕ} {shard : List C}
    (hshard : ∀ d, d ∈ shard ↔ ∃ name, cfg.shardOf name = i ∧ s.conns name = some d) (d : C) :
    d ∈ shard ↔ cfg.shardOf (cfg.name d) = i ∧ s.conns (cfg.name d) = some d := by
  rw [hshard d]
  constructor
  · rintro ⟨name, hi, hconns⟩
    obtain rfl := (mapped_of_reach hr).name name d hconns
    exact ⟨hi, hconns⟩
  · rintro ⟨hi, hconns⟩
    exact ⟨_, hi, hconns⟩

lemma Snapshot.heartbeatStep (hi : Snapshot s) (hr : (lts cfg).Reach s) (hs : HeartbeatStep s s') :
    Snapshot s' := by
  have hnodup := hi.nodup
  cases hs with
  | shard i conns shard hc _ _ hshard hmem =>
      have hread := hi.read i conns hc
      have hof := shardOf_of_mem hr hmem
      rw [hc] at hnodup
      refine ⟨hnodup.append hshard ?_, ?_⟩
      · intro d hd hd'
        have hlt := hread d hd
        have heq := ((hof d).mp hd').1
        omega
      · rintro j conns' hj d hd
        cases hj
        rcases List.mem_append.mp hd with hd | hd
        · exact (hread d hd).trans (Nat.lt_succ_self _)
        · rw [((hof d).mp hd).1]
          exact Nat.lt_succ_self _
  | tick _ => exact ⟨List.nodup_nil, by rintro j conns' hj d hd; cases hj; cases hd⟩
  | cancelled _ _ => exact ⟨List.nodup_nil, by simp⟩
  | interrupted d conns _ _ => exact ⟨List.nodup_nil, by simp⟩
  | done _ => exact ⟨List.nodup_nil, by simp⟩
  | increment d conns hc =>
      rw [hc] at hnodup
      exact ⟨hnodup.of_cons, by simp⟩
  | closed d conns n r hc _ =>
      rw [hc] at hnodup
      exact ⟨hnodup.of_cons, by simp⟩
  | collected conns hc => exact ⟨by rwa [hc] at hnodup, by simp⟩
  | next d conns hc _ => exact ⟨by rwa [hc] at hnodup, by simp⟩
  | expired d conns n hc _ _ => exact ⟨by rwa [hc] at hnodup, by simp⟩
  | ping d conns n hc _ _ => exact ⟨by rwa [hc] at hnodup, by simp⟩
  | pinged d conns n hc _ => exact ⟨by rwa [hc] at hnodup, by simp⟩
  | pingErr d conns n m e hc _ _ => exact ⟨by rwa [hc] at hnodup, by simp⟩

theorem snapshot_of_reach (h : (lts cfg).Reach s) : Snapshot s := by
  refine h.invariant ?_ ?_
  · rintro s rfl
    exact ⟨List.nodup_nil, by simp [opened]⟩
  · intro s l s' hr hi hs
    obtain heq | ⟨rfl, hstep⟩ := heartbeat_of_step hs
    · exact ⟨heq ▸ hi.nodup, heq ▸ hi.read⟩
    · exact hi.heartbeatStep hr hstep

/-! ### The prober of a connection -/

/-- Where the heartbeat is with `c` when `conns` is left of the snapshot. -/
def remaining (c : C) (conns : List C) : Probing.Phase := if c ∈ conns then .due else .resting

/-- Where the heartbeat is with `c`. -/
def HeartbeatStage.phase (c : C) : HeartbeatStage C → Probing.Phase
  | .waiting | .ended => .resting
  | .collecting _ conns => if c ∈ conns then .due else .gathering
  | .next conns | .closing _ conns _ => remaining c conns
  | .checking d conns => if d = c then .looking else remaining c conns
  | .pinging d conns _ => if d = c then .sending else remaining c conns
  | .incrementing d conns => if d = c then .counting else remaining c conns

/-- What the heartbeat has done to `c` after a step.  A tick counts once the shard of its name has
been read and it was there, a probe once the write of the ping has returned `Ok`, and an answer is a
frame that the listener has handled. -/
def tally (c : C) (s : Room cfg) (l : Label C) (s' : Room cfg) (g : Probing.Tally) :
    Probing.Tally :=
  match l with
  | .listener d => if d = c ∧ s.listener c = .resetting then g.answer else g
  | .heartbeat =>
    match s.heartbeat, s'.heartbeat with
    | .waiting, .collecting _ _ => g.tick
    | .collecting i _, .collecting _ _ =>
      if cfg.shardOf (cfg.name c) = i ∧ s.conns (cfg.name c) = some c then g.meet else g
    | .checking d _, .closing _ _ _ => if d = c then g.giveUp else g
    | .checking d _, .pinging _ _ _ => if d = c then g.send else g
    | .pinging d _ _, .incrementing _ _ => if d = c then g.sent else g
    | _, _ => g
  | _ => g

/-- A room, watched for what its heartbeat does to `c`. -/
def watched (cfg : RoomConfig C) (c : C) : Lts (Room cfg × Probing.Tally) (Label C) :=
  (lts cfg).observed (tally c) .zero

/-- The prober of `c`. -/
def prober (c : C) (s : Room cfg) (g : Probing.Tally) : Probing.State :=
  ⟨s.heartbeat.phase c, (s.link c).conn.pendingHeartbeats, g⟩

/-- Why the prober makes a move that a silent peer does not bring about. -/
def Causes (s : Room cfg) (l : Label C) (c : C) : Probing.Move → Prop
  | .answer => l = .listener c ∧ s.listener c = .resetting
  | .fail => l = .heartbeat ∧ ∃ conns n e, s.heartbeat = .pinging c conns n ∧
      s.Returned c .ping n (.error e)
  | .drop => l = .heartbeat ∧ ∃ conns, c ∈ conns ∧ s.heartbeat = .next conns ∧ s.cancelToken = true
  | _ => True

/-- The prober of `c` does not move, or makes one step. -/
def ProbingStep (s : Room cfg) (l : Label C) (c : C) (p p' : Probing.State) : Prop :=
  p' = p ∨ ∃ m, s.Causes l c m ∧ Probing.Step cfg.maxPendingHeartbeats (2 ^ 32) p m p'

lemma remaining_cons_self (conns : List C) : remaining c (c :: conns) = .due :=
  if_pos List.mem_cons_self

lemma remaining_cons_of_ne (conns : List C) (hd : d ≠ c) :
    remaining c (d :: conns) = remaining c conns := by
  simp [remaining, Ne.symm hd]

/-- The heartbeat comes to another connection, or goes on from it. -/
lemma probing_of_other {g : Probing.Tally} (hphase : s'.heartbeat.phase c = s.heartbeat.phase c)
    (hlink : (s'.link c).conn.pendingHeartbeats = (s.link c).conn.pendingHeartbeats)
    (htally : tally c s l s' g = g) :
    ProbingStep s l c (prober c s g) (prober c s' (tally c s l s' g)) := by
  refine .inl ?_
  rw [prober, prober, hphase, hlink, htally]

/-- The heartbeat reads a shard of the map, and meets `c` when it is the shard of its name and `c`
is there. -/
lemma probing_of_shard (hr : (lts cfg).Reach s) {i : ℕ} {conns shard : List C}
    (hc : s.heartbeat = .collecting i conns)
    (hof : c ∈ shard ↔ cfg.shardOf (cfg.name c) = i ∧ s.conns (cfg.name c) = some c)
    (g : Probing.Tally) :
    let s' := { s with heartbeat := .collecting (i + 1) (conns ++ shard) }
    ProbingStep s .heartbeat c (prober c s g) (prober c s' (tally c s .heartbeat s' g)) := by
  intro s'
  by_cases hfound : c ∈ shard
  · refine .inr ⟨.meet, trivial, ?_⟩
    have hnot : c ∉ conns := by
      intro hin
      have hlt := (snapshot_of_reach hr).read i conns hc c hin
      rw [(hof.mp hfound).1] at hlt
      exact lt_irrefl _ hlt
    simp only [s', prober, tally, hc, HeartbeatStage.phase, List.mem_append, hfound, or_true,
      if_true, hnot, if_false, hof.mp hfound, and_self]
    exact .meet
  · have hno : ¬ (cfg.shardOf (cfg.name c) = i ∧ s.conns (cfg.name c) = some c) := fun h =>
      hfound (hof.mpr h)
    exact probing_of_other (by simp [s', hc, HeartbeatStage.phase, hfound]) rfl
      (by simp [s', tally, hc, hno])

/-- A step of the heartbeat is a step of the prober of `c`, or goes on with another connection. -/
lemma probing_of_heartbeatStep (hr : (lts cfg).Reach s) (hs : HeartbeatStep s s')
    (g : Probing.Tally) :
    ProbingStep s .heartbeat c (prober c s g) (prober c s' (tally c s .heartbeat s' g)) := by
  have hnodup := (snapshot_of_reach hr).nodup
  cases hs with
  | cancelled hc _ =>
      exact probing_of_other (by simp [hc, HeartbeatStage.phase]) rfl (by simp [tally, hc])
  | tick hc =>
      refine .inr ⟨.tick, trivial, ?_⟩
      simp only [prober, tally, hc, HeartbeatStage.phase, List.not_mem_nil, if_false]
      exact .tick
  | shard i conns shard hc _ _ _ hmem => exact probing_of_shard hr hc (shardOf_of_mem hr hmem c) g
  | collected conns hc =>
      by_cases hin : c ∈ conns
      · exact probing_of_other (by simp [hc, HeartbeatStage.phase, remaining, hin]) rfl
          (by simp [tally, hc])
      · refine .inr ⟨.pass, trivial, ?_⟩
        simp only [prober, tally, hc, HeartbeatStage.phase, remaining, hin, if_false]
        exact .pass
  | interrupted d conns hc hcancel =>
      by_cases hin : c ∈ d :: conns
      · refine .inr ⟨.drop, ⟨rfl, d :: conns, hin, hc, hcancel⟩, ?_⟩
        simp only [prober, tally, hc, HeartbeatStage.phase, remaining, hin, if_true]
        exact .drop
      · exact probing_of_other (by simp only [hc, HeartbeatStage.phase, remaining, hin, if_false])
          rfl
          (by simp [tally, hc])
  | done hc =>
      exact probing_of_other (by simp [hc, HeartbeatStage.phase, remaining]) rfl
        (by simp [tally, hc])
  | next d conns hc _ =>
      by_cases hd : d = c
      · subst hd
        refine .inr ⟨.look, trivial, ?_⟩
        simp only [prober, tally, hc, HeartbeatStage.phase, remaining_cons_self, if_true]
        exact .look
      · refine probing_of_other ?_ rfl (by simp [tally, hc])
        simp [hc, HeartbeatStage.phase, hd, remaining_cons_of_ne]
  | expired d conns n hc hlt _ =>
      by_cases hd : d = c
      · subst hd
        rw [hc] at hnodup
        refine .inr ⟨.giveUp, trivial, ?_⟩
        simp only [prober, tally, hc, HeartbeatStage.phase, remaining,
          (List.nodup_cons.mp hnodup).1, if_true, if_false, conn_calling]
        exact .giveUp hlt
      · refine probing_of_other ?_ (by rw [conn_calling]) (by simp [tally, hc, hd])
        simp [hc, HeartbeatStage.phase, hd]
  | ping d conns n hc hle _ =>
      by_cases hd : d = c
      · subst hd
        refine .inr ⟨.send, trivial, ?_⟩
        simp only [prober, tally, hc, HeartbeatStage.phase, if_true, conn_calling]
        exact .send hle
      · refine probing_of_other ?_ (by rw [conn_calling]) (by simp [tally, hc, hd])
        simp [hc, HeartbeatStage.phase, hd]
  | pinged d conns n hc _ =>
      by_cases hd : d = c
      · subst hd
        refine .inr ⟨.sent, trivial, ?_⟩
        simp only [prober, tally, hc, HeartbeatStage.phase, if_true]
        exact .sent
      · refine probing_of_other ?_ rfl (by simp [tally, hc, hd])
        simp [hc, HeartbeatStage.phase, hd]
  | increment d conns hc =>
      by_cases hd : d = c
      · subst hd
        rw [hc] at hnodup
        refine .inr ⟨.count, trivial, ?_⟩
        simp only [prober, tally, hc, HeartbeatStage.phase, remaining,
          (List.nodup_cons.mp hnodup).1, if_true, if_false, Function.update_self,
          TcpConn.incrementHeartbeats]
        exact .count
      · refine probing_of_other ?_ (by simp [Ne.symm hd]) (by simp [tally, hc])
        simp [hc, HeartbeatStage.phase, hd]
  | pingErr d conns n m e hc hret _ =>
      by_cases hd : d = c
      · subst hd
        rw [hc] at hnodup
        refine .inr ⟨.fail, ⟨rfl, conns, n, e, hc, hret⟩, ?_⟩
        simp only [prober, tally, hc, HeartbeatStage.phase, remaining,
          (List.nodup_cons.mp hnodup).1, if_true, if_false, conn_calling]
        exact .fail
      · refine probing_of_other ?_ (by rw [conn_calling]) (by simp [tally, hc])
        simp [hc, HeartbeatStage.phase, hd]
  | closed d conns n r hc _ =>
      exact probing_of_other (by simp [hc, HeartbeatStage.phase]) rfl (by simp [tally, hc])

/-- Only the heartbeat counts, and only the listener of a connection sets its counter to zero. -/
lemma pendingHeartbeats_of_step (h : Step s l s') (hl : l ≠ .heartbeat)
    (hreset : ¬ (l = .listener c ∧ s.listener c = .resetting)) :
    (s'.link c).conn.pendingHeartbeats = (s.link c).conn.pendingHeartbeats := by
  cases h with
  | @listener _ d h =>
      cases h with
      | replace old n _ _ _ _ => rw [conn_calling]
      | remove n _ _ _ => rw [conn_calling]
      | reset hc =>
          have hd : c ≠ d := by
            rintro rfl
            exact hreset ⟨rfl, hc⟩
          simp [hd]
      | _ => rfl
  | worker h =>
      cases h with
      | found item d n _ _ _ _ => rw [conn_calling]
      | reply item d n res _ _ _ _ _ => rw [conn_calling]
      | _ => rfl
  | heartbeat h => exact absurd rfl hl
  | add h =>
      cases h with
      | rejectFirst n _ _ _ => rw [conn_calling]
      | rejectSecond n _ _ _ => rw [conn_calling]
      | _ => rfl
  | close h => cases h <;> rfl
  | @call d k conn call call' hk hs =>
      by_cases hd : c = d
      · subst hd
        simp only [Function.update_self, SharedConn.conn_set]
        cases hs <;> rfl
      · simp [hd]
  | arrival _ => rfl

/-- A step of the room is a step of the prober of `c`, or is not seen by it. -/
theorem probing_of_step (hr : (lts cfg).Reach s) (h : Step s l s') (g : Probing.Tally) :
    ProbingStep s l c (prober c s g) (prober c s' (tally c s l s' g)) := by
  by_cases hl : l = .heartbeat
  · subst hl
    cases h with
    | heartbeat h => exact probing_of_heartbeatStep hr h g
  · have hstage : s'.heartbeat = s.heartbeat :=
      (heartbeat_of_step h).resolve_right fun hb => hl hb.1
    by_cases hreset : l = .listener c ∧ s.listener c = .resetting
    · obtain ⟨rfl, hc⟩ := hreset
      have hzero : (s'.link c).conn.pendingHeartbeats = 0 := by
        cases h with
        | listener h => cases h <;> simp_all [TcpConn.resetHeartbeats]
      refine .inr ⟨.answer, ⟨rfl, hc⟩, ?_⟩
      simp only [prober, tally, hstage, hzero, hc, and_self, if_true]
      exact .answer
    · refine probing_of_other (by rw [hstage]) (pendingHeartbeats_of_step h hl hreset) ?_
      cases l with
      | listener d =>
          refine if_neg ?_
          rintro ⟨rfl, hc⟩
          exact hreset ⟨rfl, hc⟩
      | heartbeat => exact absurd rfl hl
      | _ => rfl

/-! ### The timeout -/

/-- The listener of `c` handles no frame, no ping to `c` has failed, and the room is not cancelled
while the heartbeat has `c` before it. -/
def Silent (c : C) (x : Room cfg × Probing.Tally) (l : Label C) : Prop :=
  (l = .listener c → x.1.listener c ≠ .resetting) ∧
    (l = .heartbeat → (∀ conns n e, x.1.heartbeat = .pinging c conns n →
      ¬ x.1.Returned c .ping n (.error e)) ∧
      ∀ conns, c ∈ conns → x.1.heartbeat = .next conns → x.1.cancelToken = false)

omit [DecidableEq C] in
lemma silent_of_causes {x : Room cfg × Probing.Tally} {m : Probing.Move} {p : Probing.State}
    (h : Silent c x l) (hm : x.1.Causes l c m) : Probing.Silent p m := by
  obtain ⟨hlistener, hheartbeat⟩ := h
  refine ⟨?_, ?_, ?_⟩
  · rintro rfl
    exact hlistener hm.1 hm.2
  · rintro rfl
    obtain ⟨hl, conns, n, e, hc, hret⟩ := hm
    exact (hheartbeat hl).1 conns n e hc hret
  · rintro rfl
    obtain ⟨hl, conns, hin, hc, hcancel⟩ := hm
    simp [(hheartbeat hl).2 conns hin hc] at hcancel

/-- The heartbeat is a prober of each connection. -/
lemma prober_of_reach {x : Room cfg × Probing.Tally} (h : (watched cfg c).Reach x) :
    (Probing.lts cfg.maxPendingHeartbeats (2 ^ 32)).Reach (prober c x.1 x.2) := by
  refine h.project (fun x => prober c x.1 x.2) ?_ ?_
  · rintro ⟨s, g⟩ ⟨rfl, rfl⟩
    rfl
  · rintro ⟨s, g⟩ l ⟨s', g'⟩ hr - ⟨hs, hg⟩
    obtain rfl : g' = tally c s l s' g := hg
    obtain heq | ⟨m, -, hm⟩ := probing_of_step (c := c) hr.unobserved hs g
    · exact .inl heq
    · exact .inr ⟨m, hm⟩

lemma prober_of_silent {x : Room cfg × Probing.Tally} (h : (watched cfg c).ReachBy (Silent c) x) :
    (Probing.lts cfg.maxPendingHeartbeats (2 ^ 32)).ReachBy Probing.Silent (prober c x.1 x.2) := by
  refine h.projectBy (fun x => prober c x.1 x.2) ?_ ?_
  · rintro ⟨s, g⟩ ⟨rfl, rfl⟩
    rfl
  · rintro ⟨s, g⟩ l ⟨s', g'⟩ hr hok ⟨hs, hg⟩
    obtain rfl : g' = tally c s l s' g := hg
    obtain heq | ⟨m, hcause, hm⟩ := probing_of_step (c := c) hr.unobserved hs g
    · exact .inl heq
    · exact .inr ⟨m, silent_of_causes hok hcause, hm⟩

/-- A connection is given up by the heartbeat, when it has looked at its counter. -/
lemma givenUp_tally (g : Probing.Tally) : (tally c s l s' g).givenUp = g.givenUp ∨
    l = .heartbeat ∧ (∃ conns, s.heartbeat = .checking c conns) ∧
      ∃ d conns n, s'.heartbeat = .closing d conns n := by
  unfold tally
  split
  · split_ifs <;> exact .inl rfl
  · split
    · exact .inl rfl
    · split_ifs <;> exact .inl rfl
    · rename_i hc hc'
      split_ifs with hd
      · subst hd
        exact .inr ⟨rfl, ⟨_, hc⟩, _, _, _, hc'⟩
      · exact .inl rfl
    · split_ifs <;> exact .inl rfl
    · split_ifs <;> exact .inl rfl
    · exact .inl rfl
  · exact .inl rfl

/-- A call stays. -/
lemma exists_call_of_step {k : CallId C} {call : Call} (h : Step s l s')
    (hcall : (s.link d).calls k = some call) : ∃ call', (s'.link d).calls k = some call' := by
  cases callChange_of_step h d k with
  | same heq => exact ⟨call, heq ▸ hcall⟩
  | begun call' hnone _ _ _ _ => simp [hcall] at hnone
  | moved before call' conn _ _ _ heq => exact ⟨call', by rw [heq, SharedConn.calls_set_self]⟩

/-- A connection that was given up has been closed, or is being closed, by the heartbeat. -/
lemma exists_call_of_givenUp {x : Room cfg × Probing.Tally} (h : (watched cfg c).Reach x)
    (hup : 0 < x.2.givenUp) : ∃ n call, (x.1.link c).calls ⟨.timeout, n⟩ = some call := by
  revert hup
  refine h.invariant (I := fun x => 0 < x.2.givenUp →
    ∃ n call, (x.1.link c).calls ⟨.timeout, n⟩ = some call) ?_ ?_
  · rintro ⟨s, g⟩ ⟨-, rfl⟩ hup
    exact absurd hup (lt_irrefl _)
  · rintro ⟨s, g⟩ l ⟨s', g'⟩ - hi ⟨hs, hg⟩ hup
    obtain rfl : g' = tally c s l s' g := hg
    have htally : (tally c s l s' g).givenUp = g.givenUp ∨ _ := givenUp_tally g
    obtain heq | ⟨rfl, ⟨conns, hc⟩, d, conns', n, hc'⟩ := htally
    · obtain ⟨n, call, hcall⟩ := hi (heq ▸ hup)
      exact ⟨n, exists_call_of_step hs hcall⟩
    · cases hs with
      | heartbeat hs =>
          cases hs with
          | expired d' conns' n' hd' _ _ =>
              rw [hc] at hd'
              cases hd'
              exact ⟨n', .close .start, by simp only [calling_self, SharedConn.calls_set_self]⟩
          | _ => simp_all

/-- A connection that was given up is closed when the heartbeat waits for the next tick. -/
lemma closed_of_givenUp {x : Room cfg × Probing.Tally} (h : (watched cfg c).Reach x)
    (hup : 0 < x.2.givenUp) (hwaits : x.1.heartbeat = .waiting) :
    (x.1.link c).conn.closed = true := by
  have hr := h.unobserved
  obtain ⟨n, call, hcall⟩ := exists_call_of_givenUp h hup
  have hret : ∃ r, x.1.Returned c .timeout n r := by
    by_contra hnot
    obtain ⟨conns, hclosing⟩ := (called_of_reach hr).waits c _ call hcall (not_exists.mp hnot)
    rw [hwaits] at hclosing
    cases hclosing
  obtain ⟨stage, rfl⟩ := (called_of_reach hr).makes c _ call hcall
  obtain ⟨r, hret | ⟨data, hret⟩⟩ := hret
  · exact (SharedConn.closing_of_reach (link_of_reach hr c)).flag _ (SharedConn.on_eq hret)
  · rw [hcall] at hret
    cases hret

/-- **The heartbeat timeout is exact.**  The counter of a connection is at most one above the limit.
If a frame of the connection has been handled since the last ping to it was begun whenever a tick
comes, it is never closed for a timeout.  If no frame of it is ever handled and its pings succeed,
then after `k` ticks that have found it registered it has got `k` pings, up to one more than the
limit, and has been closed for a timeout at each later tick; and it is closed when the heartbeat
waits again. -/
theorem heartbeat_timeout_exact (cfg : RoomConfig C) (c : C) (hmin : 1 ≤ cfg.maxPendingHeartbeats)
    (hmax : cfg.maxPendingHeartbeats + 1 < 2 ^ 32) :
    (∀ s, (lts cfg).Reach s →
      (s.link c).conn.pendingHeartbeats ≤ cfg.maxPendingHeartbeats + 1 ∧
        ∃ g, (watched cfg c).Reach (s, g)) ∧
    (∀ x, (watched cfg c).Reach x → x.2.late = false → x.2.givenUp = 0) ∧
    (∀ x, (watched cfg c).ReachBy (Silent c) x →
      ∃ k, x.2.ticks = k + (x.1.heartbeat.phase c).isDue.toNat ∧
        x.2.probes = min k (cfg.maxPendingHeartbeats + 1) ∧
        x.2.givenUp = k - (cfg.maxPendingHeartbeats + 1)) ∧
    ∀ x, (watched cfg c).Reach x → 0 < x.2.givenUp → x.1.heartbeat = .waiting →
      (x.1.link c).conn.closed = true := by
  refine ⟨?_, ?_, ?_, fun x hx hup hwaits => closed_of_givenUp hx hup hwaits⟩
  · intro s hs
    obtain ⟨g, hg⟩ : ∃ g, (watched cfg c).Reach (s, g) := Lts.ReachBy.observed hs
    exact ⟨Probing.unanswered_le (prober_of_reach hg), g, hg⟩
  · intro x hx hlate
    exact Probing.givenUp_eq_zero hmin (prober_of_reach hx) hlate
  · intro x hx
    exact Probing.probes_of_silent hmax (prober_of_silent hx)

section Rounds

/-- Connection 0 of `pair` is alone in the room and waits for a frame, the heartbeat waits for a
tick, `n` pings are not answered, and the next ping is call `m`. -/
structure Beating (n m : ℕ) (s : Room pair) : Prop where
  heartbeat : s.heartbeat = .waiting
  running : s.cancelToken = false
  listener : s.listener = Function.update (fun _ => .absent) 0 .header
  conns : s.conns = Function.update (fun _ => none) "a" (some 0)
  unread : s.unread 0 = []
  pending : (s.link 0).conn.pendingHeartbeats = n
  unclosed : (s.link 0).conn.cancelToken = false
  free : (s.link 0).conn.writer = none
  unbroken : (s.link 0).conn.broken = false
  pings : ∀ i, m ≤ i → s.Fresh 0 .ping i
  timeouts : ∀ i, s.Fresh 0 .timeout i

variable {Q : Room pair × Probing.Tally → Label ℕ → Prop} {n m : ℕ} {s s' : Room pair}
  {l : Label ℕ} {g r : Probing.Tally}

/-- A silent step of a run that is watched. -/
lemma watched_step (hQ : ∀ x l, Silent 0 x l → Q x l) (h : (watched pair 0).ReachBy Q (s, g))
    (hs : Step s l s') (hl : Silent 0 (s, g) l) (hg : tally 0 s l s' g = r) :
    (watched pair 0).ReachBy Q (s', r) :=
  h.step (hQ _ _ hl) ⟨hs, hg.symm⟩

lemma watched_inCall {k : CallId ℕ} {conn conn' : TcpConn (CallId ℕ)} {call call' : Call}
    {acquired : List (ℕ × CallId ℕ)} (hQ : ∀ x l, Silent 0 x l → Q x l)
    (h : (watched pair 0).ReachBy Q (s.inCall 0 k conn call acquired, g))
    (hs : CallStep k conn call conn' call') :
    (watched pair 0).ReachBy Q (s.inCall 0 k conn' call'
      (acquired ++ (conn'.acquired.drop conn.acquired.length).map (Prod.mk 0)), g) :=
  watched_step hQ h (step_inCall hs) ⟨by simp, by simp⟩ rfl

lemma Beating.entryless (hb : Beating n m s) : Entryless s.listener := by
  rw [hb.listener]
  exact entryless_absent.update 0 .header (by simp)

lemma Beating.mem_shard (hb : Beating n m s) (i d : ℕ) :
    d ∈ (if 0 = i then [0] else []) ↔ ∃ name, pair.shardOf name = i ∧ s.conns name = some d := by
  refine mem_shard_of_alone (s := s) (c := 0) (fun name d => ?_) i d
  rw [hb.conns]
  by_cases ha : name = "a"
  · simp [ha, pair, eq_comm]
  · simp [ha, pair]

/-- A tick finds connection 0. -/
lemma Beating.checking (hQ : ∀ x l, Silent 0 x l → Q x l) (hb : Beating n m s)
    (h : (watched pair 0).ReachBy Q (s, g)) :
    (watched pair 0).ReachBy Q ({ s with heartbeat := .checking 0 [] }, g.tick.meet) := by
  have hfree (i : ℕ) := hb.entryless.shardFree i
  have hfound : s.conns "a" = some 0 := by simp [hb.conns]
  have h := watched_step (r := g.tick) hQ h (.heartbeat (.tick hb.heartbeat))
    ⟨by simp, fun _ => by simp [hb.heartbeat]⟩ (by simp [tally, hb.heartbeat])
  have h := watched_step (r := g.tick.meet) hQ h (.heartbeat (.shard 0 [] [0] rfl (by decide)
    (hfree 0) (by simp) (hb.mem_shard 0))) ⟨by simp, fun _ => by simp⟩
    (by simp [tally, pair, hfound])
  have h := watched_step (r := g.tick.meet) hQ h (.heartbeat (.shard 1 [0] [] rfl (by decide)
    (hfree 1) (by simp) (hb.mem_shard 1))) ⟨by simp, fun _ => by simp⟩ (by simp [tally, pair])
  have h := watched_step (r := g.tick.meet) hQ h (.heartbeat (.shard 2 [0] [] rfl (by decide)
    (hfree 2) (by simp) (hb.mem_shard 2))) ⟨by simp, fun _ => by simp⟩ (by simp [tally, pair])
  have h := watched_step (r := g.tick.meet) hQ h (.heartbeat (.shard 3 [0] [] rfl (by decide)
    (hfree 3) (by simp) (hb.mem_shard 3))) ⟨by simp, fun _ => by simp⟩ (by simp [tally, pair])
  have h := watched_step (r := g.tick.meet) hQ h (.heartbeat (.collected [0] rfl))
    ⟨by simp, fun _ => by simp⟩ (by simp [tally])
  exact watched_step hQ h (.heartbeat (.next 0 [] rfl hb.running))
    ⟨by simp, fun _ => by simp [hb.running]⟩ (by simp [tally])

/-- A round in which connection 0 gets a ping. -/
lemma Beating.round (hQ : ∀ x l, Silent 0 x l → Q x l) (hb : Beating n m s)
    (h : (watched pair 0).ReachBy Q (s, g)) (hn : n ≤ 5) :
    ∃ s', (watched pair 0).ReachBy Q (s', g.tick.meet.send.sent) ∧ Beating (n + 1) (m + 1) s' := by
  have h := hb.checking hQ h
  have h := watched_step (r := g.tick.meet.send) hQ h
    (.heartbeat (.ping 0 [] m rfl (hb.pending.trans_le hn) (hb.pings m le_rfl)))
    ⟨by simp, fun _ => by simp⟩ (by simp [tally])
  have h : (watched pair 0).ReachBy Q (inCall { s with heartbeat := .pinging 0 [] m } 0 ⟨.ping, m⟩
    (s.link 0).conn (.write pingFrame .start) s.log.acquired, g.tick.meet.send) := h
  -- the ping is written
  have hput : CallStep (⟨.ping, m⟩ : CallId ℕ) { (s.link 0).conn with
      writer := some ⟨.ping, m⟩, acquired := (s.link 0).conn.acquired ++ [⟨.ping, m⟩] }
      (.write pingFrame (.sending (pingFrame ++ []))) _ (.write pingFrame (.sending [])) :=
    .put pingFrame [] hb.unbroken
  have h := watched_inCall hQ h (.fastOpen hb.unclosed)
  have h := watched_inCall hQ h (.writeLock hb.free)
  have h := watched_inCall hQ h (.slowOpen hb.unclosed)
  have h := watched_inCall hQ h hput
  have h := watched_inCall hQ h .writeAllOk
  have h := watched_inCall hQ h (.writeUnlock (.ok ()))
  -- and counted
  have h := watched_step (r := g.tick.meet.send.sent) hQ h (.heartbeat (.pinged 0 [] m rfl
    (.inr ⟨pingFrame, by rw [link_inCall, SharedConn.calls_set_self]⟩))) ⟨by simp, fun _ => ?_⟩
    (by simp [tally, inCall])
  · have h := watched_step (r := g.tick.meet.send.sent) hQ h (.heartbeat (.increment 0 [] rfl))
      ⟨by simp, fun _ => by simp⟩ (by simp [tally])
    have h := watched_step (r := g.tick.meet.send.sent) hQ h (.heartbeat (.done rfl))
      ⟨by simp, fun _ => ⟨by simp, by rintro conns hin ⟨⟩; cases hin⟩⟩ (by simp [tally])
    refine ⟨_, h, ?_⟩
    refine ⟨rfl, hb.running, hb.listener, hb.conns, hb.unread, ?_, ?_, ?_, ?_, ?_, ?_⟩
    · simp [inCall, TcpConn.incrementHeartbeats, hb.pending]
      omega
    · simp [inCall, TcpConn.incrementHeartbeats, hb.unclosed]
    · simp [inCall, TcpConn.incrementHeartbeats]
    · simp [inCall, TcpConn.incrementHeartbeats, hb.unbroken]
    · intro i hi
      exact (SharedConn.calls_set_of_ne (by simp; omega)).trans (hb.pings i (by omega))
    · exact fun i => (SharedConn.calls_set_of_ne (by simp)).trans (hb.timeouts i)
  · refine ⟨?_, by simp [inCall]⟩
    rintro conns i e hi hret
    obtain ⟨rfl, rfl⟩ : conns = [] ∧ m = i := by simpa [inCall] using hi
    simp [Returned, link_inCall] at hret

/-- Connection 0 registers. -/
lemma exists_beating (hQ : ∀ x l, Silent 0 x l → Q x l) :
    ∃ s, (watched pair 0).ReachBy Q (s, .zero) ∧ Beating 0 0 s := by
  have h : (watched pair 0).ReachBy Q (opened pair, .zero) := .init ⟨rfl, rfl⟩
  have h := watched_step hQ h (.add (c := 0) (.call rfl)) ⟨by simp, by simp⟩ rfl
  have h := watched_step hQ h (.add (c := 0) (.passFirst rfl rfl)) ⟨by simp, by simp⟩ rfl
  have h := watched_step hQ h (.add (c := 0) (.lock rfl rfl)) ⟨by simp, by simp⟩ rfl
  have h := watched_step hQ h (.add (c := 0) (.passSecond rfl rfl)) ⟨by simp, by simp⟩ rfl
  have h := watched_step hQ h (.add (c := 0) (.spawn rfl)) ⟨by simp, by simp⟩ rfl
  have h := watched_step hQ h (.listener (c := 0) (.start rfl rfl)) ⟨by simp, by simp⟩ rfl
  simp only [Function.update_idem] at h
  have hfree := entryless_absent.update 0 (.registering : ListenerStage ℕ) (by simp)
  have h := watched_step hQ h (.listener (c := 0) (.insert rfl (hfree.shardFree 0) rfl))
    ⟨by simp, by simp⟩ rfl
  simp only [Function.update_idem] at h
  exact ⟨_, h, rfl, rfl, rfl, rfl, rfl, rfl, rfl, rfl, rfl, fun _ _ => rfl, fun _ => rfl⟩

/-- After `k` ticks without an answer. -/
lemma exists_rounds (hQ : ∀ x l, Silent 0 x l → Q x l) {k : ℕ} (hk : k ≤ 6) :
    ∃ s g, (watched pair 0).ReachBy Q (s, g) ∧ Beating k k s ∧ g.ticks = k := by
  induction k with
  | zero =>
      obtain ⟨s, h, hb⟩ := exists_beating hQ
      exact ⟨s, _, h, hb, rfl⟩
  | succ k ih =>
      obtain ⟨s, g, h, hb, hg⟩ := ih (by omega)
      obtain ⟨s', h', hb'⟩ := hb.round hQ h (by omega)
      exact ⟨s', _, h', hb', congrArg (· + 1) hg⟩

/-- The next tick gives connection 0 up. -/
lemma Beating.expired (hQ : ∀ x l, Silent 0 x l → Q x l) (hb : Beating 6 m s)
    (h : (watched pair 0).ReachBy Q (s, g)) :
    ∃ s' i, (watched pair 0).ReachBy Q (s', g.tick.meet.giveUp) ∧
      s'.heartbeat = .closing 0 [] i := by
  have hlt : pair.maxPendingHeartbeats < (s.link 0).conn.pendingHeartbeats := by
    rw [hb.pending]
    decide
  exact ⟨_, 0, watched_step hQ (hb.checking hQ h)
    (.heartbeat (.expired 0 [] 0 rfl hlt (hb.timeouts 0))) ⟨by simp, fun _ => by simp⟩
    (by simp [tally]), rfl⟩

lemma watched_reset (h : (watched pair 0).Reach (s, g)) (hc : s.listener 0 = .resetting) :
    (watched pair 0).Reach
      ({ s with
          listener := Function.update s.listener 0 .header
          link := Function.update s.link 0
            { s.link 0 with conn := (s.link 0).conn.resetHeartbeats } }, g.answer) :=
  Lts.Reach.step h ⟨.listener (.reset hc), (if_pos ⟨rfl, hc⟩).symm⟩

/-- A pong of connection 0 is handled. -/
lemma Beating.answered (hb : Beating n m s) (h : (watched pair 0).Reach (s, g)) :
    ∃ s', (watched pair 0).Reach (s', g.answer) ∧ Beating 0 m s' := by
  have hQ (x : Room pair × Probing.Tally) (l : Label ℕ) (_ : Silent 0 x l) : True := trivial
  have hhead : (afterHeader (pongFrame.take 11) : ListenerStage ℕ) =
      .payload (pongFrame.take 11) .pong (.new true true true) 2 := by decide +kernel
  have hbody : (afterPayload pair.workerNumber .pong (.new true true true) (pongFrame.take 11)
      (pongFrame.drop 11) : ListenerStage ℕ) = .resetting := by decide +kernel
  have hlistener : s.listener 0 = .header := by simp [hb.listener]
  have hunread : Function.update s.unread 0 (s.unread 0 ++ pongFrame) 0 =
      pongFrame.take 11 ++ pongFrame.drop 11 := by simp [hb.unread]
  have h := watched_step hQ h (.arrival (c := 0) pongFrame) ⟨by simp, by simp⟩ rfl
  have h := watched_step (r := g) hQ h (.listener (c := 0) (.readHeader _ _ hlistener hunread rfl))
    ⟨by simp [hlistener], by simp⟩ (by simp [tally, hlistener])
  rw [hhead] at h
  have h := watched_step (r := g) hQ h (.listener (c := 0) (.readPayload (pongFrame.take 11) .pong
    (.new true true true) 2 (pongFrame.drop 11) [] (by simp) (by simp) (by decide +kernel)))
    ⟨by simp, by simp⟩ (by simp [tally])
  rw [hbody] at h
  have h := watched_reset h (by simp)
  refine ⟨_, h, hb.heartbeat, hb.running, ?_, hb.conns, ?_, ?_, ?_, ?_, ?_, ?_, ?_⟩
  · simp [hb.listener]
  · simp
  · simp [TcpConn.resetHeartbeats]
  · simp [TcpConn.resetHeartbeats, hb.unclosed]
  · simp [TcpConn.resetHeartbeats, hb.free]
  · simp [TcpConn.resetHeartbeats, hb.unbroken]
  · exact hb.pings
  · exact hb.timeouts

end Rounds

/-- Connection 0 gets six pings and is given up at the seventh tick; in another run it answers the
first of two pings. -/
theorem heartbeat_timeout_exact_pair :
    (∃ x, (watched pair 0).ReachBy (Silent 0) x ∧ x.2.ticks = 7 ∧ x.2.probes = 6 ∧
      x.2.givenUp = 1) ∧
    ∃ x, (watched pair 0).Reach x ∧ x.2.ticks = 2 ∧ x.1.heartbeat = .waiting ∧
      (x.1.link 0).conn.pendingHeartbeats = 1 ∧ x.2.late = false ∧ x.2.givenUp = 0 := by
  obtain ⟨-, hanswered, hsilent, -⟩ :=
    heartbeat_timeout_exact pair 0 (by decide) (by decide)
  refine ⟨?_, ?_⟩
  · have hQ (x : Room pair × Probing.Tally) (l : Label ℕ) (hl : Silent 0 x l) : Silent 0 x l := hl
    obtain ⟨s, g, h, hb, hg⟩ := exists_rounds hQ le_rfl
    obtain ⟨s', i, h, hclosing⟩ := hb.expired hQ h
    obtain ⟨k, hticks, hprobes, hup⟩ := hsilent _ h
    have hphase : s'.heartbeat.phase 0 = .resting := by
      rw [hclosing]
      rfl
    have hseven : g.tick.meet.giveUp.ticks = 7 := congrArg (· + 1) hg
    simp only [hphase, Probing.Phase.isDue, Bool.toNat_false, Nat.add_zero, hseven] at hticks
    subst hticks
    exact ⟨_, h, hseven, hprobes, hup⟩
  · have hQ (x : Room pair × Probing.Tally) (l : Label ℕ) (_ : Silent 0 x l) : True := trivial
    obtain ⟨s, h, hb⟩ := exists_beating hQ
    obtain ⟨s, h, hb⟩ := hb.round hQ h (by omega)
    obtain ⟨s, h, hb⟩ := hb.answered h
    obtain ⟨s, h, hb⟩ := hb.round hQ h (by omega)
    exact ⟨_, h, rfl, hb.heartbeat, hb.pending, rfl, hanswered _ h rfl⟩

end Room

end Fernq
