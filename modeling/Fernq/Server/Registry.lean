import Mathlib.Tactic
import Fernq.Server.Closing
import Fernq.Server.Runs
import Fernq.Server.Tasks

/-!
The connection map of a room: who is registered, who is displaced, and what a listener leaves
behind.

* `ListenerStage.registered`: the stages between the insertion of a listener and its cleanup.
* `Mapped`: whose entries the map has; `mapped_of_reach`.
* `newest_connection_wins`: the newest connection has the name, and displaced ones are closed.
* `ended_listener_is_gone`: what holds of a connection once its listener has ended.
-/

namespace Fernq

namespace Room

open TcpConn

variable {C : Type} [DecidableEq C] {cfg : RoomConfig C} {s s' : Room cfg} {l : Label C} {c : C}

/-- The listener has inserted its connection and has not reached its cleanup. -/
def ListenerStage.registered : ListenerStage C → Bool
  | .replacing _ _ | .header | .payload _ _ _ _ | .sending _ _ | .resetting | .removing => true
  | _ => false

/-- The connection may be in the map: its listener is registered, or has aborted. -/
def ListenerStage.mapped (stage : ListenerStage C) : Prop :=
  stage.registered = true ∨ stage = .ended .panicked

/-- The entries of the map are of connections with this name, whose listeners are registered or
have aborted. -/
structure Mapped (s : Room cfg) : Prop where
  name : ∀ name c, s.conns name = some c → cfg.name c = name
  stage : ∀ name c, s.conns name = some c → (s.listener c).mapped
  displaced : ∀ c, s.log.displaced c = true → s.listener c ≠ .absent

omit [DecidableEq C] in
lemma afterHeader_mapped (head : List UInt8) : (afterHeader head : ListenerStage C).mapped := by
  rw [afterHeader]
  split <;> simp [ListenerStage.mapped, ListenerStage.registered]

omit [DecidableEq C] in
lemma afterPayload_mapped (n : ℕ) (t : MessageType) (f : MessageFlags) (head body : List UInt8) :
    (afterPayload n t f head body : ListenerStage C).mapped := by
  rw [afterPayload]
  split <;> simp [ListenerStage.mapped, ListenerStage.registered]

/-- A listener that is in the map stays there, unless its step is the cleanup. -/
lemma ListenerStep.mapped (h : ListenerStep s c s') (hc : (s.listener c).mapped)
    (hremove : s.listener c ≠ .removing) : (s'.listener c).mapped := by
  cases h with
  | readHeader head rest _ _ _ => simpa using afterHeader_mapped head
  | readPayload head t f len body rest _ _ _ => simpa using afterPayload_mapped ..
  | _ => simp_all [ListenerStage.mapped, ListenerStage.registered]

/-- A registering listener is registered after its step. -/
lemma ListenerStep.registered (h : ListenerStep s c s') (hc : s.listener c = .registering) :
    (s'.listener c).registered = true := by
  cases h <;> simp_all [ListenerStage.registered]

/-- The cleanup of a listener leaves no entry of its connection. -/
lemma ListenerStep.conns_ne_of_removing (h : ListenerStep s c s')
    (hc : s.listener c = .removing) : s'.conns (cfg.name c) ≠ some c := by
  cases h with
  | remove n _ _ _ =>
      show (if s.conns (cfg.name c) = some c then _ else s.conns) (cfg.name c) ≠ some c
      split_ifs with hown
      · simp
      · exact hown
  | _ => simp_all

/-- An entry was there before, or is inserted by the listener of its connection. -/
lemma conns_of_step_eq_some {name : String} (h : Step s l s') (hc : s'.conns name = some c) :
    s.conns name = some c ∨
      l = .listener c ∧ s.listener c = .registering ∧ cfg.name c = name := by
  obtain heq | ⟨d, rfl, hd, heq⟩ | ⟨d, rfl, hd, -, heq⟩ | ⟨i, rfl, hi, heq⟩ := conns_of_step h
  · exact .inl (heq ▸ hc)
  · rw [heq] at hc
    by_cases hname : name = cfg.name d
    · subst hname
      obtain rfl : d = c := by simpa using hc
      exact .inr ⟨rfl, hd, rfl⟩
    · exact .inl (by simpa [hname] using hc)
  · rw [heq] at hc
    by_cases hname : name = cfg.name d
    · simp [hname] at hc
    · exact .inl (by simpa [hname] using hc)
  · simp [heq] at hc

/-- A connection is displaced by a listener that then closes it. -/
lemma displaced_of_step (h : Step s l s') (hc : s'.log.displaced c = true) :
    s.log.displaced c = true ∨ ∃ d n, l = .listener d ∧ s.conns (cfg.name d) = some c ∧
      s'.listener d = .replacing c n ∧
      (s'.link c).calls ⟨.replace d, n⟩ = some (.close .start) := by
  cases h with
  | @listener _ d h =>
      cases h with
      | replace old n _ _ hold _ =>
          by_cases hco : c = old
          · subst hco
            refine .inr ⟨d, n, rfl, hold, Function.update_self .., ?_⟩
            simp only [calling_self, SharedConn.calls_set_self]
          · exact .inl (by simpa [hco] using hc)
      | _ => exact .inl hc
  | worker h => cases h <;> exact .inl hc
  | heartbeat h => cases h <;> exact .inl hc
  | add h => cases h <;> exact .inl hc
  | close h => cases h <;> exact .inl hc
  | call _ _ => exact .inl hc
  | arrival _ => exact .inl hc

omit [DecidableEq C] in
lemma ListenerStage.mapped.ne_absent {stage : ListenerStage C} (h : stage.mapped) :
    stage ≠ .absent := by
  intro habsent
  subst habsent
  simp [ListenerStage.mapped, ListenerStage.registered] at h

/-- No listener is taken back. -/
lemma ne_absent_of_step (h : Step s l s') (hc : s.listener c ≠ .absent) :
    s'.listener c ≠ .absent := by
  obtain heq | ⟨-, hstep⟩ | ⟨-, -, heq⟩ := listener_of_step h c
  · rwa [heq]
  · cases hstep with
    | readHeader head rest _ _ _ => simpa using (afterHeader_mapped head).ne_absent
    | readPayload head t f len body rest _ _ _ => simpa using (afterPayload_mapped ..).ne_absent
    | _ => simp
  · simp [heq]

/-- The listener of a mapped connection stays mapped, where the entry is still there. -/
lemma mapped_of_step {name : String} (hr : (lts cfg).Reach s) (h : Step s l s')
    (hc : (s.listener c).mapped) (hname : cfg.name c = name) (hconns : s'.conns name = some c) :
    (s'.listener c).mapped := by
  obtain heq | ⟨-, hstep⟩ | ⟨-, hspawn, -⟩ := listener_of_step h c
  · rwa [heq]
  · refine hstep.mapped hc ?_
    intro hremove
    exact hstep.conns_ne_of_removing hremove (hname ▸ hconns)
  · have hadd := adding_of_listener hr hc.ne_absent
    simp [hadd] at hspawn

theorem mapped_of_reach (h : (lts cfg).Reach s) : Mapped s := by
  refine h.invariant ?_ ?_
  · intro s hs
    subst hs
    exact ⟨by simp [opened], by simp [opened], by simp [opened]⟩
  · intro s l s' hr hi hs
    refine ⟨?_, ?_, ?_⟩
    · intro name c hc
      obtain hold | ⟨-, -, hname⟩ := conns_of_step_eq_some hs hc
      · exact hi.name name c hold
      · exact hname
    · intro name c hc
      obtain hold | ⟨rfl, hreg, -⟩ := conns_of_step_eq_some hs hc
      · exact mapped_of_step hr hs (hi.stage name c hold) (hi.name name c hold) hc
      · cases hs with
        | listener hs => exact .inl (hs.registered hreg)
    · intro c hc
      refine ne_absent_of_step hs ?_
      obtain hold | ⟨d, n, -, hconns, -, -⟩ := displaced_of_step hs hc
      · exact hi.displaced c hold
      · exact (hi.stage _ c hconns).ne_absent

/-! ### Displaced connections -/

/-- A task of the room is about to close the connection or in the middle of closing it: the
listener that displaced it, the heartbeat, or the cleanup of its own listener. -/
def BeingClosed (s : Room cfg) (c : C) : Prop :=
  ∃ k, ∃ stage : TcpConn.CloseStage, (s.link c).calls k = some (.close stage) ∧
    (∀ r, stage ≠ .returned r) ∧ s.Waits c k ∧
      ((∃ d, k.caller = .replace d) ∨ k.caller = .timeout ∨ k.caller = .cleanup)

/-- A displaced connection is marked closed, or the call that is to close it has not started. -/
def Doomed (s : Room cfg) (c : C) : Prop :=
  (s.link c).conn.closed = true ∨
    ∃ d n, (s.link c).calls ⟨.replace d, n⟩ = some (.close .start)

lemma doomed_of_step (h : Step s l s') (hc : s.Doomed c) : s'.Doomed c := by
  obtain hclosed | ⟨d, n, hstart⟩ := hc
  · obtain heq | ⟨o, hstep⟩ := link_of_step h c
    · exact .inl (by rw [heq, hclosed])
    · exact .inl (SharedConn.closed_of_step hstep hclosed)
  · cases callChange_of_step h c ⟨.replace d, n⟩ with
    | same heq => exact .inr ⟨d, n, by rw [heq, hstart]⟩
    | begun call hnone _ _ _ _ => simp [hstart] at hnone
    | moved call call' conn _ hcall hstep heq =>
        obtain rfl : call = .close .start := by simpa [hstart] using hcall.symm
        refine .inl ?_
        rw [heq]
        cases hstep with
        | swapClosed hclosed => exact hclosed
        | swapOpen _ => rfl

lemma doomed_of_reach (h : (lts cfg).Reach s) (hc : s.log.displaced c = true) : s.Doomed c := by
  revert hc
  refine h.invariant (I := fun s => s.log.displaced c = true → s.Doomed c) (fun s hs hc => ?_)
    fun s l s' _ hi hs hc => ?_
  · subst hs
    cases hc
  · obtain hold | ⟨d, n, -, -, -, hstart⟩ := displaced_of_step hs hc
    · exact doomed_of_step hs (hi hold)
    · exact .inr ⟨d, n, hstart⟩

/-- A call of `close` on a connection that was added has not returned: its caller waits for it. -/
lemma beingClosed_of_call {k : CallId C} {stage : TcpConn.CloseStage} (hr : (lts cfg).Reach s)
    (hadd : s.listener c ≠ .absent) (hk : (s.link c).calls k = some (.close stage))
    (hstage : ∀ r, stage ≠ .returned r) : s.BeingClosed c := by
  have hcalled := called_of_reach hr
  have hwaits := hcalled.waits c k _ hk fun r hret => by
    obtain hret | ⟨data, hret⟩ := hret
    · exact hstage r (by simpa [hk] using hret)
    · simp [hk] at hret
  have hmakes := hcalled.makes c k _ hk
  refine ⟨k, stage, hk, hstage, hwaits, ?_⟩
  obtain ⟨caller, n⟩ := k
  cases caller with
  | replace d => exact .inl ⟨d, rfl⟩
  | timeout => exact .inr (.inl rfl)
  | cleanup => exact .inr (.inr rfl)
  | forward item => simp [Makes] at hmakes
  | reply item => simp [Makes] at hmakes
  | ping => simp [Makes] at hmakes
  | reject =>
      have hreject : s.adding c = .rejecting n := hwaits
      simp [adding_of_listener hr hadd] at hreject

/-- A displaced connection is closed, or a task is closing it. -/
lemma closed_of_displaced (hr : (lts cfg).Reach s) (hc : s.log.displaced c = true) :
    (s.link c).conn.cancelToken = true ∨ s.BeingClosed c := by
  have hadd := (mapped_of_reach hr).displaced c hc
  obtain hclosed | ⟨d, n, hstart⟩ := doomed_of_reach hr hc
  · obtain htoken | ⟨k, hk⟩ := (SharedConn.closing_of_reach (link_of_reach hr c)).token hclosed
    · exact .inl htoken
    · obtain ⟨call, hcall, hbefore⟩ := SharedConn.exists_of_on hk
      obtain ⟨stage, rfl, hstage⟩ := Call.exists_close_of_beforeCancel hbefore
      exact .inr (beingClosed_of_call hr hadd hcall hstage)
  · exact .inr (beingClosed_of_call hr hadd hstart (by simp))

/-! ### Registered connections -/

/-- An entry stays, unless the listener of its connection cleans up, another listener inserts its
connection and displaces this one, or `close` clears the map. -/
lemma entry_of_step {name : String} (h : Step s l s') (hc : s.conns name = some c) :
    s'.conns name = some c ∨ l = .listener c ∧ s.listener c = .removing ∨
      (∃ d, l = .listener d ∧ s.listener d = .registering ∧ cfg.name d = name ∧
        s'.conns name = some d ∧ s'.log.displaced c = true) ∨
      ∃ i, l = .close i ∧ s.closing i = .clearing := by
  obtain heq | ⟨d, rfl, hd, heq⟩ | ⟨d, rfl, hd, hown, heq⟩ | ⟨i, rfl, hi, -⟩ := conns_of_step h
  · exact .inl (by rw [heq, hc])
  · by_cases hname : name = cfg.name d
    · subst hname
      refine .inr (.inr (.inl ⟨d, rfl, hd, rfl, by rw [heq, Function.update_self], ?_⟩))
      cases h with
      | listener h =>
          cases h with
          | replace old n _ _ hold _ =>
              obtain rfl : c = old := by simpa [hc] using hold
              exact Function.update_self ..
          | _ => simp_all
    · exact .inl (by rw [heq, Function.update_of_ne hname, hc])
  · by_cases hname : name = cfg.name d
    · subst hname
      obtain rfl : c = d := by simpa [hc] using hown
      exact .inr (.inl ⟨rfl, hd⟩)
    · exact .inl (by rw [heq, Function.update_of_ne hname, hc])
  · exact .inr (.inr (.inr ⟨i, rfl, hi⟩))

lemma displaced_mono (h : Step s l s') (hc : s.log.displaced c = true) :
    s'.log.displaced c = true := by
  cases h with
  | listener h =>
      cases h with
      | replace old n _ _ _ _ =>
          by_cases hco : c = old <;> simp [hco, hc]
      | _ => exact hc
  | worker h => cases h <;> exact hc
  | heartbeat h => cases h <;> exact hc
  | add h => cases h <;> exact hc
  | close h => cases h <;> exact hc
  | call _ _ => exact hc
  | arrival _ => exact hc

/-- A registered listener was registered before, or has just inserted its connection. -/
lemma registered_of_step (h : Step s l s') (hc : (s'.listener c).registered = true) :
    (s.listener c).registered = true ∨ s'.conns (cfg.name c) = some c := by
  obtain heq | ⟨-, hstep⟩ | ⟨-, -, heq⟩ := listener_of_step h c
  · exact .inl (heq ▸ hc)
  · cases hstep with
    | insert _ _ _ => exact .inr (Function.update_self ..)
    | replace old n _ _ _ _ => exact .inr (Function.update_self ..)
    | _ => simp_all [ListenerStage.registered]
  · simp [heq, ListenerStage.registered] at hc

omit [DecidableEq C] in
lemma running_of_registered (hc : (s.listener c).registered = true) :
    s.Running (.listener c) := by
  refine ⟨?_, ?_⟩
  · intro habsent
    simp [habsent, ListenerStage.registered] at hc
  · intro how hend
    simp [hend, ListenerStage.registered] at hc

/-- A registered listener's connection is in the map, unless it was displaced. -/
lemma conns_of_registered (h : (lts cfg).Reach s) (hc : (s.listener c).registered = true) :
    s.conns (cfg.name c) = some c ∨ s.log.displaced c = true := by
  revert hc
  refine h.invariant (I := fun s => (s.listener c).registered = true →
    s.conns (cfg.name c) = some c ∨ s.log.displaced c = true) (fun s hs hc => ?_)
    fun s l s' hr hi hs hc => ?_
  · subst hs
    cases hc
  · obtain hold | hconns := registered_of_step hs hc
    · obtain hconns | hdis := hi hold
      · obtain hconns | ⟨rfl, hremove⟩ | ⟨d, -, -, -, -, hdis⟩ | ⟨i, -, hclear⟩ :=
          entry_of_step hs hconns
        · exact .inl hconns
        · cases hs with
          | listener hs => cases hs <;> simp_all [ListenerStage.registered]
        · exact .inr hdis
        · -- all tasks have been joined, and the listener runs
          have htasks := taskSet_of_reach hr
          have hmem := htasks.running _ (running_of_registered hold)
          simp [htasks.joined i hclear] at hmem
      · exact .inr (displaced_mono hs hdis)
    · exact .inl hconns

/-- The newest connection wins, and no cleanup hits its successor.  At most one connection is
registered for a name, and the name is its own.  An entry leaves the map because its listener
cleans up, because another listener with this name inserts its connection, or in the final clear.
A displaced connection is closed, or is being closed.  A registered connection that was not
displaced is found under its name. -/
theorem newest_connection_wins (h : (lts cfg).Reach s) :
    (∀ name c, s.conns name = some c → cfg.name c = name) ∧
    (∀ l s' name c, Step s l s' → s.conns name = some c → s'.conns name ≠ some c →
      (l = .listener c ∧ s.listener c = .removing) ∨
      (∃ d, d ≠ c ∧ l = .listener d ∧ s.listener d = .registering ∧ cfg.name d = name ∧
        s'.conns name = some d) ∨
      ∃ i, l = .close i ∧ s.closing i = .clearing) ∧
    (∀ c, s.log.displaced c = true → (s.link c).conn.cancelToken = true ∨ s.BeingClosed c) ∧
    ∀ c, (s.listener c).registered = true → s.log.displaced c = false →
      s.conns (cfg.name c) = some c := by
  refine ⟨(mapped_of_reach h).name, fun l s' name c hs hc hleft => ?_,
    fun c => closed_of_displaced h, fun c hc hdis => ?_⟩
  · obtain hstay | hown | ⟨d, hl, hd, hname, hconns, -⟩ | hclear := entry_of_step hs hc
    · exact absurd hstay hleft
    · exact .inl hown
    · refine .inr (.inl ⟨d, fun heq => hleft ?_, hl, hd, hname, hconns⟩)
      rw [hconns, heq]
    · exact .inr (.inr hclear)
  · obtain hconns | hdis' := conns_of_registered h hc
    · exact hconns
    · simp [hdis] at hdis'

/-- A room with two workers whose connections all have the name `a`. -/
def twins : RoomConfig ℕ where
  name := fun _ => "a"
  workerNumber := 2
  maxPendingHeartbeats := 5
  shards := 4
  shardOf := fun _ => 0
  toVec := fun _ => .ok []

/-- Connection 0 has registered and waits for a frame. -/
def alone : Room twins :=
  { opened twins with
    adding := Function.update (fun _ => .absent) 0 .returned
    listener := Function.update (fun _ => .absent) 0 .header
    tasks := (opened twins).tasks ++ [.listener 0]
    conns := Function.update (fun _ => none) "a" (some 0) }

/-- It registers before anything is called. -/
lemma reach_alone {P : Room twins → Prop} (hP : ∀ s, s.link = (opened twins).link → P s) :
    (lts twins).ReachBy (fun s _ => P s) alone := by
  have hfree : Entryless (opened twins).listener := entryless_absent
  have h : (lts twins).ReachBy (fun s _ => P s) (opened twins) := .init rfl
  have h := reach_spawned (c := 0) h (fun s' ha => hP s' ha.link) rfl rfl rfl
  have hfree := hfree.update 0 .spawned (by simp)
  have h := reach_registered (c := 0) h (fun s' ha => hP s' ha.link) rfl rfl (hfree.shardFree 0) rfl
  rw [Function.update_idem] at h
  exact h

lemma reach_waiting : (lts twins).Reach alone := reach_alone fun _ _ => trivial

/-- Connection 0 is registered and connection 1 takes its name. -/
theorem newest_connection_wins_twins : ∃ s : Room twins, s.log.displaced 0 = true ∧
    s.conns "a" = some 1 ∧ ((s.link 0).conn.cancelToken = true ∨ s.BeingClosed 0) := by
  have hfree := (entryless_absent.update 0 .header (by simp)).update 1 .spawned (by simp)
  have h := reach_spawned (c := 1) reach_waiting (fun _ _ => trivial) rfl rfl rfl
  have h := reach_displaced (c := 1) (n := 0) h (fun _ _ => trivial) rfl rfl (hfree.shardFree 0) rfl
    rfl
  exact ⟨_, rfl, rfl, (newest_connection_wins h).2.2.1 0 rfl⟩

/-! ### What a listener leaves behind -/

/-- A listener that reads a whole frame, other than a Pong, reads a frame whose names are inside. -/
def NamesFit (s : Room cfg) (step : Label C × Room cfg) : Prop :=
  ∀ c head t f body rest, step.1 = .listener c → s.listener c = .payload head t f body.length →
    t ≠ .pong → s.unread c = body ++ rest → step.2.unread c = rest →
    NamesInside (head ++ body) True

/-- The cleanup of a listener does not start to close its connection while the close of another
task has marked the connection and has not cancelled its token. -/
def ClosesAlone (s : Room cfg) (l : Label C) : Prop :=
  ∀ c n, l = .call c ⟨.cleanup, n⟩ →
    (s.link c).calls ⟨.cleanup, n⟩ = some (.close .start) → (s.link c).conn.closed = true →
    (s.link c).conn.cancelToken = true

lemma not_panicked_of_namesFit (h : (lts cfg).toward.ReachBy NamesFit s) :
    s.listener c ≠ .ended .panicked := by
  refine h.invariant (I := fun s => s.listener c ≠ .ended .panicked) (fun s hs => ?_)
    fun s step s' _ hi hok hs => ?_
  · subst hs
    simp [opened]
  · obtain ⟨l, target⟩ := step
    obtain ⟨hs, htarget⟩ : Step s l s' ∧ target = s' := hs
    subst htarget
    obtain heq | ⟨rfl, hstep⟩ | ⟨-, -, heq⟩ := listener_of_step hs c
    · rwa [heq]
    · cases hstep with
      | readHeader head rest _ _ hlen =>
          have hhead := listenHeader_ne_aborted hlen.ge
          simp only [Function.update_self, afterHeader]
          split <;> simp_all
      | readPayload head t f len body rest hc hunread hlen =>
          simp only [Function.update_self, afterPayload]
          split
          · simp
          · simp
          · simp
          · rename_i habort
            obtain ⟨hpong, hout⟩ := listenFrame_eq_aborted_iff.mp habort
            have hfit := hok c head t f body rest rfl (hlen.symm ▸ hc) hpong hunread
              (Function.update_self ..)
            exact absurd hfit hout
      | _ => simp
    · simp [heq]

/-- A listener finishes when the call of `close` of its cleanup has returned. -/
lemma finished_of_step (h : Step s l s') (hc : s'.listener c = .ended .finished) :
    s.listener c = .ended .finished ∨
      s'.link = s.link ∧ ∃ n r, s.Returned c .cleanup n r := by
  obtain heq | ⟨-, hstep⟩ | ⟨-, -, heq⟩ := listener_of_step h c
  · exact .inl (heq ▸ hc)
  · cases hstep with
    | closed n r _ hret => exact .inr ⟨rfl, n, r, hret⟩
    | readHeader head rest _ _ _ =>
        have hmapped := afterHeader_mapped (C := C) head
        simp_all [ListenerStage.mapped, ListenerStage.registered]
    | readPayload head t f len body rest _ _ _ =>
        have hmapped := afterPayload_mapped (C := C) cfg.workerNumber t f head body
        simp_all [ListenerStage.mapped, ListenerStage.registered]
    | _ => simp_all
  · simp [heq] at hc

/-- What the `close` of a cleanup leaves when it returns, and no step of a connection takes away,
the connection of a listener that has finished has. -/
lemma finished_has {ok : Room cfg → Label C → Prop} {P : SharedConn (CallId C) → Prop}
    (hmono : ∀ {link o link'}, SharedConn.Step link o link' → P link → P link')
    (hreturned : ∀ {s : Room cfg} {n r}, (lts cfg).ReachBy ok s → s.Returned c .cleanup n r →
      P (s.link c))
    (h : (lts cfg).ReachBy ok s) (hc : s.listener c = .ended .finished) : P (s.link c) := by
  revert hc
  refine h.invariant (I := fun s => s.listener c = .ended .finished → P (s.link c))
    (fun s hs hc => ?_) fun s l s' hr hi _ hs hc => ?_
  · subst hs
    cases hc
  · obtain hold | ⟨hlink, n, r, hret⟩ := finished_of_step hs hc
    · obtain heq | ⟨o, hstep⟩ := link_of_step hs c
      · rw [heq]
        exact hi hold
      · exact hmono hstep (hi hold)
    · rw [hlink]
      exact hreturned hr hret

/-- The connection of a listener that has finished is marked closed. -/
lemma closed_of_finished (h : (lts cfg).Reach s) (hc : s.listener c = .ended .finished) :
    (s.link c).conn.closed = true := by
  refine finished_has (P := fun link => link.conn.closed = true) SharedConn.closed_of_step ?_ h hc
  intro s n r hr hret
  refine (SharedConn.closing_of_reach (link_of_reach hr c)).flag ⟨.cleanup, n⟩ ?_
  rw [SharedConn.on_eq (calls_of_returned hr (.inl rfl) hret)]
  rfl

/-- Where cleanups close alone, the close of a cleanup is past its cancellation only when the
token is cancelled. -/
lemma cancelToken_of_cleanup (h : (lts cfg).ReachBy ClosesAlone s) {n : ℕ}
    (hk : (s.link c).on Call.pastCancel ⟨.cleanup, n⟩ = true) :
    (s.link c).conn.cancelToken = true := by
  revert hk
  refine h.invariant (I := fun s => (s.link c).on Call.pastCancel ⟨.cleanup, n⟩ = true →
    (s.link c).conn.cancelToken = true) (fun s hs hk => ?_) fun s l s' _ hi hok hs hk => ?_
  · subst hs
    cases hk
  · have hmono : (s.link c).conn.cancelToken = true → (s'.link c).conn.cancelToken = true := by
      obtain heq | ⟨o, hstep⟩ := link_of_step hs c
      · rw [heq]
        exact id
      · exact SharedConn.cancelToken_of_step hstep
    cases callChange_of_step hs c ⟨.cleanup, n⟩ with
    | same heq =>
        refine hmono (hi ?_)
        rwa [SharedConn.on, heq] at hk
    | begun call _ hcall hmakes hstart _ =>
        obtain ⟨stage, rfl⟩ := hmakes
        obtain rfl : stage = .start := hstart
        rw [SharedConn.on_eq hcall] at hk
        cases hk
    | moved call call' conn hl hcall hstep heq =>
        have hold := SharedConn.on_eq (f := Call.pastCancel) hcall
        rw [heq, SharedConn.on_set_self] at hk
        cases hstep with
        | swapClosed hclosed => exact hmono (hok c n hl hcall hclosed)
        | cancelExpired => rw [heq]; rfl
        | cancel => rw [heq]; rfl
        | shutdown => exact hmono (hi hold)
        | shutdownDone r => exact hmono (hi hold)
        | shutdownTimeout => exact hmono (hi hold)
        | closeUnlock r => exact hmono (hi hold)
        | _ => cases hk

/-- Where cleanups close alone, the connection of a listener that has finished is closed. -/
lemma cancelToken_of_finished (h : (lts cfg).ReachBy ClosesAlone s)
    (hc : s.listener c = .ended .finished) : (s.link c).conn.cancelToken = true := by
  refine finished_has (P := fun link => link.conn.cancelToken = true)
    SharedConn.cancelToken_of_step ?_ h hc
  intro s n r hr hret
  refine cancelToken_of_cleanup hr (n := n) ?_
  rw [SharedConn.on_eq (calls_of_returned hr.reach (.inl rfl) hret)]
  rfl

/-- **A listener that has ended leaves nothing behind.**  Where no listener reads a frame whose
names are not inside it, the connection of a listener that has ended is not in the map, and it was
dropped or `close` was called on it.  Where cleanups close alone as well, it was dropped or it is
closed. -/
theorem ended_listener_is_gone (cfg : RoomConfig C) :
    (∀ s : Room cfg, (lts cfg).toward.ReachBy NamesFit s → ∀ c how, s.listener c = .ended how →
      s.conns (cfg.name c) ≠ some c ∧ (how = .dropped ∨ (s.link c).conn.closed = true)) ∧
    ∀ s : Room cfg,
      (lts cfg).toward.ReachBy (fun s step => NamesFit s step ∧ ClosesAlone s step.1) s →
      ∀ c how, s.listener c = .ended how →
        s.conns (cfg.name c) ≠ some c ∧
          (how = .dropped ∨ (s.link c).conn.cancelToken = true) := by
  have hgone : ∀ s : Room cfg, (lts cfg).toward.ReachBy NamesFit s → ∀ c how,
      s.listener c = .ended how → how ≠ .panicked ∧ s.conns (cfg.name c) ≠ some c := by
    intro s h c how hend
    have hreach : (lts cfg).Reach s := h.of_toward fun _ _ _ => trivial
    have hnot : how ≠ .panicked := fun heq => not_panicked_of_namesFit h (heq ▸ hend)
    refine ⟨hnot, ?_⟩
    intro hconns
    obtain hreg | hpan := (mapped_of_reach hreach).stage _ c hconns
    · simp [hend, ListenerStage.registered] at hreg
    · exact hnot (by simpa [hend] using hpan)
  refine ⟨?_, ?_⟩
  · intro s h c how hend
    obtain ⟨hnot, hconns⟩ := hgone s h c how hend
    refine ⟨hconns, ?_⟩
    cases how with
    | dropped => exact .inl rfl
    | panicked => exact absurd rfl hnot
    | finished =>
        exact .inr (closed_of_finished (h.of_toward fun _ _ _ => trivial) hend)
  · intro s h c how hend
    obtain ⟨hnot, hconns⟩ := hgone s (h.mono fun _ _ => And.left) c how hend
    refine ⟨hconns, ?_⟩
    cases how with
    | dropped => exact .inl rfl
    | panicked => exact absurd rfl hnot
    | finished => exact .inr (cancelToken_of_finished (h.of_toward fun _ _ => And.right) hend)

/-- A run of the kind that the witness needs goes on. -/
lemma step_fitting {s s' : Room twins} {l : Label ℕ}
    (h : (lts twins).toward.ReachBy (fun s step => NamesFit s step ∧ ClosesAlone s step.1) s)
    (hs : Step s l s') (hfit : NamesFit s (l, s')) (halone : ClosesAlone s l) :
    (lts twins).toward.ReachBy (fun s step => NamesFit s step ∧ ClosesAlone s step.1) s' :=
  h.step (a := (l, s')) ⟨hfit, halone⟩ ⟨hs, rfl⟩

/-- A step that is not that of a listener before a payload, nor a call of a cleanup. -/
lemma step_apart {s s' : Room twins} {l : Label ℕ}
    (h : (lts twins).toward.ReachBy (fun s step => NamesFit s step ∧ ClosesAlone s step.1) s)
    (hs : Step s l s')
    (hlisten : ∀ c head t f len, l = .listener c → s.listener c ≠ .payload head t f len)
    (hcall : ∀ c n, l ≠ .call c ⟨.cleanup, n⟩) :
    (lts twins).toward.ReachBy (fun s step => NamesFit s step ∧ ClosesAlone s step.1) s' :=
  step_fitting h hs (fun c head t f _ _ hl hc => absurd hc (hlisten c head t f _ hl))
    fun c n hl => absurd hl (hcall c n)

/-- A step of the close of a cleanup that does not find a marked connection. -/
lemma step_cleanup {s : Room twins} {c n : ℕ} {conn : TcpConn (CallId ℕ)}
    {call call' : TcpConn.Call}
    (h : (lts twins).toward.ReachBy (fun s step => NamesFit s step ∧ ClosesAlone s step.1) s)
    (hcall : (s.link c).calls ⟨.cleanup, n⟩ = some call)
    (halone : call = .close .start → (s.link c).conn.closed ≠ true)
    (hs : TcpConn.CallStep ⟨.cleanup, n⟩ (s.link c).conn call conn call') :
    (lts twins).toward.ReachBy (fun s step => NamesFit s step ∧ ClosesAlone s step.1)
      { s with
        link := Function.update s.link c ((s.link c).set ⟨.cleanup, n⟩ conn call')
        log := { s.log with
          acquired := s.log.acquired ++
            (conn.acquired.drop (s.link c).conn.acquired.length).map (Prod.mk c) } } := by
  refine step_fitting h (.call hcall hs) ?_ ?_
  · rintro _ _ _ _ _ _ ⟨⟩
  · rintro _ _ ⟨⟩ hstart hclosed
    exact absurd hclosed (halone (Option.some.inj (hcall.symm.trans hstart)))

/-- The room is closed when connection 0 has sent a frame, and its listener has read the header: it
leaves the rest of the frame and cleans up. -/
lemma exists_cancelled {head : List UInt8} (body : List UInt8) {t : MessageType}
    {f : MessageFlags} {len : ℕ} (hlen : head.length = fixedHeaderLen)
    (hhead : listenHeader head = .read t f len) (hpos : len ≠ 0) : ∃ s : Room twins,
      (lts twins).toward.ReachBy (fun s step => NamesFit s step ∧ ClosesAlone s step.1) s ∧
        s.listener 0 = .ended .finished ∧ s.unread 0 = body := by
  have hstage : (afterHeader head : ListenerStage ℕ) = .payload head t f len := by
    rw [afterHeader, hhead]
  have hfree (stage : ListenerStage ℕ) (hstage : ∀ old n, stage ≠ .replacing old n) :
      Entryless (Function.update (opened twins).listener 0 stage) :=
    entryless_absent.update 0 stage hstage
  have h : (lts twins).toward.ReachBy (fun s step => NamesFit s step ∧ ClosesAlone s step.1)
      (opened twins) := .init rfl
  -- the connection is added and registers
  have h := step_apart h (.add (c := 0) (.call rfl)) (by simp) (by simp)
  have h := step_apart h (.add (c := 0) (.passFirst rfl rfl)) (by simp) (by simp)
  have h := step_apart h (.add (c := 0) (.lock rfl rfl)) (by simp) (by simp)
  have h := step_apart h (.add (c := 0) (.passSecond rfl rfl)) (by simp) (by simp)
  simp only [Function.update_idem] at h
  have h := step_apart h (.add (c := 0) (.spawn rfl)) (by simp) (by simp)
  have h := step_apart h (.listener (c := 0) (.start rfl rfl))
    (by rintro _ _ _ _ _ ⟨⟩ ⟨⟩) (by simp)
  simp only [Function.update_idem] at h
  have h := step_apart h
    (.listener (c := 0) (.insert rfl ((hfree .registering (by simp)).shardFree _) rfl))
    (by rintro _ _ _ _ _ ⟨⟩ ⟨⟩) (by simp)
  -- the header of a frame is read, and the room is cancelled
  have h := step_apart h (.arrival (c := 0) (head ++ body)) (by simp) (by simp)
  simp only [Function.update_idem] at h
  have h := step_apart h (.listener (c := 0) (.readHeader head body rfl rfl hlen))
    (by rintro _ _ _ _ _ ⟨⟩ ⟨⟩) (by simp)
  simp only [Function.update_idem, hstage] at h
  have h := step_apart h (.close (i := 0) (.call rfl)) (by simp) (by simp)
  have h := step_apart h (.close (i := 0) (.store rfl)) (by simp) (by simp)
  simp only [Function.update_idem] at h
  have h := step_apart h (.close (i := 0) (.cancel rfl)) (by simp) (by simp)
  simp only [Function.update_idem] at h
  -- the rest of the frame is not read
  have h := step_fitting h (.listener (c := 0) (.payloadCancelled head t f len rfl (.inr rfl)))
    (fun c head' t' f' body' rest hl hc _ hunread hrest => by
      cases hl
      obtain ⟨-, -, -, hbody⟩ : head = head' ∧ t = t' ∧ f = f' ∧ len = body'.length := by
        simpa using hc
      obtain rfl : body = rest := by simpa using hrest
      have hnil : body = body' ++ body := by simpa using hunread
      exact absurd (hbody.trans (by rw [List.self_eq_append_left.mp hnil, List.length_nil])) hpos)
    (by rintro _ _ ⟨⟩)
  simp only [Function.update_idem] at h
  -- the cleanup
  have h := step_apart h
    (.listener (c := 0) (.remove 0 rfl ((hfree .removing (by simp)).shardFree _) rfl))
    (by rintro _ _ _ _ _ ⟨⟩ ⟨⟩) (by simp)
  simp only [Function.update_idem, calling] at h
  have h := step_cleanup (c := 0) (n := 0) h rfl (by simp [opened, SharedConn.new, TcpConn.new])
    (.swapOpen rfl)
  simp only [Function.update_idem, Function.update_self, SharedConn.set_set,
    SharedConn.conn_set] at h
  have h := step_cleanup (c := 0) (n := 0) h rfl (by simp) (.closeLock rfl)
  simp only [Function.update_idem, Function.update_self, SharedConn.set_set,
    SharedConn.conn_set] at h
  have h := step_cleanup (c := 0) (n := 0) h rfl (by simp) .cancel
  simp only [Function.update_idem, Function.update_self, SharedConn.set_set,
    SharedConn.conn_set] at h
  have h := step_cleanup (c := 0) (n := 0) h rfl (by simp) .shutdown
  simp only [Function.update_idem, Function.update_self, SharedConn.set_set,
    SharedConn.conn_set] at h
  have h := step_cleanup (c := 0) (n := 0) h rfl (by simp) (.shutdownDone (.ok ()))
  simp only [Function.update_idem, Function.update_self, SharedConn.set_set,
    SharedConn.conn_set] at h
  have h := step_cleanup (c := 0) (n := 0) h rfl (by simp) (.closeUnlock (.ok ()))
  simp only [Function.update_idem, Function.update_self, SharedConn.set_set,
    SharedConn.conn_set] at h
  have h := step_apart h (.listener (c := 0) (.closed 0 (.ok ()) rfl (.inl rfl)))
    (by rintro _ _ _ _ _ ⟨⟩ ⟨⟩) (by simp)
  exact ⟨_, h, rfl, rfl⟩

/-- The room is closed when connection 0 has sent a frame whose source length says 128. -/
theorem ended_listener_is_gone_cancelled : ∃ s : Room twins,
    s.listener 0 = .ended .finished ∧ s.unread 0 = overrunFrame.drop 11 ∧
      s.conns "a" ≠ some 0 ∧ (s.link 0).conn.cancelToken = true := by
  have hhead : listenHeader (overrunFrame.take 11) = .read .body (.new true true false) 30 := by
    decide +kernel
  obtain ⟨s, h, hend, hunread⟩ := exists_cancelled (overrunFrame.drop 11) rfl hhead (by simp)
  obtain ⟨hconns, hdropped | hclosed⟩ := (ended_listener_is_gone twins).2 s h 0 _ hend
  · cases hdropped
  · exact ⟨s, hend, hunread, hconns, hclosed⟩

/-- A frame whose source length says 128 aborts the listener: its connection stays in the map, and
nothing closes it. -/
theorem aborted_listener_stays : ∃ s : Room twins, (lts twins).Reach s ∧
    s.listener 0 = .ended .panicked ∧ s.conns "a" = some 0 ∧
    (s.link 0).conn.closed = false ∧ (s.link 0).conn.cancelToken = false := by
  have hhead : listenHeader (overrunFrame.take 11) = .read .body (.new true true false) 30 := by
    decide +kernel
  have hbody : (afterPayload twins.workerNumber .body (.new true true false)
      (overrunFrame.take 11) (overrunFrame.drop 11) : ListenerStage ℕ) = .ended .panicked := by
    decide +kernel
  have h := reach_waiting.step (.arrival (c := 0) overrunFrame)
  have hunread : Function.update (fun _ : ℕ => []) 0 ([] ++ overrunFrame) 0 =
      overrunFrame.take 11 ++ (overrunFrame.drop 11 ++ []) := rfl
  have h := reach_read (c := 0) h (fun _ _ => trivial) rfl hunread rfl hhead
  rw [hbody] at h
  exact ⟨_, h, rfl, rfl, rfl, rfl⟩

end Room

end Fernq
