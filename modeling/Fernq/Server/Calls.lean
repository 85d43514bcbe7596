import Mathlib.Tactic
import Fernq.Server.Room
import Fernq.Server.Socket

/-!
The calls of `write` and `close` in a room: what a step of the room does to them and to the tasks
that wait for them.

* `listener_of_step`, `worker_of_step`, `conns_of_step`, ...: who changes what.
* `link_of_reach`: every connection of a room runs as a connection on its own.
* `callChange_of_step`: a call is begun by the task that waits for it, or takes a step.
* `called_of_reach`: every call is made for what its caller says, and the caller waits for it until
  it has returned.
-/

namespace Fernq

namespace Room

open TcpConn

variable {C : Type} [DecidableEq C] {cfg : RoomConfig C} {s s' : Room cfg} {l : Label C} {c : C}

/-! ### Who changes what -/

lemma listener_of_step (h : Step s l s') (c : C) :
    s'.listener c = s.listener c ∨ l = .listener c ∧ ListenerStep s c s' ∨
      l = .add c ∧ s.adding c = .spawning ∧ s'.listener c = .spawned := by
  cases h with
  | @listener _ c' h =>
      by_cases hc : c = c'
      · subst hc
        exact .inr (.inl ⟨rfl, h⟩)
      · refine .inl ?_
        cases h <;> exact Function.update_of_ne hc ..
  | worker h => cases h <;> exact .inl rfl
  | heartbeat h => cases h <;> exact .inl rfl
  | @add _ c' h =>
      cases h with
      | spawn hadd =>
          by_cases hc : c = c'
          · subst hc
            exact .inr (.inr ⟨rfl, hadd, Function.update_self ..⟩)
          · exact .inl (Function.update_of_ne hc ..)
      | _ => exact .inl rfl
  | close h => cases h <;> exact .inl rfl
  | call _ _ => exact .inl rfl
  | arrival _ => exact .inl rfl

lemma worker_of_step (h : Step s l s') (w : ℕ) :
    s'.worker w = s.worker w ∨ l = .worker w ∧ WorkerStep s w s' := by
  cases h with
  | listener h => cases h <;> exact .inl rfl
  | @worker _ w' h =>
      by_cases hw : w = w'
      · subst hw
        exact .inr ⟨rfl, h⟩
      · refine .inl ?_
        cases h <;> exact Function.update_of_ne hw ..
  | heartbeat h => cases h <;> exact .inl rfl
  | add h => cases h <;> exact .inl rfl
  | close h => cases h <;> exact .inl rfl
  | call _ _ => exact .inl rfl
  | arrival _ => exact .inl rfl

omit [DecidableEq C] in
/-- The workers start in `select!`. -/
lemma worker_opened (cfg : RoomConfig C) (w : ℕ) :
    (opened cfg).worker w = .idle ∨ (opened cfg).worker w = .ended := by
  by_cases hlt : w < cfg.workerNumber
  · exact .inl (if_pos hlt)
  · exact .inr (if_neg hlt)

lemma heartbeat_of_step (h : Step s l s') :
    s'.heartbeat = s.heartbeat ∨ l = .heartbeat ∧ HeartbeatStep s s' := by
  cases h with
  | listener h => cases h <;> exact .inl rfl
  | worker h => cases h <;> exact .inl rfl
  | heartbeat h => exact .inr ⟨rfl, h⟩
  | add h => cases h <;> exact .inl rfl
  | close h => cases h <;> exact .inl rfl
  | call _ _ => exact .inl rfl
  | arrival _ => exact .inl rfl

lemma adding_of_step (h : Step s l s') (c : C) :
    s'.adding c = s.adding c ∨ l = .add c ∧ AddStep s c s' := by
  cases h with
  | listener h => cases h <;> exact .inl rfl
  | worker h => cases h <;> exact .inl rfl
  | heartbeat h => cases h <;> exact .inl rfl
  | @add _ c' h =>
      by_cases hc : c = c'
      · subst hc
        exact .inr ⟨rfl, h⟩
      · refine .inl ?_
        cases h <;> exact Function.update_of_ne hc ..
  | close h => cases h <;> exact .inl rfl
  | call _ _ => exact .inl rfl
  | arrival _ => exact .inl rfl

/-- A connection whose listener has been spawned has been added. -/
lemma adding_of_listener (h : (lts cfg).Reach s) (hc : s.listener c ≠ .absent) :
    s.adding c = .returned := by
  revert hc
  refine h.invariant (I := fun s => s.listener c ≠ .absent → s.adding c = .returned)
    (fun s hs hc => ?_) fun s l s' _ hi hs hc => ?_
  · subst hs
    exact absurd rfl hc
  · obtain hadd | ⟨rfl, hadd⟩ := adding_of_step hs c
    · rw [hadd]
      refine hi ?_
      intro habsent
      obtain heq | ⟨-, hstep⟩ | ⟨rfl, hspawn, -⟩ := listener_of_step hs c
      · exact hc (heq.trans habsent)
      · cases hstep <;> simp_all
      · cases hs with
        | add hs => cases hs <;> simp_all
    · cases hadd with
      | spawn _ => exact Function.update_self ..
      | rejected n r _ _ => exact Function.update_self ..
      | _ => simp_all

/-- The map changes when a listener registers, when it cleans up, and when `close` has joined all
tasks. -/
lemma conns_of_step (h : Step s l s') :
    s'.conns = s.conns ∨
      (∃ c, l = .listener c ∧ s.listener c = .registering ∧
        s'.conns = Function.update s.conns (cfg.name c) (some c)) ∨
      (∃ c, l = .listener c ∧ s.listener c = .removing ∧ s.conns (cfg.name c) = some c ∧
        s'.conns = Function.update s.conns (cfg.name c) none) ∨
      ∃ i, l = .close i ∧ s.closing i = .clearing ∧ s'.conns = fun _ => none := by
  cases h with
  | @listener _ c h =>
      cases h with
      | insert hc _ _ => exact .inr (.inl ⟨c, rfl, hc, rfl⟩)
      | replace old n hc _ _ _ => exact .inr (.inl ⟨c, rfl, hc, rfl⟩)
      | remove n hc _ _ =>
          by_cases hown : s.conns (cfg.name c) = some c
          · exact .inr (.inr (.inl ⟨c, rfl, hc, hown, if_pos hown⟩))
          · exact .inl (if_neg hown)
      | _ => exact .inl rfl
  | worker h => cases h <;> exact .inl rfl
  | heartbeat h => cases h <;> exact .inl rfl
  | add h => cases h <;> exact .inl rfl
  | @close _ i h =>
      cases h with
      | clear hi => exact .inr (.inr (.inr ⟨i, rfl, hi, rfl⟩))
      | _ => exact .inl rfl
  | call _ _ => exact .inl rfl
  | arrival _ => exact .inl rfl

/-! ### The connections -/

section Calling

variable {d : C} {caller : Caller C} {n : ℕ} {call : Call}

lemma calling_self : s.calling d caller n call d =
    (s.link d).set ⟨caller, n⟩ (s.link d).conn call := Function.update_self ..

lemma calling_of_ne (hc : c ≠ d) : s.calling d caller n call c = s.link c :=
  Function.update_of_ne hc ..

lemma conn_calling : (s.calling d caller n call c).conn = (s.link c).conn := by
  by_cases hc : c = d
  · subst hc
    rw [calling_self]
    rfl
  · rw [calling_of_ne hc]

/-- A new call is a step of its connection. -/
lemma calling_step (hfresh : s.Fresh d caller n)
    (hcall : call = .close .start ∨ ∃ data, call = .write data .start) :
    s.calling d caller n call c = s.link c ∨
      ∃ o, SharedConn.Step (s.link c) o (s.calling d caller n call c) := by
  by_cases hc : c = d
  · subst hc
    rw [calling_self]
    obtain rfl | ⟨data, rfl⟩ := hcall
    · exact .inr ⟨_, .beginClose hfresh⟩
    · exact .inr ⟨_, .beginWrite data hfresh⟩
  · exact .inl (calling_of_ne hc)

end Calling

/-- What a room does to a connection is a step of the connection. -/
lemma link_of_step (h : Step s l s') (c : C) :
    s'.link c = s.link c ∨ ∃ o, SharedConn.Step (s.link c) o (s'.link c) := by
  cases h with
  | @listener _ c' h =>
      cases h with
      | replace old n _ _ _ hfresh => exact calling_step hfresh (.inl rfl)
      | remove n _ _ hfresh => exact calling_step hfresh (.inl rfl)
      | reset _ =>
          by_cases hc : c = c'
          · subst hc
            refine .inr ⟨none, ?_⟩
            simp only [Function.update_self]
            exact .resetHeartbeats
          · exact .inl (Function.update_of_ne hc ..)
      | _ => exact .inl rfl
  | worker h =>
      cases h with
      | found item d n _ _ _ hfresh => exact calling_step hfresh (.inr ⟨_, rfl⟩)
      | reply item d n res _ _ _ _ hfresh => exact calling_step hfresh (.inr ⟨_, rfl⟩)
      | _ => exact .inl rfl
  | heartbeat h =>
      cases h with
      | expired d conns n _ _ hfresh => exact calling_step hfresh (.inl rfl)
      | ping d conns n _ _ hfresh => exact calling_step hfresh (.inr ⟨_, rfl⟩)
      | pingErr d conns n m e _ _ hfresh => exact calling_step hfresh (.inl rfl)
      | increment d conns _ =>
          by_cases hc : c = d
          · subst hc
            refine .inr ⟨none, ?_⟩
            simp only [Function.update_self]
            exact .incrementHeartbeats
          · exact .inl (Function.update_of_ne hc ..)
      | _ => exact .inl rfl
  | add h =>
      cases h with
      | rejectFirst n _ _ hfresh => exact calling_step hfresh (.inl rfl)
      | rejectSecond n _ _ hfresh => exact calling_step hfresh (.inl rfl)
      | _ => exact .inl rfl
  | close h => cases h <;> exact .inl rfl
  | @call c' k conn call call' hk hs =>
      by_cases hc : c = c'
      · subst hc
        refine .inr ⟨some k, ?_⟩
        simp only [Function.update_self]
        exact .call hk hs
      · exact .inl (Function.update_of_ne hc ..)
  | arrival _ => exact .inl rfl

/-- Every connection of a room runs as a connection on its own. -/
theorem link_of_reach {ok : Room cfg → Label C → Prop} (h : (lts cfg).ReachBy ok s) (c : C) :
    (SharedConn.lts (CallId C)).Reach (s.link c) := by
  refine h.project (N := SharedConn.lts (CallId C)) (fun s => s.link c) (fun s hs => ?_)
    fun s l s' _ _ hs => link_of_step hs c
  subst hs
  rfl

/-! ### The calls and their callers -/

/-- What `call` is when it is made by `caller`. -/
def Makes (cfg : RoomConfig C) : Caller C → Call → Prop
  | .forward item, call => ∃ stage, call = .write item.task.payload stage
  | .reply item, call =>
      ∃ res stage, notFoundReply cfg.toVec item.task = .ok res ∧ call = .write res stage
  | .ping, call => ∃ stage, call = .write pingFrame stage
  | _, call => ∃ stage, call = .close stage

/-- The call has not done anything. -/
def AtStart : Call → Prop
  | .write _ stage => stage = .start
  | .close stage => stage = .start

/-- The task that made call `k` on `c` waits for it. -/
def Waits (s : Room cfg) (c : C) (k : CallId C) : Prop :=
  match k.caller with
  | .replace by' => s.listener by' = .replacing c k.serial
  | .cleanup => s.listener c = .closing k.serial
  | .forward item => ∃ w, s.worker w = .forwarding item c k.serial
  | .reply item => ∃ w, s.worker w = .replying item c k.serial
  | .ping => ∃ conns, s.heartbeat = .pinging c conns k.serial
  | .timeout => ∃ conns, s.heartbeat = .closing c conns k.serial
  | .reject => s.adding c = .rejecting k.serial

/-- What a step of a room does to call `k` on `c`. -/
inductive CallChange (s s' : Room cfg) (l : Label C) (c : C) (k : CallId C) : Prop
  | same : (s'.link c).calls k = (s.link c).calls k → CallChange s s' l c k
  | begun (call : Call) : (s.link c).calls k = none → (s'.link c).calls k = some call →
      Makes cfg k.caller call → AtStart call → s'.Waits c k → CallChange s s' l c k
  | moved (call call' : Call) (conn : TcpConn (CallId C)) : l = .call c k →
      (s.link c).calls k = some call → CallStep k (s.link c).conn call conn call' →
      s'.link c = (s.link c).set k conn call' → CallChange s s' l c k

section CallChange

variable {d : C} {caller : Caller C} {n : ℕ} {call : Call} {k : CallId C}

/-- A step that makes call `n` of `caller` on `d`. -/
lemma CallChange.of_calling (hlink : s'.link = s.calling d caller n call)
    (hfresh : s.Fresh d caller n) (hmakes : Makes cfg caller call) (hstart : AtStart call)
    (hwaits : s'.Waits d ⟨caller, n⟩) : CallChange s s' l c k := by
  by_cases hc : c = d
  · subst hc
    by_cases hk : k = ⟨caller, n⟩
    · subst hk
      exact .begun call hfresh (by rw [hlink, calling_self, SharedConn.calls_set_self]) hmakes
        hstart hwaits
    · exact .same (by rw [hlink, calling_self, SharedConn.calls_set_of_ne hk])
  · exact .same (by rw [hlink, calling_of_ne hc])

lemma callChange_of_step (h : Step s l s') (c : C) (k : CallId C) : CallChange s s' l c k := by
  cases h with
  | @listener _ c' h =>
      cases h with
      | replace old n _ _ _ hfresh =>
          exact .of_calling rfl hfresh ⟨_, rfl⟩ rfl (Function.update_self ..)
      | remove n _ _ hfresh =>
          exact .of_calling rfl hfresh ⟨_, rfl⟩ rfl (Function.update_self ..)
      | reset _ =>
          refine .same ?_
          by_cases hc : c = c' <;> simp [hc]
      | _ => exact .same rfl
  | @worker _ w h =>
      cases h with
      | found item d n _ _ _ hfresh =>
          exact .of_calling rfl hfresh ⟨_, rfl⟩ rfl ⟨w, Function.update_self ..⟩
      | reply item d n res _ _ _ hres hfresh =>
          exact .of_calling rfl hfresh ⟨_, _, hres, rfl⟩ rfl ⟨w, Function.update_self ..⟩
      | _ => exact .same rfl
  | heartbeat h =>
      cases h with
      | expired d conns n _ _ hfresh => exact .of_calling rfl hfresh ⟨_, rfl⟩ rfl ⟨conns, rfl⟩
      | ping d conns n _ _ hfresh => exact .of_calling rfl hfresh ⟨_, rfl⟩ rfl ⟨conns, rfl⟩
      | pingErr d conns n m e _ _ hfresh =>
          exact .of_calling rfl hfresh ⟨_, rfl⟩ rfl ⟨conns, rfl⟩
      | increment d conns _ =>
          refine .same ?_
          by_cases hc : c = d <;> simp [hc]
      | _ => exact .same rfl
  | add h =>
      cases h with
      | rejectFirst n _ _ hfresh =>
          exact .of_calling rfl hfresh ⟨_, rfl⟩ rfl (Function.update_self ..)
      | rejectSecond n _ _ hfresh =>
          exact .of_calling rfl hfresh ⟨_, rfl⟩ rfl (Function.update_self ..)
      | _ => exact .same rfl
  | close h => cases h <;> exact .same rfl
  | @call c' k' conn call call' hk hs =>
      by_cases hc : c = c'
      · subst hc
        by_cases hk' : k = k'
        · subst hk'
          exact .moved call call' conn rfl hk hs (by simp)
        · exact .same (by simp [SharedConn.calls_set_of_ne hk'])
      · exact .same (by simp [hc])
  | arrival _ => exact .same rfl

end CallChange

/-- A call was there before the step, or its caller waits for it after the step. -/
lemma called_or_waits_of_step {d : C} {k : CallId C} {call : Call} (h : Step s l s')
    (hcall : (s'.link d).calls k = some call) :
    (∃ before, (s.link d).calls k = some before) ∨ s'.Waits d k := by
  cases callChange_of_step h d k with
  | same heq => exact .inl ⟨call, heq ▸ hcall⟩
  | begun call' _ _ _ _ hwaits => exact .inr hwaits
  | moved before call' conn _ hbefore _ _ => exact .inl ⟨before, hbefore⟩

/-- A task that waits for a call goes on waiting until the call has returned. -/
lemma waits_of_step {k : CallId C} (hr : (lts cfg).Reach s) (h : Step s l s') (hw : s.Waits c k)
    (hret : ∀ r, ¬ s.Returned c k.caller k.serial r) : s'.Waits c k := by
  obtain ⟨caller, n⟩ := k
  cases caller with
  | replace d =>
      obtain heq | ⟨-, hstep⟩ | ⟨-, hspawn, -⟩ := listener_of_step h d
      · exact heq.trans hw
      · have hw : s.listener d = .replacing c n := hw
        cases hstep <;> simp_all
      · have hadd := adding_of_listener (c := d) hr (by rw [show s.listener d = _ from hw]; simp)
        simp [hadd] at hspawn
  | cleanup =>
      obtain heq | ⟨-, hstep⟩ | ⟨-, hspawn, -⟩ := listener_of_step h c
      · exact heq.trans hw
      · have hw : s.listener c = .closing n := hw
        cases hstep <;> simp_all
      · have hadd := adding_of_listener (c := c) hr (by rw [show s.listener c = _ from hw]; simp)
        simp [hadd] at hspawn
  | forward item =>
      obtain ⟨w, hw⟩ := hw
      refine ⟨w, ?_⟩
      obtain heq | ⟨-, hstep⟩ := worker_of_step h w
      · exact heq.trans hw
      · cases hstep <;> simp_all
  | reply item =>
      obtain ⟨w, hw⟩ := hw
      refine ⟨w, ?_⟩
      obtain heq | ⟨-, hstep⟩ := worker_of_step h w
      · exact heq.trans hw
      · cases hstep <;> simp_all
  | ping =>
      obtain ⟨conns, hw⟩ := hw
      refine ⟨conns, ?_⟩
      obtain heq | ⟨-, hstep⟩ := heartbeat_of_step h
      · exact heq.trans hw
      · cases hstep <;> simp_all
  | timeout =>
      obtain ⟨conns, hw⟩ := hw
      refine ⟨conns, ?_⟩
      obtain heq | ⟨-, hstep⟩ := heartbeat_of_step h
      · exact heq.trans hw
      · cases hstep <;> simp_all
  | reject =>
      have hw : s.adding c = .rejecting n := hw
      obtain heq | ⟨-, hstep⟩ := adding_of_step h c
      · exact heq.trans hw
      · cases hstep <;> simp_all

omit [DecidableEq C] in
/-- A step of a call does not change what it is a call of. -/
lemma Makes.callStep {k : CallId C} {caller : Caller C} {conn conn' : TcpConn (CallId C)}
    {call call' : Call} (h : Makes cfg caller call) (hs : CallStep k conn call conn' call') :
    Makes cfg caller call' := by
  cases caller with
  | forward item =>
      obtain ⟨stage, rfl⟩ := h
      cases hs <;> exact ⟨_, rfl⟩
  | reply item =>
      obtain ⟨res, stage, hres, rfl⟩ := h
      cases hs <;> exact ⟨res, _, hres, rfl⟩
  | ping =>
      obtain ⟨stage, rfl⟩ := h
      cases hs <;> exact ⟨_, rfl⟩
  | _ =>
      obtain ⟨stage, rfl⟩ := h
      cases hs <;> exact ⟨_, rfl⟩

/-- Every call is what its caller makes, and is waited for until it has returned. -/
structure Called (s : Room cfg) : Prop where
  makes : ∀ c k call, (s.link c).calls k = some call → Makes cfg k.caller call
  waits : ∀ c k call, (s.link c).calls k = some call →
    (∀ r, ¬ s.Returned c k.caller k.serial r) → s.Waits c k

omit [DecidableEq C] in
/-- A call that a step moved had not returned. -/
lemma not_returned_of_callStep {k : CallId C} {call call' : Call} {conn : TcpConn (CallId C)}
    (hk : (s.link c).calls k = some call) (hs : CallStep k (s.link c).conn call conn call')
    (r : IoResult) : ¬ s.Returned c k.caller k.serial r := by
  intro hret
  obtain hret | ⟨data, hret⟩ := hret
  · obtain rfl : call = .close (.returned r) := by simpa [hk] using hret
    cases hs
  · obtain rfl : call = .write data (.returned r) := by simpa [hk] using hret
    cases hs

/-- A call that has returned stays as it is. -/
lemma returned_of_step {caller : Caller C} {n : ℕ} {r : IoResult} (h : Step s l s')
    (hret : s.Returned c caller n r) : s'.Returned c caller n r := by
  cases callChange_of_step h c ⟨caller, n⟩ with
  | same heq => simpa only [Returned, heq] using hret
  | begun call hnone _ _ _ _ => simp [Returned, hnone] at hret
  | moved call call' conn _ hk hstep _ => exact absurd hret (not_returned_of_callStep hk hstep r)

theorem called_of_reach (h : (lts cfg).Reach s) : Called s := by
  refine h.invariant ?_ ?_
  · intro s hs
    subst hs
    exact ⟨fun c k call hk => by simp [opened, SharedConn.new] at hk,
      fun c k call hk => by simp [opened, SharedConn.new] at hk⟩
  · intro s l s' hr hi hs
    refine ⟨?_, ?_⟩
    · intro c k call hk
      cases callChange_of_step hs c k with
      | same heq => exact hi.makes c k call (heq ▸ hk)
      | begun call' _ hcall hmakes _ _ =>
          obtain rfl : call' = call := by simpa [hcall] using hk
          exact hmakes
      | moved call₀ call' conn _ hcall hstep heq =>
          obtain rfl : call' = call := by simpa [heq] using hk
          exact (hi.makes c k call₀ hcall).callStep hstep
    · intro c k call hk hret
      cases callChange_of_step hs c k with
      | same heq =>
          have hnot : ∀ r, ¬ s.Returned c k.caller k.serial r := by
            simpa only [Returned, heq] using hret
          exact waits_of_step hr hs (hi.waits c k call (heq ▸ hk) hnot) hnot
      | begun call' _ hcall _ _ hwaits => exact hwaits
      | moved call₀ call' conn _ hcall hstep heq =>
          have hnot := not_returned_of_callStep hcall hstep
          exact waits_of_step hr hs (hi.waits c k call₀ hcall hnot) hnot

/-- A close that a cleanup or `add_conn` has made, and that has returned. -/
lemma calls_of_returned {caller : Caller C} {n : ℕ} {r : IoResult} (hr : (lts cfg).Reach s)
    (hcaller : caller = .cleanup ∨ caller = .reject) (hret : s.Returned c caller n r) :
    (s.link c).calls ⟨caller, n⟩ = some (.close (.returned r)) := by
  obtain hret | ⟨data, hret⟩ := hret
  · exact hret
  · have hmakes := (called_of_reach hr).makes c _ _ hret
    obtain rfl | rfl := hcaller
    · obtain ⟨stage, hstage⟩ := hmakes
      cases hstage
    · obtain ⟨stage, hstage⟩ := hmakes
      cases hstage

end Room

end Fernq
