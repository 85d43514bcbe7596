import Mathlib.Tactic
import Fernq.Server.Socket

/-!
Closing a connection that tasks share (`TcpConn::close` in `fernqd/src/server/conn.rs`).

* `closed_of_step`, `cancelToken_of_step`: neither the closed flag nor the token is ever unset.
* `Closing`: what the flag and the token say about the calls of `close`; `closing_of_reach`.
* `NoOvertake`: no close finds the flag set while the token is not cancelled.
* `close_ok_means_closed`: what a close that has returned `Ok` promises, as long as none overtakes.
-/

namespace Fernq

namespace TcpConn.Call

/-- A close past the swap that has not cancelled the token. -/
def beforeCancel : Call → Bool
  | .close .waiting | .close .expired | .close .locked => true
  | _ => false

/-- A close past the swap. -/
def pastSwap : Call → Bool
  | .close .start => false
  | .close _ => true
  | .write _ _ => false

/-- A close that has cancelled the token, or has left it to another. -/
def pastCancel : Call → Bool
  | .close .start | .close .waiting | .close .expired | .close .locked => false
  | .close _ => true
  | .write _ _ => false

lemma exists_close_of_beforeCancel {c : Call} (h : c.beforeCancel = true) :
    ∃ stage, c = .close stage ∧ ∀ r, stage ≠ .returned r := by
  cases c with
  | write data stage => cases h
  | close stage =>
      refine ⟨stage, rfl, ?_⟩
      intro r hr
      subst hr
      cases h

end TcpConn.Call

namespace SharedConn

open TcpConn

variable {κ : Type} [DecidableEq κ] {s s' : SharedConn κ} {o : Option κ} {k : κ}
  {conn : TcpConn κ} {c c' : Call}

lemma closed_of_step (h : Step s o s') (hc : s.conn.closed = true) : s'.conn.closed = true := by
  cases h with
  | call hk hs => cases hs <;> first | exact hc | rfl
  | _ => exact hc

omit [DecidableEq κ] in
lemma cancelToken_of_callStep (hs : CallStep k s.conn c conn c') (ht : s.conn.cancelToken = true) :
    conn.cancelToken = true := by
  cases hs <;> first | exact ht | rfl

lemma cancelToken_of_step (h : Step s o s') (hc : s.conn.cancelToken = true) :
    s'.conn.cancelToken = true := by
  cases h with
  | call hk hs => exact cancelToken_of_callStep hs hc
  | _ => exact hc

/-- A close past the swap has set the flag, and a flag that is set is followed by the token unless
a close is still to cancel it. -/
structure Closing (s : SharedConn κ) : Prop where
  flag : ∀ k, s.on Call.pastSwap k = true → s.conn.closed = true
  token : s.conn.closed = true → s.conn.cancelToken = true ∨ ∃ k, s.on Call.beforeCancel k = true

/-- A step that leaves the flag, does not unset the token, and moves no close past its swap or to
its cancellation. -/
lemma Closing.set_of_eq (h : Closing s) (hclosed : conn.closed = s.conn.closed)
    (htoken : s.conn.cancelToken = true → conn.cancelToken = true)
    (hpast : c'.pastSwap = true → s.conn.closed = true)
    (hbefore : s.on Call.beforeCancel k = true →
      c'.beforeCancel = true ∨ conn.cancelToken = true) : Closing (s.set k conn c') := by
  refine ⟨?_, ?_⟩
  · intro k' hk'
    rw [conn_set, hclosed]
    by_cases hk : k' = k
    · subst hk
      rw [on_set_self] at hk'
      exact hpast hk'
    · rw [on_set_of_ne hk] at hk'
      exact h.flag k' hk'
  · intro hc
    rw [conn_set, hclosed] at hc
    obtain ht | ⟨k', hk'⟩ := h.token hc
    · exact .inl (htoken ht)
    · by_cases hk : k' = k
      · subst hk
        obtain hb | ht := hbefore hk'
        · exact .inr ⟨k', by rw [on_set_self, hb]⟩
        · exact .inl ht
      · exact .inr ⟨k', by rw [on_set_of_ne hk, hk']⟩

lemma Closing.callStep (h : Closing s) (hk : s.calls k = some c)
    (hs : CallStep k s.conn c conn c') : Closing (s.set k conn c') := by
  have hpast := on_eq (f := Call.pastSwap) hk
  have hbefore := on_eq (f := Call.beforeCancel) hk
  cases hs with
  | swapOpen _ =>
      exact ⟨fun _ _ => rfl, fun _ => .inr ⟨k, by rw [on_set_self]; rfl⟩⟩
  | swapClosed hclosed =>
      exact h.set_of_eq rfl id (fun _ => hclosed) (by simp [hbefore, Call.beforeCancel])
  | closeLock _ => exact h.set_of_eq rfl id (fun _ => h.flag k hpast) fun _ => .inl rfl
  | closeLockTimeout => exact h.set_of_eq rfl id (fun _ => h.flag k hpast) fun _ => .inl rfl
  | cancelExpired =>
      exact h.set_of_eq rfl (fun _ => rfl) (fun _ => h.flag k hpast) fun _ => .inr rfl
  | cancel => exact h.set_of_eq rfl (fun _ => rfl) (fun _ => h.flag k hpast) fun _ => .inr rfl
  | shutdown =>
      exact h.set_of_eq rfl id (fun _ => h.flag k hpast) (by simp [hbefore, Call.beforeCancel])
  | shutdownDone r =>
      exact h.set_of_eq rfl id (fun _ => h.flag k hpast) (by simp [hbefore, Call.beforeCancel])
  | shutdownTimeout =>
      exact h.set_of_eq rfl id (fun _ => h.flag k hpast) (by simp [hbefore, Call.beforeCancel])
  | closeUnlock r =>
      exact h.set_of_eq rfl id (fun _ => h.flag k hpast) (by simp [hbefore, Call.beforeCancel])
  | writeCancel => exact h.set_of_eq rfl (fun _ => rfl) nofun (by simp [hbefore, Call.beforeCancel])
  | _ => exact h.set_of_eq rfl id nofun (by simp [hbefore, Call.beforeCancel])

theorem closing_of_reach (h : (lts κ).Reach s) : Closing s := by
  refine h.invariant ?_ ?_
  · intro s hs
    subst hs
    exact ⟨nofun, nofun⟩
  · intro s o s' _ hi hs
    cases hs with
    | beginWrite data hk => exact hi.set_of_eq rfl id nofun (by simp [on_of_none hk])
    | beginClose hk => exact hi.set_of_eq rfl id nofun (by simp [on_of_none hk])
    | call hk hs => exact hi.callStep hk hs
    | resetHeartbeats => exact ⟨hi.flag, hi.token⟩
    | incrementHeartbeats => exact ⟨hi.flag, hi.token⟩

/-! ### What `Ok` promises -/

/-- No close finds the closed flag set by another that has not cancelled the token yet. -/
def NoOvertake (s : SharedConn κ) (o : Option κ) : Prop :=
  ∀ k, o = some k → s.calls k = some (.close .start) → s.conn.closed = true →
    s.conn.cancelToken = true

/-- Every close that is past its cancellation has the token cancelled. -/
def Cancelled (s : SharedConn κ) : Prop :=
  ∀ k, s.on Call.pastCancel k = true → s.conn.cancelToken = true

lemma Cancelled.set (h : Cancelled s) (htoken : s.conn.cancelToken = true → conn.cancelToken = true)
    (hpast : c'.pastCancel = true → conn.cancelToken = true) : Cancelled (s.set k conn c') := by
  intro k' hk'
  rw [conn_set]
  by_cases hk : k' = k
  · subst hk
    rw [on_set_self] at hk'
    exact hpast hk'
  · rw [on_set_of_ne hk] at hk'
    exact htoken (h k' hk')

lemma Cancelled.step (h : Cancelled s) (hok : NoOvertake s o) (hs : Step s o s') :
    Cancelled s' := by
  cases hs with
  | beginWrite data hk => exact h.set id nofun
  | beginClose hk => exact h.set id nofun
  | resetHeartbeats => exact h
  | incrementHeartbeats => exact h
  | call hk hs =>
      have hpast := on_eq (f := Call.pastCancel) hk
      cases hs with
      | swapClosed hclosed => exact h.set id fun _ => hok _ rfl hk hclosed
      | cancelExpired => exact h.set (fun _ => rfl) fun _ => rfl
      | cancel => exact h.set (fun _ => rfl) fun _ => rfl
      | writeCancel => exact h.set (fun _ => rfl) fun _ => rfl
      | shutdown => exact h.set id fun _ => h _ hpast
      | shutdownDone r => exact h.set id fun _ => h _ hpast
      | shutdownTimeout => exact h.set id fun _ => h _ hpast
      | closeUnlock r => exact h.set id fun _ => h _ hpast
      | _ => exact h.set id nofun

lemma cancelled_of_reachBy (h : (lts κ).ReachBy NoOvertake s) : Cancelled s := by
  refine h.invariant ?_ fun s o s' _ hi hok hs => hi.step hok hs
  rintro s rfl k hk
  cases hk

/-- Call `k` has not begun, or it is a close, or it is a write that has done nothing yet or was
refused for the token, without the lock. -/
structure Refused (k : κ) (s : SharedConn κ) : Prop where
  token : s.conn.cancelToken = true
  outside : k ∉ s.conn.acquired
  stage : ∀ data stage, s.calls k = some (.write data stage) →
    stage = .start ∨ stage = .returned (.error connectionClosed)

lemma Refused.set_other {k' : κ} (h : Refused k s) (hk : k ≠ k')
    (ht : s.conn.cancelToken = true → conn.cancelToken = true)
    (ha : conn.acquired = s.conn.acquired ∨ conn.acquired = s.conn.acquired ++ [k']) :
    Refused k (s.set k' conn c') := by
  refine ⟨ht h.token, ?_, ?_⟩
  · rw [conn_set]
    rcases ha with ha | ha
    · rw [ha]
      exact h.outside
    · rw [ha, List.mem_append, List.mem_singleton, not_or]
      exact ⟨h.outside, hk⟩
  · intro data stage hc
    rw [calls_set_of_ne hk] at hc
    exact h.stage data stage hc

/-- A step of the call itself: a write sees the token first. -/
lemma Refused.set_self (h : Refused k s) (hc : s.calls k = some c)
    (hs : CallStep k s.conn c conn c') : Refused k (s.set k conn c') := by
  have htoken := cancelToken_of_callStep hs h.token
  cases c with
  | close stage =>
      have hclose : conn.acquired = s.conn.acquired ∧ ∃ stage', c' = .close stage' := by
        cases hs <;> exact ⟨rfl, _, rfl⟩
      obtain ⟨ha, stage', rfl⟩ := hclose
      refine ⟨htoken, by rw [conn_set, ha]; exact h.outside, ?_⟩
      intro data stage hc'
      rw [calls_set_self] at hc'
      cases hc'
  | write data stage =>
      rcases h.stage data stage hc with rfl | rfl
      · cases hs with
        | fastClosed _ =>
            refine ⟨htoken, h.outside, ?_⟩
            intro data' stage' hc'
            rw [calls_set_self] at hc'
            cases hc'
            exact .inr rfl
        | fastOpen hopen =>
            rw [TcpConn.isClosed, h.token] at hopen
            cases hopen
      · cases hs

lemma Refused.step (h : Refused k s) (hs : Step s o s') : Refused k s' := by
  cases hs with
  | @beginWrite k' data hk' =>
      by_cases hk : k = k'
      · subst hk
        refine ⟨h.token, h.outside, ?_⟩
        intro data' stage' hc'
        rw [calls_set_self] at hc'
        cases hc'
        exact .inl rfl
      · exact h.set_other hk id (.inl rfl)
  | @beginClose k' hk' =>
      by_cases hk : k = k'
      · subst hk
        refine ⟨h.token, h.outside, ?_⟩
        intro data' stage' hc'
        rw [calls_set_self] at hc'
        cases hc'
      · exact h.set_other hk id (.inl rfl)
  | resetHeartbeats => exact ⟨h.token, h.outside, h.stage⟩
  | incrementHeartbeats => exact ⟨h.token, h.outside, h.stage⟩
  | @call k' c c' conn hc hs =>
      by_cases hk : k = k'
      · subst hk
        exact h.set_self hc hs
      · exact h.set_other hk (cancelToken_of_callStep hs)
          ((acquired_of_callStep hs).imp_right And.left)

/-- A call that has not begun when the token is cancelled. -/
lemma refused_of_absent (hr : (lts κ).Reach s) (ht : s.conn.cancelToken = true)
    (hk : s.calls k = none) : Refused k s := by
  refine ⟨ht, ?_, ?_⟩
  · intro hmem
    have htook := (turns_of_reach hr).took k hmem
    rw [on_of_none hk] at htook
    cases htook
  · intro data stage hc
    rw [hk] at hc
    cases hc

/-- The connection is closed, and so it is in every later state, where every write that was begun
since has put nothing on the socket and returns an error. -/
def ClosedForGood (s : SharedConn κ) : Prop :=
  ∀ s', (lts κ).Leads s s' → s'.conn.isClosed = true ∧
    ∀ k data stage, s.calls k = none → s'.calls k = some (.write data stage) →
      k ∉ s'.conn.acquired ∧ (stage = .start ∨ stage = .returned (.error connectionClosed))

lemma closedForGood_of_token (hr : (lts κ).Reach s) (ht : s.conn.cancelToken = true) :
    ClosedForGood s := by
  intro s' hl
  have hstable : s'.conn.cancelToken = true :=
    hl.stable (P := fun t => t.conn.cancelToken = true)
      (fun _ _ _ _ hc hs => cancelToken_of_step hs hc) hr ht
  refine ⟨hstable, ?_⟩
  intro k data stage hk hc
  have hrefused : Refused k s' :=
    hl.stable (P := Refused k) (fun _ _ _ _ hi hs => hi.step hs) hr (refused_of_absent hr ht hk)
  exact ⟨hrefused.outside, hrefused.stage data stage hc⟩

/-- **What `Ok` promises.**  In a run in which no close overtakes another, a close that has returned
`Ok` has closed the connection for good; and the first close that overtakes another returns `Ok` on
an open connection. -/
theorem close_ok_means_closed (h : (lts κ).ReachBy NoOvertake s) :
    (∀ k, s.calls k = some (.close (.returned (.ok ()))) → ClosedForGood s) ∧
    ∀ k s', (lts κ).Step s (some k) s' → ¬ NoOvertake s (some k) →
      s'.calls k = some (.close (.returned (.ok ()))) ∧ s'.conn.isClosed = false := by
  constructor
  · intro k hk
    exact closedForGood_of_token h.reach (cancelled_of_reachBy h k (on_eq hk))
  · intro k s' hs hok
    simp only [NoOvertake, not_forall, Bool.not_eq_true] at hok
    obtain ⟨k', hkk, hk, hclosed, htoken⟩ := hok
    obtain rfl : k = k' := Option.some.inj hkk
    cases hs with
    | beginWrite data hnone => simp [hk] at hnone
    | beginClose hnone => simp [hk] at hnone
    | call hc hs =>
        rw [hk] at hc
        cases hc
        cases hs with
        | swapClosed _ => exact ⟨calls_set_self, htoken⟩
        | swapOpen hopen => simp [hclosed] at hopen

section Example

omit [DecidableEq κ] in
lemma noOvertake_of_open {o : Option κ} (h : s.conn.closed = false) : NoOvertake s o := by
  intro k _ _ hclosed
  rw [h] at hclosed
  cases hclosed

/-- A step of a call in a run, other than one that overtakes. -/
lemma reachBy_call {k : κ} {c c' : Call} {conn : TcpConn κ} (h : (lts κ).ReachBy NoOvertake s)
    (hc : s.calls k = some c) (hok : c ≠ .close .start ∨ s.conn.cancelToken = true)
    (hs : CallStep k s.conn c conn c') : (lts κ).ReachBy NoOvertake (s.set k conn c') := by
  refine h.step ?_ (.call hc hs)
  rintro _ ⟨⟩ hk hclosed
  obtain hne | htoken := hok
  · exact absurd (Option.some.inj (hc.symm.trans hk)) hne
  · exact htoken

/-- A close waits for the lock of a write while another write waits for it too; a second close comes
when the first one has cancelled the token. -/
theorem close_ok_means_closed_waiting : ∃ s : SharedConn (Fin 5),
    (lts (Fin 5)).ReachBy NoOvertake s ∧
    s.calls 0 = some (.write [1] (.returned (.ok ()))) ∧
    s.calls 1 = some (.close (.returned (.ok ()))) ∧
    s.calls 2 = some (.write [2] (.returned (.error connectionClosed))) ∧
    s.calls 3 = some (.close (.returned (.ok ()))) ∧ s.calls 4 = none ∧ ClosedForGood s := by
  have h : (lts (Fin 5)).ReachBy NoOvertake new := .init rfl
  have h := h.step (noOvertake_of_open rfl) (Step.beginWrite (k := 0) [1] rfl)
  have h := h.step (noOvertake_of_open rfl) (Step.beginClose (k := 1) rfl)
  have h := h.step (noOvertake_of_open rfl) (Step.beginWrite (k := 2) [2] rfl)
  have h := h.step (noOvertake_of_open rfl) (Step.beginClose (k := 3) rfl)
  -- the close waits for the lock of the first write
  have h := reachBy_call (k := 0) h rfl (.inl (by simp)) (.fastOpen rfl)
  have h := reachBy_call (k := 2) h rfl (.inl (by simp)) (.fastOpen rfl)
  have h := reachBy_call (k := 0) h rfl (.inl (by simp)) (.writeLock rfl)
  have h := h.step (noOvertake_of_open rfl) (Step.call (k := 1) rfl (.swapOpen rfl))
  have h := reachBy_call (k := 0) h rfl (.inl (by simp)) (.slowOpen rfl)
  have h := reachBy_call (k := 0) h rfl (.inl (by simp)) (.put [1] [] rfl)
  have h := reachBy_call (k := 0) h rfl (.inl (by simp)) .writeAllOk
  have h := reachBy_call (k := 0) h rfl (.inl (by simp)) (.writeUnlock (.ok ()))
  dsimp only [conn_set] at h
  -- it cancels the token, and the second write and the second close find it cancelled
  have h := reachBy_call (k := 1) h rfl (.inl (by simp)) (.closeLock rfl)
  have h := reachBy_call (k := 1) h rfl (.inl (by simp)) .cancel
  have h := reachBy_call (k := 3) h rfl (.inr rfl) (.swapClosed rfl)
  have h := reachBy_call (k := 1) h rfl (.inl (by simp)) .shutdown
  have h := reachBy_call (k := 1) h rfl (.inl (by simp)) (.shutdownDone (.ok ()))
  have h := reachBy_call (k := 1) h rfl (.inl (by simp)) (.closeUnlock (.ok ()))
  have h := reachBy_call (k := 2) h rfl (.inl (by simp)) (.writeLock rfl)
  have h := reachBy_call (k := 2) h rfl (.inl (by simp)) (.slowClosed rfl)
  have h := reachBy_call (k := 2) h rfl (.inl (by simp)) (.writeUnlock (.error connectionClosed))
  dsimp only [conn_set] at h
  exact ⟨_, h, rfl, rfl, rfl, rfl, rfl, (close_ok_means_closed h).1 1 rfl⟩

/-- Two closes: the first waits for the lock, and the second has returned `Ok`. -/
def overtaken : SharedConn (Fin 3) :=
  ((((new.set 0 .new (.close .start)).set 0 { TcpConn.new with closed := true }
    (.close .waiting)).set 1 { TcpConn.new with closed := true } (.close .start)).set 1
      { TcpConn.new with closed := true } (.close (.returned (.ok ()))))

lemma reach_overtaken : (lts (Fin 3)).Reach overtaken := by
  have h0 : (lts (Fin 3)).Reach new := .init rfl
  have h1 := h0.step (Step.beginClose (k := 0) rfl)
  have h2 := h1.step (Step.call (k := 0) rfl (.swapOpen rfl))
  have h3 := h2.step (Step.beginClose (k := 1) rfl)
  exact h3.step (Step.call (k := 1) rfl (.swapClosed rfl))

/-- A close that overtakes another returns `Ok` while the connection is open, and a write that is
begun after that puts its byte on the socket and returns `Ok`. -/
theorem overtaking_close_is_not_closed :
    (lts (Fin 3)).Reach overtaken ∧ overtaken.calls 1 = some (.close (.returned (.ok ()))) ∧
      overtaken.conn.isClosed = false ∧ overtaken.calls 2 = none ∧
      ∃ s', (lts (Fin 3)).Leads overtaken s' ∧ s'.conn.isClosed = false ∧ s'.conn.out = [7] ∧
        s'.calls 2 = some (.write [7] (.returned (.ok ()))) := by
  refine ⟨reach_overtaken, rfl, rfl, rfl, ?_⟩
  have h0 : (lts (Fin 3)).Leads overtaken overtaken := .refl _
  have h1 := h0.tail (Step.beginWrite (k := 2) [7] rfl)
  have h2 := h1.tail (Step.call (k := 2) rfl (.fastOpen rfl))
  have h3 := h2.tail (Step.call (k := 2) rfl (.writeLock rfl))
  have h4 := h3.tail (Step.call (k := 2) rfl (.slowOpen rfl))
  have h5 := h4.tail (Step.call (k := 2) rfl (.put [7] [] rfl))
  have h6 := h5.tail (Step.call (k := 2) rfl .writeAllOk)
  have h7 := h6.tail (Step.call (k := 2) rfl (.writeUnlock (.ok ())))
  exact ⟨_, h7, rfl, rfl, rfl⟩

end Example

end SharedConn

end Fernq
