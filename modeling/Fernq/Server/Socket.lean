import Mathlib.Tactic
import Fernq.Server.Conn

/-!
What a connection puts on its socket.

* `Locked`: the writer lock is held by the one call whose stage says so.
* `Turns`: a write that puts bytes on the socket is the last one that got the lock.
* `Spent`: no byte is put on the socket any more; `Spent.callStep`, `Spent.out_eq`.
* `ClosedOnce`: at most one call of `close` gets past the swap of the flag.
* `Tail`: what is on the socket behind the whole writes.
* `socket_output`: the socket carries the data of the writes that returned `Ok` in the order
  in which they got the lock, then at most a part of one other write.
-/

namespace Fernq

namespace TcpConn.Call

/-- A write that has, or had, the lock if it ever waited for it successfully. -/
def tookTurn : Call → Bool
  | .write _ .start | .write _ .waiting => false
  | .write _ _ => true
  | .close _ => false

/-- A write that surely had the lock. -/
def ownsTurn : Call → Bool
  | .write _ .start | .write _ .waiting | .write _ (.returned (.error _)) => false
  | .write _ _ => true
  | .close _ => false

/-- A write that holds the lock. -/
def holdsWrite : Call → Bool
  | .write _ .locked | .write _ (.sending _) | .write _ .expired | .write _ (.leaving _) => true
  | _ => false

/-- A write inside `write_all`. -/
def sending : Call → Bool
  | .write _ (.sending _) => true
  | _ => false

/-- A write inside `write_all`, or on its way out with `Ok`. -/
def busy : Call → Bool
  | .write _ (.sending _) | .write _ (.leaving (.ok ())) => true
  | _ => false

/-- A write whose `write_all` timed out and that has not cancelled the token. -/
def expired : Call → Bool
  | .write _ .expired => true
  | _ => false

/-- A write that has failed. -/
def failed : Call → Bool
  | .write _ .expired | .write _ (.leaving (.error _)) | .write _ (.returned (.error _)) => true
  | _ => false

/-- A write that returned `Ok`. -/
def wroteOk : Call → Bool
  | .write _ (.returned (.ok ())) => true
  | _ => false

/-- A write that returned an error. -/
def wroteErr : Call → Bool
  | .write _ (.returned (.error _)) => true
  | _ => false

/-- A close past the swap that has not called `shutdown`. -/
def beforeShutdown : Call → Bool
  | .close .waiting | .close .expired | .close .locked | .close .cancelled => true
  | _ => false

/-- A close past the swap that has not returned. -/
def closing : Call → Bool
  | .close .start | .close (.returned _) => false
  | .close _ => true
  | .write _ _ => false

/-- A close that has cancelled the token and not called `shutdown`. -/
def atShutdown : Call → Bool
  | .close .cancelled => true
  | _ => false

lemma holds_of_holdsWrite {c : Call} (h : c.holdsWrite = true) : c.holds = true := by
  cases c with
  | write data stage => cases stage <;> first | rfl | cases h
  | close stage => cases h

lemma holds_of_expired {c : Call} (h : c.expired = true) : c.holds = true := by
  cases c with
  | write data stage => cases stage <;> first | rfl | cases h
  | close stage => cases h

lemma holds_of_busy {c : Call} (h : c.busy = true) : c.holds = true := by
  cases c with
  | write data stage => cases stage <;> first | rfl | cases h
  | close stage => cases h

lemma holdsWrite_of_sending {c : Call} (h : c.sending = true) : c.holdsWrite = true := by
  cases c with
  | write data stage => cases stage <;> first | rfl | cases h
  | close stage => cases h

lemma ownsTurn_of_wroteOk {c : Call} (h : c.wroteOk = true) : c.ownsTurn = true := by
  cases c with
  | write data stage =>
      cases stage with
      | returned r => cases r <;> first | rfl | cases h
      | _ => cases h
  | close stage => cases h

lemma failed_of_wroteErr {c : Call} (h : c.wroteErr = true) : c.failed = true := by
  cases c with
  | write data stage =>
      cases stage with
      | returned r => cases r <;> first | rfl | cases h
      | _ => cases h
  | close stage => cases h

lemma wroteOk_of_failed {c : Call} (h : c.failed = true) : c.wroteOk = false := by
  cases c with
  | write data stage =>
      cases stage with
      | returned r => cases r <;> first | rfl | cases h
      | _ => rfl
  | close stage => cases h

lemma closing_of_beforeShutdown {c : Call} (h : c.beforeShutdown = true) : c.closing = true := by
  cases c with
  | write data stage => cases h
  | close stage => cases stage <;> first | rfl | cases h

end TcpConn.Call

/-- A step of a call takes the writer lock for a write, or leaves the list of those that had it. -/
lemma TcpConn.acquired_of_callStep {κ : Type} {k : κ} {conn conn' : TcpConn κ}
    {call call' : TcpConn.Call} (h : TcpConn.CallStep k conn call conn' call') :
    conn'.acquired = conn.acquired ∨
      conn'.acquired = conn.acquired ++ [k] ∧ ∃ data, call = .write data .waiting := by
  cases h with
  | writeLock _ => exact .inr ⟨rfl, _, rfl⟩
  | _ => exact .inl rfl

namespace SharedConn

open TcpConn

variable {κ : Type} {s : SharedConn κ} {k k' : κ} {conn : TcpConn κ} {c c' : Call}

/-! ### The lock -/

/-- The writer lock is held by the call whose stage says so. -/
def Locked (s : SharedConn κ) : Prop := ∀ k, s.conn.writer = some k ↔ s.on Call.holds k = true

lemma Locked.unique (h : Locked s) (hk : s.on Call.holds k = true)
    (hk' : s.on Call.holds k' = true) : k = k' :=
  Option.some_injective _ (((h k).mpr hk).symm.trans ((h k').mpr hk'))

variable [DecidableEq κ]

lemma Locked.set_of_eq (h : Locked s) (hw : conn.writer = s.conn.writer)
    (hf : s.on Call.holds k = c'.holds) : Locked (s.set k conn c') := by
  intro k'
  rw [conn_set, hw, on_set_of_eq hf]
  exact h k'

lemma Locked.set_of_acquire (h : Locked s) (hfree : s.conn.writer = none)
    (hw : conn.writer = some k) (hf : c'.holds = true) : Locked (s.set k conn c') := by
  intro k'
  rw [conn_set, hw]
  by_cases hk : k' = k
  · rw [hk, on_set_self, hf]
    simp
  · rw [on_set_of_ne hk, ← h k', hfree]
    simp [Ne.symm hk]

lemma Locked.set_of_release (h : Locked s) (hk : s.on Call.holds k = true)
    (hw : conn.writer = none) (hf : c'.holds = false) : Locked (s.set k conn c') := by
  intro k'
  rw [conn_set, hw]
  by_cases hk' : k' = k
  · rw [hk', on_set_self, hf]
    simp
  · rw [on_set_of_ne hk', ← h k', (h k).mpr hk]
    simp [Ne.symm hk']

lemma Locked.callStep (h : Locked s) (hc : s.calls k = some c)
    (hs : CallStep k s.conn c conn c') : Locked (s.set k conn c') := by
  have hk := on_eq (f := Call.holds) hc
  cases hs with
  | writeLock hw => exact h.set_of_acquire hw rfl rfl
  | closeLock hw => exact h.set_of_acquire hw rfl rfl
  | writeUnlock r => exact h.set_of_release hk rfl rfl
  | closeUnlock r => exact h.set_of_release hk rfl rfl
  | _ => exact h.set_of_eq rfl hk

theorem locked_of_reach (h : (lts κ).Reach s) : Locked s := by
  refine h.invariant ?_ ?_
  · rintro s rfl k
    simp [SharedConn.new, TcpConn.new, on]
  · rintro s l s' - hi hs
    cases hs with
    | beginWrite data hk => exact hi.set_of_eq rfl (on_of_none hk)
    | beginClose hk => exact hi.set_of_eq rfl (on_of_none hk)
    | call hc hs => exact hi.callStep hc hs
    | resetHeartbeats => exact hi
    | incrementHeartbeats => exact hi

/-- While call `k` holds the lock, no other call is inside `write_all`. -/
lemma Locked.not_sending (h : Locked s) (hk : s.on Call.holds k = true)
    (hc : c'.sending = false) : ∀ k', (s.set k conn c').on Call.sending k' = false := by
  intro k'
  by_cases hk' : k' = k
  · rw [hk', on_set_self, hc]
  · rw [on_set_of_ne hk', ← Bool.not_eq_true]
    intro hsend
    exact hk' (h.unique (on_mono (fun hc => Call.holds_of_holdsWrite
      (Call.holdsWrite_of_sending hc)) hsend) hk)

/-! ### The order of the writes -/

/-- The writes that got the lock: each is listed once, and the one that holds it is the last
of the list. -/
structure Turns (s : SharedConn κ) : Prop where
  nodup : s.conn.acquired.Nodup
  took : ∀ k ∈ s.conn.acquired, s.on Call.tookTurn k = true
  owns : ∀ k, s.on Call.ownsTurn k = true → k ∈ s.conn.acquired
  last : ∀ k, s.on Call.holdsWrite k = true → ∃ before, s.conn.acquired = before ++ [k]

lemma Turns.set_of_eq (h : Turns s) (ha : conn.acquired = s.conn.acquired)
    (htook : s.on Call.tookTurn k = true → c'.tookTurn = true)
    (howns : c'.ownsTurn = true → s.on Call.ownsTurn k = true)
    (hlast : c'.holdsWrite = true → s.on Call.holdsWrite k = true) :
    Turns (s.set k conn c') := by
  refine ⟨ha ▸ h.nodup, ?_, ?_, ?_⟩
  · intro k' hk'
    have hold := h.took k' (ha ▸ hk')
    by_cases hk : k' = k
    · rw [hk, on_set_self]
      exact htook (hk ▸ hold)
    · rwa [on_set_of_ne hk]
  · intro k' hk'
    rw [conn_set, ha]
    by_cases hk : k' = k
    · rw [hk, on_set_self] at hk'
      exact hk ▸ h.owns k (howns hk')
    · rw [on_set_of_ne hk] at hk'
      exact h.owns k' hk'
  · intro k' hk'
    rw [conn_set, ha]
    by_cases hk : k' = k
    · rw [hk, on_set_self] at hk'
      exact hk ▸ h.last k (hlast hk')
    · rw [on_set_of_ne hk] at hk'
      exact h.last k' hk'

lemma Turns.callStep (hl : Locked s) (h : Turns s) (hc : s.calls k = some c)
    (hs : CallStep k s.conn c conn c') : Turns (s.set k conn c') := by
  have htook := on_eq (f := Call.tookTurn) hc
  have howns := on_eq (f := Call.ownsTurn) hc
  have hlast := on_eq (f := Call.holdsWrite) hc
  cases hs with
  | writeLock hw =>
      have hnew : k ∉ s.conn.acquired := by
        intro hmem
        rw [h.took k hmem] at htook
        cases htook
      refine ⟨?_, ?_, ?_, ?_⟩
      · exact List.nodup_append.mpr ⟨h.nodup, List.nodup_singleton k, by
          rintro a ha b hb rfl
          exact hnew (List.mem_singleton.mp hb ▸ ha)⟩
      · intro k' hk'
        by_cases hk : k' = k
        · rw [hk, on_set_self]
          rfl
        · rw [on_set_of_ne hk]
          rcases List.mem_append.mp hk' with hk' | hk'
          · exact h.took k' hk'
          · exact absurd (List.mem_singleton.mp hk') hk
      · intro k' hk'
        by_cases hk : k' = k
        · rw [hk]
          exact List.mem_append_right _ (List.mem_singleton_self k)
        · rw [on_set_of_ne hk] at hk'
          exact List.mem_append_left _ (h.owns k' hk')
      · intro k' hk'
        by_cases hk : k' = k
        · exact ⟨s.conn.acquired, hk ▸ rfl⟩
        · rw [on_set_of_ne hk] at hk'
          have hheld := (hl k').mpr (on_mono Call.holds_of_holdsWrite hk')
          rw [hw] at hheld
          cases hheld
  | _ =>
      refine h.set_of_eq rfl ?_ ?_ ?_
      · rw [htook]
        simp [Call.tookTurn]
      · rw [howns]
        simp [Call.ownsTurn]
      · rw [hlast]
        simp [Call.holdsWrite]

theorem turns_of_reach (h : (lts κ).Reach s) : Turns s := by
  refine h.invariant ?_ ?_
  · rintro s rfl
    refine ⟨List.nodup_nil, ?_, ?_, ?_⟩
    · rintro k hk
      cases hk
    · rintro k hk
      cases hk
    · rintro k hk
      cases hk
  · rintro s l s' hr hi hs
    cases hs with
    | beginWrite data hk => exact hi.set_of_eq rfl (by simp [on_of_none hk]) nofun nofun
    | beginClose hk => exact hi.set_of_eq rfl (by simp [on_of_none hk]) nofun nofun
    | call hc hs => exact hi.callStep (locked_of_reach hr) hc hs
    | resetHeartbeats => exact ⟨hi.nodup, hi.took, hi.owns, hi.last⟩
    | incrementHeartbeats => exact ⟨hi.nodup, hi.took, hi.owns, hi.last⟩

/-! ### Spent connections -/

/-- No byte is put on the socket any more: the socket is broken, or no call is inside
`write_all` and none can get there. -/
def Spent (s : SharedConn κ) : Prop :=
  s.conn.broken = true ∨ ((∀ k, s.on Call.sending k = false) ∧
    (s.conn.cancelToken = true ∨ ∃ k, s.on Call.expired k = true))

lemma Spent.set (h : Spent s) (hb : s.conn.broken = true → conn.broken = true)
    (ht : s.conn.cancelToken = true → conn.cancelToken = true)
    (hs : c'.sending = true → s.on Call.sending k = true)
    (he : s.on Call.expired k = true → c'.expired = true ∨ conn.cancelToken = true) :
    Spent (s.set k conn c') := by
  rcases h with h | ⟨hquiet, hdead⟩
  · exact Or.inl (hb h)
  · refine Or.inr ⟨?_, ?_⟩
    · intro k'
      rcases eq_or_ne k' k with rfl | hk
      · rw [on_set_self, ← Bool.not_eq_true]
        intro hsend
        have := hs hsend
        rw [hquiet k'] at this
        cases this
      · rw [on_set_of_ne hk]
        exact hquiet k'
    · rcases hdead with htoken | ⟨k', hk'⟩
      · exact Or.inl (ht htoken)
      · rcases eq_or_ne k' k with rfl | hk
        · rcases he hk' with hexp | htoken
          · exact Or.inr ⟨k', by rwa [on_set_self]⟩
          · exact Or.inl htoken
        · exact Or.inr ⟨k', by rwa [on_set_of_ne hk]⟩

/-- A connection stays spent. -/
lemma Spent.callStep (hl : Locked s) (h : Spent s) (hc : s.calls k = some c)
    (hs : CallStep k s.conn c conn c') : Spent (s.set k conn c') := by
  have hsend := on_eq (f := Call.sending) hc
  have hexp := on_eq (f := Call.expired) hc
  have hholds := on_eq (f := Call.holds) hc
  cases hs with
  | slowOpen hopen =>
      rcases h with hbroken | ⟨-, htoken | ⟨k', hk'⟩⟩
      · exact Or.inl hbroken
      · rw [isClosed, htoken] at hopen
        cases hopen
      · -- the call that timed out would hold the lock as well
        have hk := hl.unique (on_mono Call.holds_of_expired hk') hholds
        rw [hk, hexp] at hk'
        cases hk'
  | writeAllErr rest e => exact Or.inl rfl
  | writeAllTimeout rest =>
      rcases h with hbroken | ⟨hquiet, -⟩
      · exact Or.inl hbroken
      · rw [hquiet k] at hsend
        cases hsend
  | writeCancel => exact h.set id (fun _ => rfl) nofun fun _ => Or.inr rfl
  | cancelExpired => exact h.set id (fun _ => rfl) nofun fun _ => Or.inr rfl
  | cancel => exact h.set id (fun _ => rfl) nofun fun _ => Or.inr rfl
  | _ =>
      refine h.set id id ?_ ?_
      · rw [hsend]
        simp [Call.sending]
      · rw [hexp]
        simp [Call.expired]

lemma Spent.step {l : Option κ} (hl : Locked s) (h : Spent s) {s' : SharedConn κ}
    (hs : Step s l s') : Spent s' := by
  cases hs with
  | beginWrite data hk => exact h.set id id nofun (by simp [on_of_none hk])
  | beginClose hk => exact h.set id id nofun (by simp [on_of_none hk])
  | call hc hs => exact h.callStep hl hc hs
  | resetHeartbeats => exact h
  | incrementHeartbeats => exact h

/-- On a spent connection no step puts a byte on the socket. -/
lemma Spent.out_eq {l : Option κ} (h : Spent s) {s' : SharedConn κ} (hs : Step s l s') :
    s'.conn.out = s.conn.out := by
  cases hs with
  | call hc hs =>
      have hsend := on_eq (f := Call.sending) hc
      cases hs with
      | put chunk rest hopen =>
          rcases h with hbroken | ⟨hquiet, -⟩
          · rw [hbroken] at hopen
            cases hopen
          · rw [hquiet] at hsend
            cases hsend
      | _ => rfl
  | _ => rfl

/-- A spent connection carries the same bytes ever after. -/
theorem Spent.out_eq_of_leads (hr : (lts κ).Reach s) (h : Spent s) {s' : SharedConn κ}
    (hl : (lts κ).Leads s s') : s'.conn.out = s.conn.out := by
  refine (hl.stable (P := fun t => Spent t ∧ t.conn.out = s.conn.out) ?_ hr ⟨h, rfl⟩).2
  rintro t l t' ht ⟨hspent, hout⟩ hs
  exact ⟨hspent.step (locked_of_reach ht) hs, (hspent.out_eq hs).trans hout⟩

/-- What makes a connection spent: a write that had the lock and failed, or the call of
`shutdown`. -/
structure Settled (s : SharedConn κ) : Prop where
  failed : ∀ k ∈ s.conn.acquired, s.on Call.failed k = true → Spent s
  shutdown : 0 < s.conn.shutdowns → Spent s
  token : ∀ k, s.on Call.atShutdown k = true → s.conn.cancelToken = true

lemma Settled.set_of_eq (h : Settled s) (hspent : Spent s → Spent (s.set k conn c'))
    (ha : conn.acquired = s.conn.acquired) (hd : conn.shutdowns = s.conn.shutdowns)
    (ht : s.conn.cancelToken = true → conn.cancelToken = true)
    (hfailed : k ∈ s.conn.acquired → c'.failed = true → s.on Call.failed k = true)
    (hat : c'.atShutdown = true → s.on Call.atShutdown k = true) :
    Settled (s.set k conn c') := by
  refine ⟨?_, ?_, ?_⟩
  · intro k' hk' hf
    rw [conn_set, ha] at hk'
    rcases eq_or_ne k' k with rfl | hk
    · rw [on_set_self] at hf
      exact hspent (h.failed k' hk' (hfailed hk' hf))
    · rw [on_set_of_ne hk] at hf
      exact hspent (h.failed k' hk' hf)
  · intro hpos
    rw [conn_set, hd] at hpos
    exact hspent (h.shutdown hpos)
  · intro k' hk'
    refine ht (h.token k' ?_)
    rcases eq_or_ne k' k with rfl | hk
    · rw [on_set_self] at hk'
      exact hat hk'
    · rwa [on_set_of_ne hk] at hk'

/-- A step after which the connection is spent. -/
lemma Settled.set_of_spent (h : Settled s) (hspent : Spent (s.set k conn c'))
    (ht : s.conn.cancelToken = true → conn.cancelToken = true)
    (hat : c'.atShutdown = true → conn.cancelToken = true) : Settled (s.set k conn c') := by
  refine ⟨fun _ _ _ => hspent, fun _ => hspent, fun k' hk' => ?_⟩
  rcases eq_or_ne k' k with rfl | hk
  · rw [on_set_self] at hk'
    exact hat hk'
  · rw [on_set_of_ne hk] at hk'
    exact ht (h.token k' hk')

lemma Settled.callStep (hl : Locked s) (ht : Turns s) (h : Settled s) (hc : s.calls k = some c)
    (hs : CallStep k s.conn c conn c') : Settled (s.set k conn c') := by
  have hspent : Spent s → Spent (s.set k conn c') := fun hsp => hsp.callStep hl hc hs
  have htook := on_eq (f := Call.tookTurn) hc
  have hfailed := on_eq (f := Call.failed) hc
  have hholds := on_eq (f := Call.holds) hc
  have hat := on_eq (f := Call.atShutdown) hc
  -- a call that never had the lock is not in the list
  have hnew : c.tookTurn = false → k ∉ s.conn.acquired := by
    intro hno hmem
    rw [ht.took k hmem, hno] at htook
    cases htook
  cases hs with
  | fastClosed _ =>
      exact h.set_of_eq hspent rfl rfl id (fun hmem _ => absurd hmem (hnew rfl)) nofun
  | writeLockTimeout =>
      exact h.set_of_eq hspent rfl rfl id (fun hmem _ => absurd hmem (hnew rfl)) nofun
  | writeLock _ =>
      refine ⟨fun k' hk' hf => ?_, fun hpos => hspent (h.shutdown hpos), fun k' hk' => ?_⟩
      · rcases eq_or_ne k' k with rfl | hk
        · rw [on_set_self] at hf
          cases hf
        · rw [on_set_of_ne hk] at hf
          rcases List.mem_append.mp hk' with hk' | hk'
          · exact hspent (h.failed k' hk' hf)
          · exact absurd (List.mem_singleton.mp hk') hk
      · rcases eq_or_ne k' k with rfl | hk
        · rw [on_set_self] at hk'
          cases hk'
        · rw [on_set_of_ne hk] at hk'
          exact h.token k' hk'
  | slowClosed hclosed =>
      exact h.set_of_spent (Or.inr ⟨hl.not_sending hholds rfl, Or.inl hclosed⟩) id nofun
  | writeAllErr rest e => exact h.set_of_spent (Or.inl rfl) id nofun
  | writeAllTimeout rest =>
      exact h.set_of_spent
        (Or.inr ⟨hl.not_sending hholds rfl, Or.inr ⟨k, on_set_self⟩⟩) id nofun
  | writeCancel =>
      exact h.set_of_spent (Or.inr ⟨hl.not_sending hholds rfl, Or.inl rfl⟩) (fun _ => rfl) nofun
  | cancel =>
      exact h.set_of_spent (Or.inr ⟨hl.not_sending hholds rfl, Or.inl rfl⟩) (fun _ => rfl)
        (fun _ => rfl)
  | cancelExpired => exact h.set_of_eq hspent rfl rfl (fun _ => rfl) nofun nofun
  | shutdown =>
      have htoken : s.conn.cancelToken = true := h.token k hat
      exact h.set_of_spent (Or.inr ⟨hl.not_sending hholds rfl, Or.inl htoken⟩) id nofun
  | writeUnlock r =>
      refine h.set_of_eq hspent rfl rfl id (fun _ hf => hfailed.trans ?_) nofun
      cases r <;> exact hf
  | _ => exact h.set_of_eq hspent rfl rfl id (fun _ hf => nomatch hf) (fun hf => nomatch hf)

theorem settled_of_reach (h : (lts κ).Reach s) : Settled s := by
  refine h.invariant ?_ ?_
  · rintro s rfl
    refine ⟨?_, ?_, ?_⟩
    · rintro k hk
      cases hk
    · rintro hpos
      cases hpos
    · rintro k hk
      cases hk
  · rintro s l s' hr hi hs
    have hspent : Spent s → Spent s' := fun hsp => hsp.step (locked_of_reach hr) hs
    cases hs with
    | beginWrite data hk => exact hi.set_of_eq hspent rfl rfl id (fun _ => nofun) nofun
    | beginClose hk => exact hi.set_of_eq hspent rfl rfl id (fun _ => nofun) nofun
    | call hc hs => exact hi.callStep (locked_of_reach hr) (turns_of_reach hr) hc hs
    | resetHeartbeats => exact ⟨hi.failed, hi.shutdown, hi.token⟩
    | incrementHeartbeats => exact ⟨hi.failed, hi.shutdown, hi.token⟩

/-! ### The calls of `close` -/

/-- One call of `close` at most gets past the swap, and `shutdown` is called once at most. -/
structure ClosedOnce (s : SharedConn κ) : Prop where
  idle : s.conn.closed = false → (∀ k, s.on Call.closing k = false) ∧ s.conn.shutdowns = 0
  unique : ∀ k k', s.on Call.closing k = true → s.on Call.closing k' = true → k = k'
  before : ∀ k, s.on Call.beforeShutdown k = true → s.conn.shutdowns = 0
  once : s.conn.shutdowns ≤ 1

lemma ClosedOnce.set_of_eq (h : ClosedOnce s) (hclosed : conn.closed = s.conn.closed)
    (hd : conn.shutdowns = s.conn.shutdowns)
    (hclosing : c'.closing = true → s.on Call.closing k = true)
    (hbefore : c'.beforeShutdown = true → s.on Call.beforeShutdown k = true) :
    ClosedOnce (s.set k conn c') := by
  have hold : ∀ k', (s.set k conn c').on Call.closing k' = true → s.on Call.closing k' = true := by
    intro k' hk'
    rcases eq_or_ne k' k with rfl | hk
    · rw [on_set_self] at hk'
      exact hclosing hk'
    · rwa [on_set_of_ne hk] at hk'
  refine ⟨?_, ?_, ?_, ?_⟩
  · intro hopen
    rw [conn_set, hclosed] at hopen
    refine ⟨?_, hd.trans (h.idle hopen).2⟩
    intro k'
    rw [← Bool.not_eq_true]
    intro hk'
    have := hold k' hk'
    rw [(h.idle hopen).1 k'] at this
    cases this
  · intro k₁ k₂ h₁ h₂
    exact h.unique k₁ k₂ (hold k₁ h₁) (hold k₂ h₂)
  · intro k' hk'
    rw [conn_set, hd]
    rcases eq_or_ne k' k with rfl | hk
    · rw [on_set_self] at hk'
      exact h.before k' (hbefore hk')
    · rw [on_set_of_ne hk] at hk'
      exact h.before k' hk'
  · rw [conn_set, hd]
    exact h.once

lemma ClosedOnce.callStep (h : ClosedOnce s) (hc : s.calls k = some c)
    (hs : CallStep k s.conn c conn c') : ClosedOnce (s.set k conn c') := by
  have hclosing := on_eq (f := Call.closing) hc
  have hbefore := on_eq (f := Call.beforeShutdown) hc
  cases hs with
  | swapOpen hopen =>
      obtain ⟨hquiet, hzero⟩ := h.idle hopen
      have honly : ∀ k', (s.set k { s.conn with closed := true } (.close .waiting)).on
          Call.closing k' = true → k' = k := by
        intro k' hk'
        by_contra hk
        rw [on_set_of_ne hk, hquiet k'] at hk'
        cases hk'
      exact ⟨nofun, fun k₁ k₂ h₁ h₂ => (honly k₁ h₁).trans (honly k₂ h₂).symm, fun _ _ => hzero,
        h.once⟩
  | shutdown =>
      have hzero := h.before k hbefore
      have honly : ∀ k', s.on Call.closing k' = true → k' = k :=
        fun k' hk' => h.unique k' k hk' hclosing
      refine ⟨?_, ?_, ?_, ?_⟩
      · intro hopen
        have := (h.idle hopen).1 k
        rw [hclosing] at this
        cases this
      · intro k₁ k₂ h₁ h₂
        rcases eq_or_ne k₁ k with rfl | hk₁
        · rcases eq_or_ne k₂ k₁ with rfl | hk₂
          · rfl
          · rw [on_set_of_ne hk₂] at h₂
            exact (honly k₂ h₂).symm
        · rw [on_set_of_ne hk₁] at h₁
          exact absurd (honly k₁ h₁) hk₁
      · intro k' hk'
        rcases eq_or_ne k' k with rfl | hk
        · rw [on_set_self] at hk'
          cases hk'
        · rw [on_set_of_ne hk] at hk'
          exact absurd (honly k' (on_mono Call.closing_of_beforeShutdown hk')) hk
      · rw [conn_set, hzero]
  | _ =>
      refine h.set_of_eq rfl rfl ?_ ?_
      · rw [hclosing]
        simp [Call.closing]
      · rw [hbefore]
        simp [Call.beforeShutdown]

theorem closedOnce_of_reach (h : (lts κ).Reach s) : ClosedOnce s := by
  refine h.invariant ?_ ?_
  · rintro s rfl
    exact ⟨fun _ => ⟨fun _ => rfl, rfl⟩, nofun, nofun, Nat.zero_le 1⟩
  · rintro s l s' - hi hs
    cases hs with
    | beginWrite data hk => exact hi.set_of_eq rfl rfl nofun nofun
    | beginClose hk => exact hi.set_of_eq rfl rfl nofun nofun
    | call hc hs => exact hi.callStep hc hs
    | resetHeartbeats => exact ⟨hi.idle, hi.unique, hi.before, hi.once⟩
    | incrementHeartbeats => exact ⟨hi.idle, hi.unique, hi.before, hi.once⟩

/-! ### The bytes on the socket -/

/-- Once the socket is broken, a write inside `write_all` has put nothing on it. -/
def Unsent (s : SharedConn κ) : Prop :=
  s.conn.broken = true → ∀ k data rest, s.calls k = some (.write data (.sending rest)) →
    rest = data

lemma Unsent.callStep (hl : Locked s) (h : Unsent s) (hc : s.calls k = some c)
    (hs : CallStep k s.conn c conn c') : Unsent (s.set k conn c') := by
  have hholds := on_eq (f := Call.holds) hc
  intro hbroken k' data rest hk'
  rcases calls_set_eq_some hk' with ⟨-, hc'⟩ | ⟨hk, hold⟩
  · cases hs with
    | slowOpen _ =>
        cases hc'
        rfl
    | put chunk rest' hopen =>
        rw [conn_set] at hbroken
        rw [hbroken] at hopen
        cases hopen
    | _ => cases hc'
  · have hheld : s.on Call.holds k' = true := on_eq hold
    cases hs with
    | writeAllErr rest' e => exact absurd (hl.unique hheld hholds) hk
    | _ => exact h hbroken k' data rest hold

theorem unsent_of_reach (h : (lts κ).Reach s) : Unsent s := by
  refine h.invariant ?_ ?_
  · rintro s rfl hbroken
    cases hbroken
  · rintro s l s' hr hi hs
    cases hs with
    | beginWrite data hk =>
        rintro hbroken k' data' rest hk'
        rcases calls_set_eq_some hk' with ⟨-, hc'⟩ | ⟨-, hk'⟩
        · cases hc'
        · exact hi hbroken k' data' rest hk'
    | beginClose hk =>
        rintro hbroken k' data' rest hk'
        rcases calls_set_eq_some hk' with ⟨-, hc'⟩ | ⟨-, hk'⟩
        · cases hc'
        · exact hi hbroken k' data' rest hk'
    | call hc hs => exact hi.callStep (locked_of_reach hr) hc hs
    | resetHeartbeats => exact hi
    | incrementHeartbeats => exact hi

/-- The data of the writes that returned `Ok`, in the order in which they got the lock. -/
def delivered (s : SharedConn κ) : List UInt8 :=
  ((s.conn.acquired.filter (s.on Call.wroteOk)).map s.dataOf).flatten

/-- A step after which no further write has returned `Ok`. -/
lemma delivered_set_of_not_ok (hc : s.calls k = some c) (hd : c'.data = c.data)
    (hold : c.wroteOk = false) (hnew : c'.wroteOk = false)
    (ha : conn.acquired = s.conn.acquired ∨ conn.acquired = s.conn.acquired ++ [k]) :
    (s.set k conn c').delivered = s.delivered := by
  have hon : (s.set k conn c').on Call.wroteOk = s.on Call.wroteOk :=
    funext (on_set_of_eq (by rw [on_eq hc, hold, hnew]))
  have hdata : (s.set k conn c').dataOf = s.dataOf :=
    funext (dataOf_set (by rw [dataOf_eq hc, hd]))
  rw [delivered, delivered, hon, hdata, conn_set]
  rcases ha with ha | ha
  · rw [ha]
  · have hk : s.on Call.wroteOk k = false := (on_eq hc).trans hold
    rw [ha, List.filter_append, List.filter_singleton, hk]
    simp

/-- The write that had the lock last returns `Ok`. -/
lemma delivered_set_of_ok (ht : Turns s) (hc : s.calls k = some c) (hd : c'.data = c.data)
    (hheld : c.holdsWrite = true) (hold : c.wroteOk = false) (hnew : c'.wroteOk = true)
    (ha : conn.acquired = s.conn.acquired) :
    (s.set k conn c').delivered = s.delivered ++ c.data := by
  obtain ⟨before, hbefore⟩ := ht.last k ((on_eq hc).trans hheld)
  have hnot : k ∉ before := by
    have hnodup := ht.nodup
    rw [hbefore] at hnodup
    exact fun hmem => List.disjoint_of_nodup_append hnodup hmem (List.mem_singleton_self k)
  have hdata : (s.set k conn c').dataOf = s.dataOf :=
    funext (dataOf_set (by rw [dataOf_eq hc, hd]))
  have hfilter : before.filter ((s.set k conn c').on Call.wroteOk)
      = before.filter (s.on Call.wroteOk) := by
    refine List.filter_congr fun k' hk' => on_set_of_ne ?_
    rintro rfl
    exact hnot hk'
  rw [delivered, delivered, hdata, conn_set, ha, hbefore, List.filter_append, List.filter_append,
    hfilter, List.filter_singleton, List.filter_singleton, on_set_self, hnew, on_eq hc, hold]
  simp [dataOf_eq hc]

/-- What is on the socket behind the whole writes: nothing, what the running write has put
there, or a part of a write that failed, with nothing but empty writes after it. -/
inductive Tail (s : SharedConn κ) : List UInt8 → Prop
  | clean : (∀ k, s.on Call.busy k = false) → Tail s []
  | running {k : κ} {tail rest : List UInt8} :
      s.calls k = some (.write (tail ++ rest) (.sending rest)) → Tail s tail
  | whole {k : κ} {data : List UInt8} :
      s.calls k = some (.write data (.leaving (.ok ()))) → Tail s data
  | cut {k : κ} {tail : List UInt8} : Spent s → k ∈ s.conn.acquired →
      s.on Call.failed k = true → tail <+: s.dataOf k →
      (∀ k data, s.calls k = some (.write data (.leaving (.ok ()))) → data = []) → Tail s tail

/-- The bytes on the socket are whole writes and a tail. -/
def Whole (s : SharedConn κ) : Prop := ∃ tail, s.conn.out = s.delivered ++ tail ∧ Tail s tail

/-- A cut tail stays as it is. -/
lemma Tail.cut_set {tail : List UInt8} (hc : s.calls k = some c) (hd : c'.data = c.data)
    (hspent : Spent (s.set k conn c')) (ha : ∀ k ∈ s.conn.acquired, k ∈ conn.acquired)
    (hfailed : c.failed = true → c'.failed = true)
    (hleaving : ∀ data, c' = .write data (.leaving (.ok ())) → data = []) {k₀ : κ}
    (hmem : k₀ ∈ s.conn.acquired) (hf : s.on Call.failed k₀ = true) (hpre : tail <+: s.dataOf k₀)
    (hempty : ∀ k data, s.calls k = some (.write data (.leaving (.ok ()))) → data = []) :
    Tail (s.set k conn c') tail := by
  refine .cut hspent (ha k₀ hmem) ?_ (by rwa [dataOf_set (by rw [dataOf_eq hc, hd])]) ?_
  · rcases eq_or_ne k₀ k with rfl | hk
    · rw [on_set_self]
      rw [on_eq hc] at hf
      exact hfailed hf
    · rwa [on_set_of_ne hk]
  · intro k' data hk'
    rcases calls_set_eq_some hk' with ⟨-, hc'⟩ | ⟨-, hk'⟩
    · exact hleaving data hc'
    · exact hempty k' data hk'

/-- A step of a call that is outside `write_all` before and after. -/
lemma Tail.set_of_idle {tail : List UInt8} (h : Tail s tail) (hc : s.calls k = some c)
    (hd : c'.data = c.data) (hspent : Spent s → Spent (s.set k conn c'))
    (ha : ∀ k ∈ s.conn.acquired, k ∈ conn.acquired) (hold : c.busy = false)
    (hnew : c'.busy = false) (hfailed : c.failed = true → c'.failed = true) :
    Tail (s.set k conn c') tail := by
  have hne : ∀ {k' d}, s.calls k' = some d → d.busy = true → k' ≠ k := by
    rintro k' d hk' hbusy rfl
    rw [hc, Option.some.injEq] at hk'
    rw [← hk', hold] at hbusy
    cases hbusy
  cases h with
  | clean hquiet =>
      refine .clean ?_
      intro k'
      rw [on_set_of_eq (by rw [on_eq hc, hold, hnew])]
      exact hquiet k'
  | running hk' => exact .running ((calls_set_of_ne (hne hk' rfl)).trans hk')
  | whole hk' => exact .whole ((calls_set_of_ne (hne hk' rfl)).trans hk')
  | cut hsp hmem hf hpre hempty =>
      refine Tail.cut_set hc hd (hspent hsp) ha hfailed ?_ hmem hf hpre hempty
      rintro data rfl
      cases hnew

lemma Tail.slowOpen {tail data : List UInt8} (hl : Locked s) (h : Tail s tail)
    (hc : s.calls k = some (.write data .locked))
    (hspent : Spent s → Spent (s.set k s.conn (.write data (.sending data)))) :
    Tail (s.set k s.conn (.write data (.sending data))) tail := by
  have hholds : s.on Call.holds k = true := on_eq hc
  -- no other write is past the lock
  have hne : ∀ {k' d}, s.calls k' = some d → d.busy = true → False := by
    intro k' d hk' hbusy
    obtain rfl := hl.unique hholds (on_mono Call.holds_of_busy ((on_eq hk').trans hbusy))
    rw [hc, Option.some.injEq] at hk'
    rw [← hk'] at hbusy
    cases hbusy
  cases h with
  | clean _ => exact .running calls_set_self
  | running hk' => exact (hne hk' rfl).elim
  | whole hk' => exact (hne hk' rfl).elim
  | cut hsp hmem hf hpre hempty =>
      exact Tail.cut_set hc rfl (hspent hsp) (fun _ => id) nofun nofun hmem hf hpre hempty

omit [DecidableEq κ] in
/-- A write that is inside `write_all` is the running one, unless the tail is cut. -/
lemma Tail.of_sending {tail data rest : List UInt8} (hl : Locked s) (h : Tail s tail)
    (hc : s.calls k = some (.write data (.sending rest))) :
    data = tail ++ rest ∨ s.conn.broken = true ∧ ∃ k₀ ∈ s.conn.acquired,
      s.on Call.failed k₀ = true ∧ tail <+: s.dataOf k₀ ∧
      ∀ k data, s.calls k = some (.write data (.leaving (.ok ()))) → data = [] := by
  have hholds : s.on Call.holds k = true := on_eq hc
  have hsend : s.on Call.sending k = true := on_eq hc
  cases h with
  | clean hquiet =>
      have hbusy : s.on Call.busy k = true := on_eq hc
      rw [hquiet k] at hbusy
      cases hbusy
  | running hk' =>
      obtain rfl := hl.unique hholds (on_eq hk')
      rw [hc, Option.some.injEq, Call.write.injEq, WriteStage.sending.injEq] at hk'
      obtain ⟨rfl, rfl⟩ := hk'
      exact Or.inl rfl
  | whole hk' =>
      obtain rfl := hl.unique hholds (on_eq hk')
      rw [hc] at hk'
      cases hk'
  | cut hsp hmem hf hpre hempty =>
      rcases hsp with hbroken | ⟨hquiet, -⟩
      · exact Or.inr ⟨hbroken, _, hmem, hf, hpre, hempty⟩
      · rw [hquiet k] at hsend
        cases hsend

/-- A write that fails inside `write_all` cuts the tail. -/
lemma Tail.fail {tail data rest : List UInt8} {stage : WriteStage} (hl : Locked s)
    (ht : Turns s) (h : Tail s tail) (hc : s.calls k = some (.write data (.sending rest)))
    (ha : conn.acquired = s.conn.acquired) (hspent : Spent (s.set k conn (.write data stage)))
    (hf : (Call.write data stage).failed = true) (hne : stage ≠ .leaving (.ok ())) :
    Tail (s.set k conn (.write data stage)) tail := by
  rcases h.of_sending hl hc with hdata | ⟨-, k₀, hmem, hf₀, hpre, hempty⟩
  · refine .cut hspent (ha ▸ ht.owns k (on_eq hc)) (by rwa [on_set_self]) ?_ ?_
    · rw [dataOf_set (by rw [dataOf_eq hc]; rfl), dataOf_eq hc]
      exact ⟨rest, hdata.symm⟩
    · intro k' d hk'
      rcases calls_set_eq_some hk' with ⟨-, heq⟩ | ⟨hk, hold⟩
      · rw [Call.write.injEq] at heq
        exact absurd heq.2 hne
      · exact absurd (hl.unique (on_eq hold) (on_eq hc)) hk
  · refine Tail.cut_set hc rfl hspent (fun _ hk => ha ▸ hk) nofun ?_ hmem hf₀ hpre hempty
    intro d heq
    rw [Call.write.injEq] at heq
    exact absurd heq.2 hne

lemma Whole.set_of_not_ok {tail : List UInt8} (hc : s.calls k = some c) (hd : c'.data = c.data)
    (hold : c.wroteOk = false) (hnew : c'.wroteOk = false)
    (ha : conn.acquired = s.conn.acquired ∨ conn.acquired = s.conn.acquired ++ [k])
    (hout : conn.out = s.delivered ++ tail) (htail : Tail (s.set k conn c') tail) :
    Whole (s.set k conn c') :=
  ⟨tail, by rw [conn_set, hout, delivered_set_of_not_ok hc hd hold hnew ha], htail⟩

/-- A write returns `Ok`. -/
lemma Whole.writeUnlock {data : List UInt8} (hl : Locked s) (ht : Turns s) (h : Whole s)
    (hc : s.calls k = some (.write data (.leaving (.ok ())))) (ha : conn.acquired = s.conn.acquired)
    (hout : conn.out = s.conn.out)
    (hspent : Spent s → Spent (s.set k conn (.write data (.returned (.ok ()))))) :
    Whole (s.set k conn (.write data (.returned (.ok ())))) := by
  have hholds : s.on Call.holds k = true := on_eq hc
  have hdel : (s.set k conn (.write data (.returned (.ok ())))).delivered = s.delivered ++ data :=
    delivered_set_of_ok ht hc rfl rfl rfl rfl ha
  obtain ⟨tail, htailout, htail⟩ := h
  cases htail with
  | clean hquiet =>
      have hbusy : s.on Call.busy k = true := on_eq hc
      rw [hquiet k] at hbusy
      cases hbusy
  | running hk' =>
      obtain rfl := hl.unique hholds (on_eq hk')
      rw [hc] at hk'
      cases hk'
  | whole hk' =>
      obtain rfl := hl.unique hholds (on_eq hk')
      rw [hc, Option.some.injEq, Call.write.injEq] at hk'
      obtain ⟨rfl, -⟩ := hk'
      refine ⟨[], by rw [conn_set, hout, htailout, hdel, List.append_nil], .clean fun k' => ?_⟩
      rcases eq_or_ne k' k with rfl | hk
      · rw [on_set_self]
        rfl
      · rw [on_set_of_ne hk, ← Bool.not_eq_true]
        exact fun hbusy => hk (hl.unique (on_mono Call.holds_of_busy hbusy) hholds)
  | cut hsp hmem hf hpre hempty =>
      -- the socket is broken, and the write was empty
      have hdata := hempty k data hc
      subst hdata
      refine ⟨tail, by rw [conn_set, hout, htailout, hdel, List.append_nil], ?_⟩
      exact Tail.cut_set hc rfl (hspent hsp) (fun _ hk => ha ▸ hk) nofun nofun hmem hf hpre hempty

/-- What one step of a call does to the socket. -/
lemma Whole.callStep (hl : Locked s) (ht : Turns s) (hu : Unsent s) (h : Whole s)
    (hc : s.calls k = some c) (hs : CallStep k s.conn c conn c') : Whole (s.set k conn c') := by
  have hspent : Spent s → Spent (s.set k conn c') := fun hsp => hsp.callStep hl hc hs
  obtain ⟨tail, hout, htail⟩ := id h
  cases hs with
  | slowOpen hopen =>
      exact .set_of_not_ok hc rfl rfl rfl (Or.inl rfl) hout (htail.slowOpen hl hc hspent)
  | put chunk rest hopen =>
      have hput : s.conn.out ++ chunk = s.delivered ++ (tail ++ chunk) := by
        rw [hout, List.append_assoc]
      refine .set_of_not_ok hc rfl rfl rfl (Or.inl rfl) hput ?_
      rcases htail.of_sending hl hc with rfl | ⟨hbroken, -⟩
      · rw [← List.append_assoc]
        exact .running calls_set_self
      · rw [hbroken] at hopen
        cases hopen
  | writeAllOk =>
      refine .set_of_not_ok hc rfl rfl rfl (Or.inl rfl) hout ?_
      rcases htail.of_sending hl hc with hdata | ⟨hbroken, k₀, hmem, hf, hpre, hempty⟩
      · rw [List.append_nil] at hdata
        rw [← hdata]
        exact .whole calls_set_self
      · refine Tail.cut_set hc rfl (hspent (Or.inl hbroken)) (fun _ => id) nofun ?_ hmem hf hpre
          hempty
        rintro d heq
        rw [Call.write.injEq] at heq
        rw [← heq.1]
        exact (hu hbroken k _ [] hc).symm
  | writeAllErr rest e =>
      exact .set_of_not_ok hc rfl rfl rfl (Or.inl rfl) hout
        (htail.fail hl ht hc rfl (Or.inl rfl) rfl nofun)
  | writeAllTimeout rest =>
      exact .set_of_not_ok hc rfl rfl rfl (Or.inl rfl) hout (htail.fail hl ht hc rfl
        (Or.inr ⟨hl.not_sending (on_eq hc) rfl, Or.inr ⟨k, on_set_self⟩⟩) rfl nofun)
  | writeUnlock r =>
      cases r with
      | error e =>
          exact .set_of_not_ok hc rfl rfl rfl (Or.inl rfl) hout
            (htail.set_of_idle hc rfl hspent (fun _ => id) rfl rfl id)
      | ok u => exact h.writeUnlock hl ht hc rfl rfl hspent
  | writeLock hw =>
      exact .set_of_not_ok hc rfl rfl rfl (Or.inr rfl) hout
        (htail.set_of_idle hc rfl hspent (fun _ => List.mem_append_left _) rfl rfl nofun)
  | _ =>
      refine .set_of_not_ok hc rfl rfl rfl (Or.inl rfl) hout
        (htail.set_of_idle hc rfl hspent (fun _ => id) rfl rfl ?_)
      simp [Call.failed]

/-- A call is made. -/
lemma Whole.begin (ht : Turns s) (h : Whole s) (hk : s.calls k = none) (hc : c.busy = false)
    (hspent : Spent s → Spent (s.set k s.conn c)) : Whole (s.set k s.conn c) := by
  have hold : ∀ {k' d}, s.calls k' = some d → (s.set k s.conn c).calls k' = some d := by
    intro k' d hk'
    refine (calls_set_of_ne ?_).trans hk'
    rintro rfl
    rw [hk] at hk'
    cases hk'
  have hmem : ∀ k' ∈ s.conn.acquired, k' ≠ k := by
    rintro k' hk' rfl
    have htook := ht.took k' hk'
    rw [on_of_none hk] at htook
    cases htook
  have hdel : (s.set k s.conn c).delivered = s.delivered := by
    rw [delivered, delivered, conn_set, List.filter_congr fun k' hk' => on_set_of_ne (hmem k' hk')]
    refine congrArg List.flatten (List.map_congr_left ?_)
    intro k' hk'
    rw [dataOf, calls_set_of_ne (hmem k' (List.mem_of_mem_filter hk')), dataOf]
  obtain ⟨tail, hout, htail⟩ := h
  refine ⟨tail, hout.trans (by rw [hdel]), ?_⟩
  cases htail with
  | clean hquiet =>
      refine .clean ?_
      intro k'
      rw [on_set_of_eq (by rw [on_of_none hk, hc])]
      exact hquiet k'
  | running hk' => exact .running (hold hk')
  | whole hk' => exact .whole (hold hk')
  | cut hsp hk₀ hf hpre hempty =>
      refine .cut (hspent hsp) hk₀ (by rwa [on_set_of_ne (hmem _ hk₀)]) ?_ ?_
      · rwa [dataOf, calls_set_of_ne (hmem _ hk₀)]
      · intro k' data hk'
        rcases calls_set_eq_some hk' with ⟨-, heq⟩ | ⟨-, hk'⟩
        · rw [heq] at hc
          cases hc
        · exact hempty k' data hk'

omit [DecidableEq κ] in
/-- The heartbeat counter plays no part. -/
lemma Whole.heartbeat (h : Whole s) (n : ℕ) :
    Whole { s with conn := { s.conn with pendingHeartbeats := n } } := by
  obtain ⟨tail, hout, htail⟩ := h
  refine ⟨tail, hout, ?_⟩
  cases htail with
  | clean hquiet => exact .clean hquiet
  | running hk => exact .running hk
  | whole hk => exact .whole hk
  | cut hsp hmem hf hpre hempty => exact .cut hsp hmem hf hpre hempty

theorem whole_of_reach (h : (lts κ).Reach s) : Whole s := by
  refine h.invariant ?_ ?_
  · rintro s rfl
    exact ⟨[], rfl, .clean fun _ => rfl⟩
  · rintro s l s' hr hi hs
    have ht := turns_of_reach hr
    have hspent : Spent s → Spent s' := fun hsp => hsp.step (locked_of_reach hr) hs
    cases hs with
    | beginWrite data hk => exact hi.begin ht hk rfl hspent
    | beginClose hk => exact hi.begin ht hk rfl hspent
    | call hc hs => exact hi.callStep (locked_of_reach hr) ht (unsent_of_reach hr) hc hs
    | resetHeartbeats => exact hi.heartbeat _
    | incrementHeartbeats => exact hi.heartbeat _

/-- **Socket output is whole frames.**  In every reachable state the socket carries the data of
the writes that returned `Ok`, in the order in which they got the lock and each once, followed
by at most a part of the data of one write that has not returned `Ok`; `shutdown` has been
called once at most; and after `shutdown`, or after a write that had the lock has returned an
error, no byte is ever put on the socket. -/
theorem socket_output (h : (lts κ).Reach s) :
    (∃ tail, s.conn.out = s.delivered ++ tail ∧
      (tail = [] ∨
        ∃ k ∈ s.conn.acquired, s.on Call.wroteOk k = false ∧ tail <+: s.dataOf k)) ∧
    s.conn.acquired.Nodup ∧ (∀ k, s.on Call.wroteOk k = true → k ∈ s.conn.acquired) ∧
    s.conn.shutdowns ≤ 1 ∧
    ∀ s', (lts κ).Leads s s' →
      (0 < s.conn.shutdowns ∨ ∃ k ∈ s.conn.acquired, s.on Call.wroteErr k = true) →
      s'.conn.out = s.conn.out := by
  have ht := turns_of_reach h
  have hst := settled_of_reach h
  refine ⟨?_, ht.nodup, fun k hk => ht.owns k (on_mono Call.ownsTurn_of_wroteOk hk),
    (closedOnce_of_reach h).once, ?_⟩
  · obtain ⟨tail, hout, htail⟩ := whole_of_reach h
    refine ⟨tail, hout, ?_⟩
    cases htail with
    | clean _ => exact Or.inl rfl
    | running hk =>
        refine Or.inr ⟨_, ht.owns _ (on_eq hk), on_eq hk, ?_⟩
        rw [dataOf_eq hk]
        exact List.prefix_append _ _
    | whole hk =>
        refine Or.inr ⟨_, ht.owns _ (on_eq hk), on_eq hk, ?_⟩
        rw [dataOf_eq hk]
        exact List.prefix_refl _
    | cut _ hk hf hpre _ =>
        refine Or.inr ⟨_, hk, ?_, hpre⟩
        obtain ⟨c, hc, hcf⟩ := exists_of_on hf
        exact (on_eq hc).trans (Call.wroteOk_of_failed hcf)
  · rintro s' hl (hpos | ⟨k, hk, herr⟩)
    · exact (hst.shutdown hpos).out_eq_of_leads h hl
    · exact (hst.failed k hk (on_mono Call.failed_of_wroteErr herr)).out_eq_of_leads h hl

section Example

/-- A step of a call in a run. -/
lemma reach_call {k : κ} {c c' : Call} {conn : TcpConn κ} (h : (lts κ).Reach s)
    (hc : s.calls k = some c) (hs : CallStep k s.conn c conn c') :
    (lts κ).Reach (s.set k conn c') :=
  h.step (.call hc hs)

/-- Three writes at once: the first returns `Ok`, the second times out in the middle of its data,
and the third waits for the lock. -/
theorem socket_output_threeWrites : ∃ s : SharedConn (Fin 3), (lts (Fin 3)).Reach s ∧
    s.calls 0 = some (.write [1, 2] (.returned (.ok ()))) ∧
    s.calls 1 = some (.write [3, 4] (.returned (.error writeTimeout))) ∧
    s.calls 2 = some (.write [5] .waiting) ∧
    s.delivered = [1, 2] ∧ s.conn.out = [1, 2, 3] ∧
    ∀ s', (lts (Fin 3)).Leads s s' → s'.conn.out = [1, 2, 3] := by
  have h : (lts (Fin 3)).Reach new := .init rfl
  have h := h.step (Step.beginWrite (k := 0) [1, 2] rfl)
  have h := h.step (Step.beginWrite (k := 1) [3, 4] rfl)
  have h := h.step (Step.beginWrite (k := 2) [5] rfl)
  have h := reach_call (k := 0) h rfl (.fastOpen rfl)
  have h := reach_call (k := 1) h rfl (.fastOpen rfl)
  have h := reach_call (k := 2) h rfl (.fastOpen rfl)
  dsimp only [conn_set] at h
  -- the first write
  have h := reach_call (k := 0) h rfl (.writeLock rfl)
  have h := reach_call (k := 0) h rfl (.slowOpen rfl)
  have h := reach_call (k := 0) h rfl (.put [1] [2] rfl)
  have h := reach_call (k := 0) h rfl (.put [2] [] rfl)
  have h := reach_call (k := 0) h rfl .writeAllOk
  have h := reach_call (k := 0) h rfl (.writeUnlock (.ok ()))
  dsimp only [conn_set] at h
  -- the second write
  have h := reach_call (k := 1) h rfl (.writeLock rfl)
  have h := reach_call (k := 1) h rfl (.slowOpen rfl)
  have h := reach_call (k := 1) h rfl (.put [3] [4] rfl)
  have h := reach_call (k := 1) h rfl (.writeAllTimeout [4])
  have h := reach_call (k := 1) h rfl .writeCancel
  have h := reach_call (k := 1) h rfl (.writeUnlock (.error writeTimeout))
  dsimp only [conn_set] at h
  refine ⟨_, h, rfl, rfl, rfl, rfl, rfl, fun s' hl => ?_⟩
  exact (socket_output h).2.2.2.2 s' hl (.inr ⟨1, by simp, rfl⟩)

end Example

end SharedConn

end Fernq
