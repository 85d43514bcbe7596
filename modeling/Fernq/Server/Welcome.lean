import Mathlib.Tactic
import Fernq.Server.Agreement

/-!
Whether a welcomed connection is handed over (`ServerNode::add_connection` in
`fernqd/src/server/node.rs`), under any order of its steps and those of `add_room` and
`remove_room`.

* `WelcomeKept`: every connection that was told that verification succeeded is handed over, or about
  to look for its room.
* `Coming`, `Awaited`, `WelcomesInTime`: the room is looked up in the store before the welcome and
  in memory after it, and in between it may be on its way into memory, or be taken out.
* `welcome_kept`: the welcome is kept without such steps, and each of them leads to a connection
  that is welcomed and dropped.
* `welcomed_is_dropped`: a run of this kind.
-/

namespace Fernq

/-- Verified for the room, and not yet looking for it. -/
def JoinStage.Awaits : JoinStage → Uuid → Prop
  | .welcoming id', id | .lookup id', id => id' = id
  | _, _ => False

/-- Past the welcome. -/
def JoinStage.Told : JoinStage → Prop
  | .lookup _ | .admitted _ | .dropped _ => True
  | _ => False

namespace NodeRun

variable {ρ ι κ : Type} [DecidableEq ρ] [DecidableEq ι] [DecidableEq κ] {s s' : NodeRun ρ ι κ}
  {l : Label ι κ} {i : ι} {c : κ} {id : Uuid} {parseStr : String → Except String Uuid}

/-- The connection was told that verification succeeded. -/
def Welcomed (s : NodeRun ρ ι κ) (c : κ) : Prop := ∃ message, (true, message) ∈ s.replies c

/-- A connection that was welcomed is handed over, or about to look for its room. -/
def WelcomeKept (s : NodeRun ρ ι κ) : Prop :=
  ∀ c, s.Welcomed c → ∃ id, s.joins c = .lookup id ∨ s.joins c = .admitted id

/-- The room is in memory, or some `add_room` is about to put it there. -/
def Coming (s : NodeRun ρ ι κ) (id : Uuid) : Prop := id ∈ s.node.rooms ∨ s.HasPart id .pending

/-- Some connection is verified for the room and has not looked for it yet. -/
def Awaited (s : NodeRun ρ ι κ) (id : Uuid) : Prop := ∃ c, (s.joins c).Awaits id

/-- The step verifies no connection for a room that is neither in memory nor on its way there, looks
for no room that is on its way, and takes no room out of memory that a connection is about to look
for. -/
def WelcomesInTime (s : NodeRun ρ ι κ) : Label ι κ → Prop
  | .request i => ∀ id, s.requests i = .dropping id → id ∈ s.node.rooms → ¬ s.Awaited id
  | .join c =>
      (∀ id name password, s.joins c = .getting id name password →
        checkRoom (s.node.db.getRoom none id) name password = .ok () → s.Coming id) ∧
      ∀ id, s.joins c = .lookup id → s.HasPart id .pending → id ∈ s.node.rooms
  | .arrival => True

/-! ### What a step does to a connection -/

/-- A step takes one step of the connection, or opens it, or leaves it. -/
inductive JoinChange (parseStr : String → Except String Uuid) (s s' : NodeRun ρ ι κ) (c : κ) :
    Label ι κ → Prop
  | still (l : Label ι κ) : s'.joins c = s.joins c → s'.replies c = s.replies c →
      JoinChange parseStr s s' c l
  | step (sent : List (Bool × String)) : JoinStep parseStr s.node (s.joins c) (s'.joins c) sent →
      s'.replies c = s.replies c ++ sent → JoinChange parseStr s s' c (.join c)
  | connect (payload : List UInt8) : s.joins c = .absent → s'.joins c = .validating payload →
      s'.replies c = s.replies c → JoinChange parseStr s s' c .arrival

omit [DecidableEq ρ] [DecidableEq ι] in
@[simp] lemma joins_setJoin_self {stage : JoinStage} {sent : List (Bool × String)} :
    (s.setJoin c stage sent).joins c = stage := Function.update_self ..

omit [DecidableEq ρ] [DecidableEq ι] in
@[simp] lemma replies_setJoin_self {stage : JoinStage} {sent : List (Bool × String)} :
    (s.setJoin c stage sent).replies c = s.replies c ++ sent := Function.update_self ..

lemma joinChange_of_step (h : Step parseStr s l s') (c : κ) : JoinChange parseStr s s' c l := by
  cases h with
  | request _ => exact .still _ rfl rfl
  | add _ _ _ => exact .still _ rfl rfl
  | remove _ _ => exact .still _ rfl rfl
  | join hstep =>
      rename_i c' stage sent
      by_cases hc : c = c'
      · subst hc
        refine .step sent ?_ replies_setJoin_self
        rw [joins_setJoin_self]
        exact hstep
      · exact .still _ (Function.update_of_ne hc ..) (Function.update_of_ne hc ..)
  | connect payload habsent =>
      rename_i c'
      by_cases hc : c = c'
      · subst hc
        refine .connect payload habsent joins_setJoin_self ?_
        rw [replies_setJoin_self, List.append_nil]
      · exact .still _ (Function.update_of_ne hc ..) (Function.update_of_ne hc ..)

/-- A step of a connection changes nothing else. -/
lemma node_of_join (h : Step parseStr s (.join c) s') :
    s'.node = s.node ∧ s'.requests = s.requests := by
  cases h with
  | join _ => exact ⟨rfl, rfl⟩

section Stages

variable {node : NodeRooms ρ} {stage stage' : JoinStage} {sent : List (Bool × String)}

omit [DecidableEq ρ] in
/-- A connection is past the welcome when it was, or is sent it. -/
lemma told_of_joinStep (h : JoinStep parseStr node stage stage' sent) :
    stage'.Told ↔ stage.Told ∨ ∃ message, (true, message) ∈ sent := by
  cases h <;> simp [JoinStage.Told]

omit [DecidableEq ρ] in
/-- A connection begins to wait for a room when its look at the store succeeds. -/
lemma awaits_of_joinStep (h : JoinStep parseStr node stage stage' sent)
    (hafter : stage'.Awaits id) :
    stage.Awaits id ∨ ∃ name password, stage = .getting id name password ∧
      checkRoom (node.db.getRoom none id) name password = .ok () := by
  cases h with
  | verified hcheck =>
      cases hafter
      exact .inr ⟨_, _, rfl, hcheck⟩
  | welcome => exact .inl hafter
  | _ => exact False.elim hafter

omit [DecidableEq ρ] in
lemma dropped_of_joinStep (h : JoinStep parseStr node stage (.dropped id) sent) :
    stage = .lookup id ∧ id ∉ node.rooms := by
  cases h with
  | drop hmem => exact ⟨rfl, hmem⟩

end Stages

/-- Exactly the connections past the welcome have been welcomed. -/
def ToldWelcomed (s : NodeRun ρ ι κ) : Prop := ∀ c, s.Welcomed c ↔ (s.joins c).Told

lemma ToldWelcomed.step (h : ToldWelcomed s) (hs : Step parseStr s l s') : ToldWelcomed s' := by
  intro c
  have hc := h c
  unfold Welcomed at hc ⊢
  cases joinChange_of_step hs c with
  | still _ hjoins hreplies =>
      rw [hjoins, hreplies]
      exact hc
  | step sent hstep hreplies =>
      rw [told_of_joinStep hstep, ← hc, hreplies]
      simp only [List.mem_append, exists_or]
  | connect payload habsent hjoins hreplies =>
      rw [hjoins, hreplies, hc, habsent]
      exact Iff.rfl

lemma toldWelcomed_of_reach {Start : NodeRooms ρ → Prop} (h : (lts ι κ parseStr Start).Reach s) :
    ToldWelcomed s := by
  refine h.invariant ?_ fun s l s' _ htold hs => htold.step hs
  rintro s ⟨node, -, rfl⟩ c
  simp [Welcomed, idle, JoinStage.Told]

/-! ### Rooms that are waited for -/

omit [DecidableEq ρ] [DecidableEq ι] [DecidableEq κ] in
lemma dropping_of_part {stage : RequestStage ρ} (h : stage.part id = some .dropping) :
    stage = .dropping id := by
  cases stage with
  | dropping id' =>
      by_cases heq : id' = id
      · rw [heq]
      · simp [RequestStage.part, heq] at h
  | opening | inserting | closing | deleting =>
      -- these have another part in a room, or none
      simp only [RequestStage.part] at h
      split_ifs at h
      cases h
  | _ => cases h

/-- A room that is coming comes, unless it is taken out of memory. -/
lemma Coming.step (h : s.Coming id) (hs : Step parseStr s l s')
    (hkeep : ∀ i, l = .request i → s.requests i = .dropping id → id ∉ s.node.rooms) :
    s'.Coming id := by
  unfold Coming at h ⊢
  cases change_of_step hs id with
  | still _ hnode hparts =>
      rw [hnode, hasPart_iff_of_part hparts]
      exact h
  | request i hchange hother =>
      have hpending : s.HasPart id .pending → (s.requests i).part id ≠ some .pending →
          s'.HasPart id .pending := hasPart_of_ne hother
      have hdropping := hkeep i rfl
      generalize hp : (s.requests i).part id = p at hchange
      generalize hp' : (s'.requests i).part id = p' at hchange
      cases hchange with
      | quiet _ hrooms _ =>
          rw [hrooms, hasPart_iff_of_request hother (hp'.trans hp.symm)]
          exact h
      | check hrooms _ => exact h.imp hrooms.mpr fun hpart => hpending hpart (by simp [hp])
      | create _ _ _ => exact .inr ⟨i, hp'⟩
      | insert hmem _ => exact .inl hmem
      | drop _ _ =>
          obtain hmem | hpart := h
          · exact absurd hmem (hdropping (dropping_of_part hp))
          · exact .inr (hpending hpart (by simp [hp]))
      | delete hrooms _ => exact h.imp hrooms.mpr fun hpart => hpending hpart (by simp [hp])

/-- Every room that is waited for is coming, and no connection was dropped. -/
structure AwaitedComing (s : NodeRun ρ ι κ) : Prop where
  coming : ∀ id, s.Awaited id → s.Coming id
  none_dropped : ∀ c id, s.joins c ≠ .dropped id

lemma AwaitedComing.step (h : AwaitedComing s) (hok : WelcomesInTime s l)
    (hs : Step parseStr s l s') : AwaitedComing s' := by
  constructor
  · rintro id ⟨c, hafter⟩
    have hkeep : s.Awaited id → s'.Coming id := by
      intro hawaited
      refine (h.coming id hawaited).step hs ?_
      rintro i rfl hdropping hmem
      exact hok id hdropping hmem hawaited
    cases joinChange_of_step hs c with
    | still _ hjoins _ => exact hkeep ⟨c, by rwa [hjoins] at hafter⟩
    | connect payload _ hjoins _ =>
        rw [hjoins] at hafter
        exact False.elim hafter
    | step sent hstep _ =>
        obtain hbefore | ⟨name, password, hgetting, hcheck⟩ := awaits_of_joinStep hstep hafter
        · exact hkeep ⟨c, hbefore⟩
        · refine (hok.1 id name password hgetting hcheck).step hs ?_
          rintro i ⟨⟩
  · intro c id hdropped
    cases joinChange_of_step hs c with
    | still _ hjoins _ => exact h.none_dropped c id (hjoins ▸ hdropped)
    | connect payload _ hjoins _ =>
        rw [hjoins] at hdropped
        cases hdropped
    | step sent hstep _ =>
        rw [hdropped] at hstep
        obtain ⟨hlookup, hmem⟩ := dropped_of_joinStep hstep
        have hawaits : (s.joins c).Awaits id := by
          rw [hlookup]
          rfl
        obtain hmem' | hpending := h.coming id ⟨c, hawaits⟩
        · exact hmem hmem'
        · exact hmem (hok.2 id hlookup hpending)

omit [DecidableEq ρ] [DecidableEq ι] [DecidableEq κ] in
/-- The welcome is kept exactly while no connection is dropped. -/
lemma ToldWelcomed.welcomeKept_iff (h : ToldWelcomed s) :
    WelcomeKept s ↔ ∀ c id, s.joins c ≠ .dropped id := by
  constructor
  · intro hkept c id hdropped
    have htold : (s.joins c).Told := by
      rw [hdropped]
      trivial
    obtain ⟨id', hlookup | hadmitted⟩ := hkept c ((h c).mpr htold)
    · rw [hdropped] at hlookup
      cases hlookup
    · rw [hdropped] at hadmitted
      cases hadmitted
  · intro hnone c hwelcomed
    have htold := (h c).mp hwelcomed
    cases hstage : s.joins c with
    | lookup id => exact ⟨id, .inl rfl⟩
    | admitted id => exact ⟨id, .inr rfl⟩
    | dropped id => exact absurd hstage (hnone c id)
    | _ =>
        rw [hstage] at htold
        exact False.elim htold

/-! ### When the welcome is kept -/

/-- A connection that waits for a room that is not in memory may be welcomed and dropped. -/
lemma dropped_of_awaited (hawaits : (s.joins c).Awaits id) (hmem : id ∉ s.node.rooms) :
    ∃ s', (lts ι κ parseStr Agree).Leads s s' ∧ s'.joins c = .dropped id := by
  cases hstage : s.joins c with
  | lookup id' =>
      rw [hstage] at hawaits
      cases hawaits
      have hdrop : Step parseStr s (.join c) (s.setJoin c (.dropped id) []) :=
        .join (by rw [hstage]; exact .drop hmem)
      exact ⟨_, (Lts.Leads.refl s).tail hdrop, joins_setJoin_self⟩
  | welcoming id' =>
      rw [hstage] at hawaits
      cases hawaits
      have hwelcome : Step parseStr s (.join c)
          (s.setJoin c (.lookup id) [(true, "Welcome to FernQ")]) :=
        .join (by rw [hstage]; exact .welcome)
      have hdrop :
        Step parseStr (s.setJoin c (.lookup id) [(true, "Welcome to FernQ")]) (.join c) _ :=
        .join (by rw [joins_setJoin_self]; exact .drop hmem)
      exact ⟨_, ((Lts.Leads.refl s).tail hwelcome).tail hdrop, joins_setJoin_self⟩
  | _ =>
      rw [hstage] at hawaits
      exact False.elim hawaits

/-- A step that breaks the condition leaves a connection that is dropped, or waits for a room that
is not in memory. -/
lemma awaits_of_not_welcomesInTime (hs : Step parseStr s l s') (hbad : ¬ WelcomesInTime s l) :
    ∃ c id, s'.joins c = .dropped id ∨ (s'.joins c).Awaits id ∧ id ∉ s'.node.rooms := by
  cases l with
  | arrival => exact absurd trivial hbad
  | request i =>
      simp only [WelcomesInTime, not_forall, not_not] at hbad
      obtain ⟨id, hdropping, hmem, c, hawaits⟩ := hbad
      refine ⟨c, id, .inr ?_⟩
      cases hs with
      | request hstep =>
          rw [hdropping] at hstep
          cases hstep with
          | dropFound room _ => exact ⟨hawaits, fun hmem' => (AList.mem_erase.mp hmem').1 rfl⟩
          | dropMissing hnone => exact absurd hmem (AList.lookup_eq_none.mp hnone)
  | join c =>
      obtain ⟨hnode, hrequests⟩ := node_of_join hs
      cases hs with
      | join hstep =>
          rename_i stage sent
          simp only [WelcomesInTime, not_and_or, not_forall] at hbad
          obtain ⟨id, name, password, hgetting, hcheck, hgone⟩ | ⟨id, hlookup, hpending, hmem⟩ :=
            hbad
          · rw [hgetting] at hstep
            cases hstep with
            | mismatch message hmismatch =>
                rw [hcheck] at hmismatch
                cases hmismatch
            | verified _ =>
                refine ⟨c, id, .inr ⟨?_, fun hmem => hgone (.inl hmem)⟩⟩
                rw [joins_setJoin_self]
                rfl
          · rw [hlookup] at hstep
            cases hstep with
            | handOver hmem' => exact absurd hmem' hmem
            | drop _ => exact ⟨c, id, .inl joins_setJoin_self⟩

/-- In runs that meet the condition no connection is dropped. -/
lemma none_dropped_of_reachBy (h : (lts ι κ parseStr Agree).ReachBy WelcomesInTime s) :
    ∀ c id, s.joins c ≠ .dropped id := by
  have hcoming : AwaitedComing (ρ := ρ) s := by
    refine h.invariant ?_ fun s l s' _ hcoming hok hs => hcoming.step hok hs
    rintro s ⟨node, -, rfl⟩
    constructor
    · rintro id ⟨c, hawaits⟩
      exact False.elim hawaits
    · intro c id hdropped
      cases hdropped
  exact hcoming.none_dropped

/-- A connection that is about to look for its room does so, and is handed over or dropped. -/
lemma lookup_steps (parseStr : String → Except String Uuid) (hlookup : s.joins c = .lookup id) :
    (∃ s', Step parseStr s (.join c) s') ∧
      ∀ s', Step parseStr s (.join c) s' → s'.joins c = .admitted id ∨
        s'.joins c = .dropped id := by
  constructor
  · by_cases hmem : id ∈ s.node.rooms
    · exact ⟨_, .join (by rw [hlookup]; exact .handOver hmem)⟩
    · exact ⟨_, .join (by rw [hlookup]; exact .drop hmem)⟩
  · intro s' hs
    cases hs with
    | join hstep =>
        rw [hlookup] at hstep
        cases hstep with
        | handOver _ => exact .inl joins_setJoin_self
        | drop _ => exact .inr joins_setJoin_self

/-- **A welcome means admitted, as long as the room stays on its way.**  Start a node in agreement.
In every run in which connections are verified only for rooms in memory or about to be, no room is
looked for while it is still on its way into memory, and none is taken out of memory while a
verified connection is about to look for it, every connection that was welcomed is handed over, or
about to look for its room; and then its next step, which it can take, hands it over.  Every step
that breaks the condition leads to a connection that is welcomed and dropped. -/
theorem welcome_kept (parseStr : String → Except String Uuid) :
    (∀ s : NodeRun ρ ι κ, (lts ι κ parseStr Agree).ReachBy WelcomesInTime s → WelcomeKept s ∧
      ∀ c, s.Welcomed c → (∃ id, s.joins c = .admitted id) ∨
        (∃ s', Step parseStr s (.join c) s') ∧ ∀ s', WelcomesInTime s (.join c) →
          Step parseStr s (.join c) s' → ∃ id, s'.joins c = .admitted id) ∧
    ∀ (s : NodeRun ρ ι κ) (l : Label ι κ) (s' : NodeRun ρ ι κ), (lts ι κ parseStr Agree).Reach s →
      Step parseStr s l s' → ¬ WelcomesInTime s l →
        ∃ s'', (lts ι κ parseStr Agree).Leads s' s'' ∧ ¬ WelcomeKept s'' := by
  constructor
  · intro s h
    have hkept : WelcomeKept s :=
      (toldWelcomed_of_reach h.reach).welcomeKept_iff.mpr (none_dropped_of_reachBy h)
    refine ⟨hkept, fun c hwelcomed => ?_⟩
    obtain ⟨id, hlookup | hadmitted⟩ := hkept c hwelcomed
    · obtain ⟨hnext, hends⟩ := lookup_steps parseStr hlookup
      refine .inr ⟨hnext, fun s' hok hs => ⟨id, ?_⟩⟩
      obtain hadmitted | hdropped := hends s' hs
      · exact hadmitted
      · exact absurd hdropped (none_dropped_of_reachBy (h.step hok hs) c id)
    · exact .inl ⟨id, hadmitted⟩
  · intro s l s' hreach hs hbad
    have hreach' : (lts ι κ parseStr Agree).Reach s' := hreach.step hs
    have hdropped : ∃ s'', (lts ι κ parseStr Agree).Leads s' s'' ∧
        ∃ c id, s''.joins c = .dropped id := by
      obtain ⟨c, id, hdropped | ⟨hawaits, hmem⟩⟩ := awaits_of_not_welcomesInTime hs hbad
      · exact ⟨s', hreach'.leads_self, c, id, hdropped⟩
      · obtain ⟨s'', hleads, hdropped⟩ := dropped_of_awaited hawaits hmem
        exact ⟨s'', hleads, c, id, hdropped⟩
    obtain ⟨s'', hleads, c, id, hdropped⟩ := hdropped
    refine ⟨s'', hleads, ?_⟩
    rw [(toldWelcomed_of_reach (hreach'.leads hleads)).welcomeKept_iff]
    exact fun hnone => hnone c id hdropped

/-- A client is welcomed to the plaza while a `remove_room` waits for its turn, and is handed over
when it goes on first. -/
theorem welcome_kept_plaza : ∃ s : NodeRun ℕ Unit Unit,
    s.requests () = .dropping plazaId ∧ (true, "Welcome to FernQ") ∈ s.replies () ∧
      WelcomeKept s ∧
      ∃ s', Step plazaEnv.parseStr s (.join ()) s' ∧ ∃ id, s'.joins () = .admitted id := by
  have hstored : plazaId ∈ plazaNode.rooms := List.mem_singleton_self _
  have hidle {s : NodeRun ℕ Unit Unit} {stage : JoinStage} (hs : s.joins () = stage)
      (hget : ∀ id name password, stage ≠ .getting id name password)
      (hlook : ∀ id, stage ≠ .lookup id) : WelcomesInTime s (.join ()) :=
    ⟨fun id name password h => absurd (hs.symm.trans h) (hget id name password),
      fun id h => absurd (hs.symm.trans h) (hlook id)⟩
  have h := (Lts.ReachBy.init ⟨plazaNode, fun _ => Iff.rfl, rfl⟩ :
    (lts Unit Unit plazaEnv.parseStr Agree).ReachBy WelcomesInTime (idle plazaNode))
  have h := h.step (by trivial) (Step.connect (c := ()) joinUrl rfl)
  have h := h.step (hidle rfl (by simp) (by simp))
    (Step.join (c := ()) (.valid plazaId "plaza" "pw" (by decide +kernel)))
  have h := h.step (hidle rfl (by simp) (by simp)) (Step.join (c := ()) (.found rfl))
  have h := h.step (by trivial) (Step.remove (i := ()) plazaId rfl)
  have h := h.step (by rintro _ ⟨⟩) (Step.request (i := ()) (.removeOpen rfl))
  have h := h.step (by rintro _ ⟨⟩) (Step.request (i := ()) (.checkFound rfl))
  have h := h.step (by
    refine ⟨?_, by rintro _ ⟨⟩⟩
    rintro id _ _ ⟨⟩ -
    exact .inl hstored) (Step.join (c := ()) (.verified rfl))
  have h := h.step (hidle rfl (by simp) (by simp)) (Step.join (c := ()) .welcome)
  obtain ⟨hkept, hnext⟩ := (welcome_kept plazaEnv.parseStr).1 _ h
  have hreplied : (true, "Welcome to FernQ") ∈ [(true, "Welcome to FernQ")] :=
    List.mem_singleton_self _
  refine ⟨_, rfl, hreplied, hkept, ?_⟩
  obtain ⟨id, hadmitted⟩ | ⟨⟨s', hs⟩, hends⟩ := hnext () ⟨_, hreplied⟩
  · cases hadmitted
  · refine ⟨s', hs, hends s' ⟨by rintro _ _ _ ⟨⟩, ?_⟩ hs⟩
    rintro id ⟨⟩ -
    exact hstored

/-- A client is welcomed to the plaza, which is removed before the connection looks for it. -/
theorem welcomed_is_dropped : ∃ s : NodeRun ℕ Unit Unit,
    (lts Unit Unit plazaEnv.parseStr Agree).Reach s ∧ (true, "Welcome to FernQ") ∈ s.replies () ∧
      s.joins () = .dropped plazaId ∧ ¬ WelcomeKept s := by
  have h := (Lts.Reach.init ⟨plazaNode, fun _ => Iff.rfl, rfl⟩ :
    (lts Unit Unit plazaEnv.parseStr Agree).Reach (idle plazaNode))
  have h := h.step (Step.connect (c := ()) joinUrl rfl)
  have h := h.step (Step.join (c := ()) (.valid plazaId "plaza" "pw" (by decide +kernel)))
  have h := h.step (Step.join (c := ()) (.found rfl))
  have h := h.step (Step.join (c := ()) (.verified rfl))
  have h := h.step (Step.join (c := ()) .welcome)
  have h := h.step (Step.remove (i := ()) plazaId rfl)
  have h := h.step (Step.request (i := ()) (.removeOpen rfl))
  have h := h.step (Step.request (i := ()) (.checkFound rfl))
  have h := h.step (Step.request (i := ()) (.dropFound 0 rfl))
  have h := h.step (Step.join (c := ()) (.drop (AList.lookup_eq_none.mp rfl)))
  have hreplied : (true, "Welcome to FernQ") ∈ [(true, "Welcome to FernQ")] :=
    List.mem_singleton_self _
  refine ⟨_, h, hreplied, rfl, fun hkept => ?_⟩
  obtain ⟨id, hlookup | hadmitted⟩ := hkept () ⟨_, hreplied⟩
  · cases hlookup
  · cases hadmitted

end NodeRun

end Fernq
