import Mathlib.Tactic
import Fernq.Server.Durability

/-!
What control requests leave of a node that is shut down (`ServerNode::{close, add_room,
remove_room}` in `fernqd/src/server/node.rs`, each request in a task of its own in
`fernqd/src/main.rs`).

* `CancelsQuietly`: no `add_room` is past its look at the flag when `close` cancels the node.
* `Pending`: the ids of the rooms that are being added; `Held`: where the open rooms are.
* `Shutting`: what `close` has done so far.
* `shutdown_leaves_nothing`: then no room is left; `late_room_survives_close`: and otherwise one
  may be.
-/

namespace Fernq

/-- An `add_room` that has seen that the node is not closed, and has not put its room into memory
yet. -/
def OpStage.admitted {ρ : Type} : OpStage ρ → Bool
  | .finding _ _ | .creating _ _ | .syncing _ | .opening _ | .inserting _ _ => true
  | _ => false

/-- The id under which an `add_room` has stored its room, and will put it into memory. -/
def OpStage.pendingId {ρ : Type} : OpStage ρ → Option Uuid
  | .syncing model | .opening model | .inserting model _ => some model.id
  | _ => none

namespace Life

variable {σ ρ ι : Type} [DecidableEq ρ] [DecidableEq ι] {D : RoomDisk σ} {s s' : Life σ ρ ι}
  {l : Label ι} {id : Uuid}

/-- `close` cancels the node when no `add_room` is past its look at the flag. -/
def CancelsQuietly (s : Life σ ρ ι) : Label ι → Prop
  | .cancel => ∀ i, (s.requests i).admitted = false
  | _ => True

/-- The rooms in memory and the rooms that are being added are stored under different ids, which
have been used. -/
structure Pending (s : Life σ ρ ι) : Prop where
  rooms : ∀ id ∈ s.rooms, id ∈ s.log.used
  fresh : ∀ i id, (s.requests i).pendingId = some id → id ∈ s.log.used ∧ id ∉ s.rooms
  distinct : ∀ i j id, (s.requests i).pendingId = some id → (s.requests j).pendingId = some id →
    i = j

/-- Every open room is in memory, or in the hands of a request. -/
def Held (s : Life σ ρ ι) : Prop :=
  ∀ room, s.isOpen room = true → (∃ id, s.rooms.lookup id = some room) ∨
    (∃ i model, s.requests i = .inserting model room) ∨ ∃ i id, s.requests i = .closing id room

/-- What `close` has done so far. -/
structure Shutting (s : Life σ ρ ι) : Prop where
  quiet : s.close ≠ .idle → s.cancelled = true ∧ ∀ i, (s.requests i).admitted = false
  visiting : ∀ left, s.close = .visiting left → ∀ id room, s.rooms.lookup id = some room →
    id ∈ left ∨ s.isOpen room = false
  cleared : s.close = .joining ∨ s.close = .returned → ∀ id, id ∉ s.rooms

/-! ### Ids -/

omit [DecidableEq ι] in
/-- The rooms that a new process has in memory are stored. -/
lemma mem_of_mem_boot {disk : σ} {iterate : Uuid → Fault} {fresh : Uuid → ρ} {log : LifeLog}
    (hkept : WellKept D disk log.used) (hmem : id ∈ (boot D ι disk iterate fresh log).rooms) :
    id ∈ log.used := by
  let node : NodeRooms ρ := ⟨false, ⟨D.contents disk⟩, ∅, fun _ => false⟩
  have hmem : id ∈ (node.start iterate fresh).rooms := hmem
  by_cases hread : NodeRooms.Readable node.db iterate
  · have hstored : id ∈ node.db.rooms :=
      (NodeRooms.mem_start rfl hread fun id model hl => hkept.keys id model (.inl hl)).mp hmem
    obtain ⟨value, hl⟩ := Option.isSome_iff_exists.mp (AList.lookup_isSome.mpr hstored)
    exact hkept.used id value (.inl hl)
  · rw [NodeRooms.start_of_not_readable hread] at hmem
    exact absurd hmem (AList.notMem_empty id)

/-- What a step of a request does to its id and to the rooms in memory. -/
inductive IdChange (s s' : Life σ ρ ι) : Option Uuid → Option Uuid → Prop
  | quiet (pending : Option Uuid) : s'.log.used = s.log.used → (∀ id ∈ s'.rooms, id ∈ s.rooms) →
      IdChange s s' pending pending
  | drop (pending : Option Uuid) : s'.log.used = s.log.used → (∀ id ∈ s'.rooms, id ∈ s.rooms) →
      IdChange s s' pending none
  | create (id : Uuid) : id ∉ s.log.used → s'.log.used = id :: s.log.used → s'.rooms = s.rooms →
      IdChange s s' none (some id)
  | insert (id : Uuid) : s'.log.used = s.log.used → (∀ id' ∈ s'.rooms, id' = id ∨ id' ∈ s.rooms) →
      IdChange s s' (some id) none

omit [DecidableEq ι] in
lemma idChange_of_opStep {stage stage' : OpStage ρ} (h : OpStep D s stage s' stage') :
    IdChange s s' stage.pendingId stage'.pendingId := by
  cases h with
  | insertOk id disk hfresh _ => exact .create id hfresh rfl rfl
  | syncErr e disk _ => exact .drop _ rfl fun _ => id
  | syncOk disk _ => exact .quiet _ rfl fun _ => id
  | openRoom room => exact .quiet _ rfl fun _ => id
  | insertRoom => exact .insert _ rfl fun id' hmem => (AList.mem_insert _).mp hmem
  | dropFound room _ => exact .quiet _ rfl fun id' hmem => (AList.mem_erase.mp hmem).2
  | _ => exact .quiet none rfl fun _ => id

omit [DecidableEq ρ] in
/-- The stages after a step of one request. -/
lemma pendingId_setRequest (s₁ : Life σ ρ ι) (hrequests : s₁.requests = s.requests) (i j : ι)
    (stage : OpStage ρ) : ((s₁.setRequest i stage).requests j).pendingId
      = if j = i then stage.pendingId else (s.requests j).pendingId := by
  split_ifs with hj
  · rw [hj, requests_setRequest_self]
  · rw [requests_setRequest_of_ne hj, hrequests]

omit [DecidableEq ρ] in
lemma Pending.request {s₁ : Life σ ρ ι} {i : ι} {stage : OpStage ρ} (h : Pending s)
    (hrequests : s₁.requests = s.requests)
    (hs : IdChange s s₁ (s.requests i).pendingId stage.pendingId) :
    Pending (s₁.setRequest i stage) := by
  have hat := pendingId_setRequest s₁ hrequests i
  generalize hbefore : (s.requests i).pendingId = before at hs
  generalize hafter : stage.pendingId = after at hs
  -- the ids and the rooms are the ones before, or fewer
  have fewer (hused : s₁.log.used = s.log.used) (hrooms : ∀ id ∈ s₁.rooms, id ∈ s.rooms)
      (hids : ∀ id, after = some id → before = some id) : Pending (s₁.setRequest i stage) := by
    have hold : ∀ j id, ((s₁.setRequest i stage).requests j).pendingId = some id →
        (s.requests j).pendingId = some id := by
      intro j id hj
      rw [hat] at hj
      split_ifs at hj with hji
      · exact hji ▸ hbefore.trans (hids id (hafter ▸ hj))
      · exact hj
    refine ⟨fun id hmem => ?_, fun j id hj => ?_, fun j k id hj hk => ?_⟩
    · exact hused ▸ h.rooms id (hrooms id hmem)
    · obtain ⟨hmem, hnot⟩ := h.fresh j id (hold j id hj)
      exact ⟨hused ▸ hmem, fun hroom => hnot (hrooms id hroom)⟩
    · exact h.distinct j k id (hold j id hj) (hold k id hk)
  cases hs with
  | quiet pending hused hrooms => exact fewer hused hrooms fun _ => id
  | drop pending hused hrooms => exact fewer hused hrooms fun _ hid => by cases hid
  | create id₀ hfresh hused hrooms =>
      -- the new id is none of the others, which have been used
      have hne : ∀ j id, j ≠ i → ((s₁.setRequest i stage).requests j).pendingId = some id →
          (s.requests j).pendingId = some id ∧ id ≠ id₀ := by
        intro j id hji hj
        rw [hat, if_neg hji] at hj
        exact ⟨hj, fun heq => hfresh (heq ▸ (h.fresh j id hj).1)⟩
      have hself : ∀ id, ((s₁.setRequest i stage).requests i).pendingId = some id → id = id₀ := by
        intro id hi
        rw [hat, if_pos rfl, hafter] at hi
        exact (Option.some.inj hi).symm
      refine ⟨fun id hmem => ?_, fun j id hj => ?_, fun j k id hj hk => ?_⟩
      · have hmem : id ∈ s₁.rooms := hmem
        rw [hrooms] at hmem
        exact (congrArg (id ∈ ·) hused).mpr (List.mem_cons_of_mem _ (h.rooms id hmem))
      · by_cases hji : j = i
        · obtain rfl := hself id (hji ▸ hj)
          refine ⟨(congrArg (id ∈ ·) hused).mpr List.mem_cons_self, fun hmem => ?_⟩
          have hmem : id ∈ s₁.rooms := hmem
          rw [hrooms] at hmem
          exact hfresh (h.rooms id hmem)
        · obtain ⟨hold, -⟩ := hne j id hji hj
          obtain ⟨hused', hnot⟩ := h.fresh j id hold
          refine ⟨(congrArg (id ∈ ·) hused).mpr (List.mem_cons_of_mem _ hused'), fun hmem => ?_⟩
          have hmem : id ∈ s₁.rooms := hmem
          rw [hrooms] at hmem
          exact hnot hmem
      · by_cases hji : j = i <;> by_cases hki : k = i
        · rw [hji, hki]
        · exact absurd (hself id (hji ▸ hj)) (hne k id hki hk).2
        · exact absurd (hself id (hki ▸ hk)) (hne j id hji hj).2
        · exact h.distinct j k id (hne j id hji hj).1 (hne k id hki hk).1
  | insert id₀ hused hrooms =>
      -- no other request has this id
      have hne : ∀ j id, ((s₁.setRequest i stage).requests j).pendingId = some id →
          (s.requests j).pendingId = some id ∧ id ≠ id₀ := by
        intro j id hj
        rw [hat] at hj
        split_ifs at hj with hji
        · rw [hafter] at hj
          cases hj
        · exact ⟨hj, fun heq => hji (h.distinct j i id hj (by rw [hbefore, heq]))⟩
      refine ⟨fun id hmem => ?_, fun j id hj => ?_, fun j k id hj hk => ?_⟩
      · refine (congrArg (id ∈ ·) hused).mpr ?_
        rcases hrooms id hmem with rfl | hold
        · exact (h.fresh i id hbefore).1
        · exact h.rooms id hold
      · obtain ⟨hold, hid⟩ := hne j id hj
        obtain ⟨hmem, hnot⟩ := h.fresh j id hold
        refine ⟨(congrArg (id ∈ ·) hused).mpr hmem, fun hroom => ?_⟩
        exact (hrooms id hroom).elim hid hnot
      · exact h.distinct j k id (hne j id hj).1 (hne k id hk).1

lemma Pending.step (hd : Durable D s) (h : Pending s) (hs : Step D s l s') : Pending s' := by
  cases hs with
  | @request s₁ i stage hs => exact h.request (requests_of_opStep hs) (idChange_of_opStep hs)
  | add name password hi =>
      exact h.request rfl (by rw [hi]; exact .quiet none rfl fun _ => id)
  | remove id hi => exact h.request rfl (by rw [hi]; exact .quiet none rfl fun _ => fun h => h)
  | restart disk iterate fresh hs =>
      have hboot : Durable D (boot D ι disk iterate fresh s.log) := hd.boot hs
      exact ⟨fun id hmem => mem_of_mem_boot hboot.wellKept hmem, nofun, nofun⟩
  | clear _ => exact ⟨nofun, fun i id hi => ⟨(h.fresh i id hi).1, nofun⟩, h.distinct⟩
  | _ => exact ⟨h.rooms, h.fresh, h.distinct⟩

lemma pending_of_reach (h : (lifetimes D ρ ι).Reach s) : Pending s := by
  refine h.invariant ?_ fun s l s' hr hi hs => hi.step (durable_of_reach hr) hs
  rintro s ⟨disk, iterate, fresh, used, hkept, rfl⟩
  exact ⟨fun id hmem => mem_of_mem_boot hkept hmem, nofun, nofun⟩

/-! ### Rooms -/

/-- The open rooms after a step of a request. -/
lemma Held.request {s₁ : Life σ ρ ι} {i : ι} {stage : OpStage ρ} (hp : Pending s) (h : Held s)
    (hs : OpStep D s (s.requests i) s₁ stage) : Held (s₁.setRequest i stage) := by
  have hat : (s₁.setRequest i stage).requests i = stage := requests_setRequest_self ..
  have hother : ∀ j, j ≠ i → (s₁.setRequest i stage).requests j = s.requests j := fun j hj => by
    rw [requests_setRequest_of_ne hj, requests_of_opStep hs]
  have hfresh := hp.fresh i
  generalize hstage : s.requests i = before at hs hfresh
  intro room hopen
  -- a room that another request has in its hands stays there
  have keep (hold : s.isOpen room = true)
      (hrooms : ∀ id, s.rooms.lookup id = some room → (∃ id, s₁.rooms.lookup id = some room) ∨
        (∃ j model, (s₁.setRequest i stage).requests j = .inserting model room) ∨
        ∃ j id, (s₁.setRequest i stage).requests j = .closing id room)
      (hinserting : ∀ model, before ≠ .inserting model room)
      (hclosing : ∀ id, before ≠ .closing id room) : (∃ id, s₁.rooms.lookup id = some room) ∨
        (∃ j model, (s₁.setRequest i stage).requests j = .inserting model room) ∨
        ∃ j id, (s₁.setRequest i stage).requests j = .closing id room := by
    rcases h room hold with ⟨id, hl⟩ | ⟨j, model, hj⟩ | ⟨j, id, hj⟩
    · exact hrooms id hl
    · refine .inr (.inl ⟨j, model, (hother j ?_).trans hj⟩)
      rintro rfl
      exact hinserting model (hstage.symm.trans hj)
    · refine .inr (.inr ⟨j, id, (hother j ?_).trans hj⟩)
      rintro rfl
      exact hclosing id (hstage.symm.trans hj)
  cases hs with
  | openRoom room' =>
      by_cases hroom : room = room'
      · subst hroom
        exact .inr (.inl ⟨i, _, hat⟩)
      · have hold : Function.update s.isOpen room' true room = true := hopen
        rw [Function.update_of_ne hroom] at hold
        exact keep hold (fun id hl => .inl ⟨id, hl⟩) (by simp) (by simp)
  | @closeRoom id room' =>
      have hroom : room ≠ room' := by
        rintro rfl
        have hclosed : Function.update s.isOpen room false room = true := hopen
        rw [Function.update_self] at hclosed
        cases hclosed
      have hold : Function.update s.isOpen room' false room = true := hopen
      rw [Function.update_of_ne hroom] at hold
      exact keep hold (fun id hl => .inl ⟨id, hl⟩) (by simp) (by simp [hroom.symm])
  | @insertRoom model room' =>
      by_cases hroom : room = room'
      · subst hroom
        exact .inl ⟨model.id, AList.lookup_insert _⟩
      · refine keep hopen (fun id hl => .inl ⟨id, ?_⟩) (by simp [Ne.symm hroom]) (by simp)
        have hne : id ≠ model.id := by
          rintro rfl
          exact (hfresh model.id rfl).2 (AList.lookup_isSome.mp (by rw [hl]; rfl))
        exact (AList.lookup_insert_ne hne).trans hl
  | @dropFound id room' hroom' =>
      refine keep hopen (fun id' hl => ?_) (by simp) (by simp)
      by_cases hid : id' = id
      · obtain rfl : room' = room := Option.some.inj (hroom'.symm.trans (hid ▸ hl))
        exact .inr (.inr ⟨i, id, hat⟩)
      · exact .inl ⟨id', (AList.lookup_erase_ne hid).trans hl⟩
  | _ => exact keep hopen (fun id hl => .inl ⟨id, hl⟩) (by simp) (by simp)

omit [DecidableEq ρ] in
/-- A request that arrives has no room in its hands. -/
lemma Held.arrival {i : ι} {stage : OpStage ρ} (h : Held s) (hi : s.requests i = .absent) :
    Held (s.setRequest i stage) := by
  intro room hopen
  have hother : ∀ j, s.requests j ≠ .absent →
      (s.setRequest i stage).requests j = s.requests j := by
    intro j hj
    refine requests_setRequest_of_ne ?_ s stage
    rintro rfl
    exact hj hi
  rcases h room hopen with hroom | ⟨j, model, hj⟩ | ⟨j, id, hj⟩
  · exact .inl hroom
  · exact .inr (.inl ⟨j, model, (hother j (by simp [hj])).trans hj⟩)
  · exact .inr (.inr ⟨j, id, (hother j (by simp [hj])).trans hj⟩)

/-! ### The shutdown -/

omit [DecidableEq ι] in
/-- No `add_room` gets past its look at the flag of a cancelled node. -/
lemma admitted_of_opStep {stage stage' : OpStage ρ} (h : OpStep D s stage s' stage')
    (hcancelled : s.cancelled = true) (hstage : stage.admitted = false) :
    stage'.admitted = false := by
  cases h with
  | addOpen hc =>
      rw [hcancelled] at hc
      cases hc
  | _ => first | rfl | cases hstage

omit [DecidableEq ι] in
/-- What else a request does that is not past that look. -/
lemma rooms_of_opStep {stage stage' : OpStage ρ} (h : OpStep D s stage s' stage')
    (hstage : stage.admitted = false) :
    (∀ id room, s'.rooms.lookup id = some room → s.rooms.lookup id = some room) ∧
      ∀ room, s.isOpen room = false → s'.isOpen room = false := by
  cases h with
  | insertRoom => cases hstage
  | openRoom room => cases hstage
  | @dropFound id room _ =>
      refine ⟨fun id' room' hl => ?_, fun _ h => h⟩
      by_cases hid : id' = id
      · subst hid
        have hnone : (s.rooms.erase id').lookup id' = some room' := hl
        rw [AList.lookup_erase] at hnone
        cases hnone
      · exact (AList.lookup_erase_ne hid).symm.trans hl
  | @closeRoom id room =>
      refine ⟨fun _ _ h => h, fun room' hclosed => ?_⟩
      show Function.update s.isOpen room false room' = false
      by_cases hroom : room' = room
      · rw [hroom, Function.update_self]
      · rw [Function.update_of_ne hroom, hclosed]
  | _ => exact ⟨fun _ _ h => h, fun _ h => h⟩

omit [DecidableEq ι] in
lemma close_of_opStep {stage stage' : OpStage ρ} (h : OpStep D s stage s' stage') :
    s'.close = s.close ∧ s'.cancelled = s.cancelled := by
  cases h <;> exact ⟨rfl, rfl⟩

/-- The shutdown after a step of a request. -/
lemma Shutting.request {s₁ : Life σ ρ ι} {i : ι} {stage : OpStage ρ} (h : Shutting s)
    (hs : OpStep D s (s.requests i) s₁ stage) : Shutting (s₁.setRequest i stage) := by
  obtain ⟨hclose, hcancelled⟩ := close_of_opStep hs
  have hclose : (s₁.setRequest i stage).close = s.close := hclose
  refine ⟨fun hc => ?_, fun left hc id room hl => ?_, fun hc id hmem => ?_⟩
  · rw [hclose] at hc
    obtain ⟨hflag, hquiet⟩ := h.quiet hc
    refine ⟨hcancelled.trans hflag, fun j => ?_⟩
    by_cases hj : j = i
    · rw [hj, requests_setRequest_self]
      exact admitted_of_opStep hs hflag (hquiet i)
    · rw [requests_setRequest_of_ne hj, requests_of_opStep hs]
      exact hquiet j
  · rw [hclose] at hc
    obtain ⟨hrooms, hopen⟩ := rooms_of_opStep hs ((h.quiet (by simp [hc])).2 i)
    exact (h.visiting left hc id room (hrooms id room hl)).imp_right (hopen room)
  · rw [hclose] at hc
    obtain ⟨hrooms, -⟩ := rooms_of_opStep hs
      ((h.quiet (by rcases hc with hc | hc <;> simp [hc])).2 i)
    obtain ⟨room, hl⟩ := Option.isSome_iff_exists.mp (AList.lookup_isSome.mpr hmem)
    exact h.cleared hc id (AList.lookup_isSome.mp (by rw [hrooms id room hl]; rfl))

omit [DecidableEq ρ] in
/-- The shutdown after a request has arrived. -/
lemma Shutting.arrival {i : ι} {stage : OpStage ρ} (h : Shutting s)
    (hstage : stage.admitted = false) : Shutting (s.setRequest i stage) := by
  refine ⟨fun hc => ⟨(h.quiet hc).1, fun j => ?_⟩, h.visiting, h.cleared⟩
  by_cases hj : j = i
  · rw [hj, requests_setRequest_self, hstage]
  · rw [requests_setRequest_of_ne hj]
    exact (h.quiet hc).2 j

lemma Shutting.step (h : Shutting s) (hok : CancelsQuietly s l) (hs : Step D s l s') :
    Shutting s' := by
  cases hs with
  | request hs => exact h.request hs
  | add name password hi => exact h.arrival rfl
  | remove id hi => exact h.arrival rfl
  | cancel hc => exact ⟨fun _ => ⟨rfl, hok⟩, by simp, by simp⟩
  | iterate hc =>
      refine ⟨fun _ => h.quiet (by simp [hc]), fun left hleft id room hl => .inl ?_, by simp⟩
      obtain rfl : s.rooms.keys = left := by simpa using hleft
      exact AList.mem_keys.mp (AList.lookup_isSome.mp (by rw [hl]; rfl))
  | visit left id room hc hroom =>
      refine ⟨fun _ => h.quiet (by simp [hc]), fun left' hleft id' room' hl => ?_, by simp⟩
      obtain rfl : left.erase id = left' := by simpa using hleft
      show id' ∈ left.erase id ∨ Function.update s.isOpen room false room' = false
      by_cases hr : room' = room
      · exact .inr (by rw [hr, Function.update_self])
      · rw [Function.update_of_ne hr]
        have hid : id' ≠ id := by
          rintro rfl
          exact hr (Option.some.inj (hl.symm.trans hroom))
        exact (h.visiting left hc id' room' hl).imp_left (List.mem_erase_of_ne hid).mpr
  | skip left id hc hgone =>
      refine ⟨fun _ => h.quiet (by simp [hc]), fun left' hleft id' room' hl => ?_, by simp⟩
      obtain rfl : left.erase id = left' := by simpa using hleft
      have hid : id' ≠ id := by
        rintro rfl
        exact hgone (AList.lookup_isSome.mp (by rw [hl]; rfl))
      exact (h.visiting left hc id' room' hl).imp_left (List.mem_erase_of_ne hid).mpr
  | clear hc => exact ⟨fun _ => h.quiet (by simp [hc]), by simp, fun _ => AList.notMem_empty⟩
  | ret hc => exact ⟨fun _ => h.quiet (by simp [hc]), by simp, fun _ => h.cleared (.inl hc)⟩
  | restart disk iterate fresh hs =>
      exact ⟨fun hc => absurd rfl hc, by simp [boot], by simp [boot]⟩

/-- The rooms that are open are those in memory, each under its id. -/
lemma held_foldl_load {fresh : Uuid → ρ} {models : List RoomModel} {node : NodeRooms ρ}
    (hfresh : ∀ id room, node.rooms.lookup id = some room → room = fresh id)
    (hopen : ∀ room, node.isOpen room = true → ∃ id, node.rooms.lookup id = some room) :
    ∀ room, (models.foldl (NodeRooms.load fresh) node).isOpen room = true →
      ∃ id, (models.foldl (NodeRooms.load fresh) node).rooms.lookup id = some room := by
  induction models generalizing node with
  | nil => exact hopen
  | cons model models ih =>
      have hlookup : ∀ id, (NodeRooms.load fresh node model).rooms.lookup id
          = if id = model.id then some (fresh id) else node.rooms.lookup id := by
        intro id
        split_ifs with hid
        · rw [hid]
          exact AList.lookup_insert _
        · exact AList.lookup_insert_ne hid
      refine ih (fun id room hl => ?_) fun room hroom => ?_
      · rw [hlookup] at hl
        split_ifs at hl
        · exact (Option.some.inj hl).symm
        · exact hfresh id room hl
      · by_cases hr : room = fresh model.id
        · exact ⟨model.id, by rw [hlookup, if_pos rfl, hr]⟩
        · have hold : Function.update node.isOpen (fresh model.id) true room = true := hroom
          rw [Function.update_of_ne hr] at hold
          obtain ⟨id, hl⟩ := hopen room hold
          refine ⟨id, ?_⟩
          rw [hlookup, if_neg, hl]
          rintro rfl
          exact hr (hfresh _ room hl)

omit [DecidableEq ι] in
/-- The rooms that a new process has opened are in memory. -/
lemma held_boot {disk : σ} {iterate : Uuid → Fault} {fresh : Uuid → ρ} {log : LifeLog} :
    Held (boot D ι disk iterate fresh log) := by
  intro room hopen
  refine .inl ?_
  have hopen : ((⟨false, ⟨D.contents disk⟩, ∅, fun _ => false⟩ : NodeRooms ρ).start
    iterate fresh).isOpen room = true := hopen
  show ∃ id, ((⟨false, ⟨D.contents disk⟩, ∅, fun _ => false⟩ : NodeRooms ρ).start
    iterate fresh).rooms.lookup id = some room
  unfold NodeRooms.start at hopen ⊢
  split
  · rename_i models hmodels
    rw [hmodels] at hopen
    exact held_foldl_load nofun nofun room hopen
  · rename_i e he
    rw [he] at hopen
    cases hopen

lemma Held.step (hp : Pending s) (hc : Shutting s) (h : Held s) (hs : Step D s l s') :
    Held s' := by
  cases hs with
  | request hs => exact h.request hp hs
  | add name password hi => exact h.arrival hi
  | remove id hi => exact h.arrival hi
  | visit left id room _ _ =>
      intro room' hopen
      have hopen : Function.update s.isOpen room false room' = true := hopen
      by_cases hr : room' = room
      · rw [hr, Function.update_self] at hopen
        cases hopen
      · rw [Function.update_of_ne hr] at hopen
        exact h room' hopen
  | clear hclose =>
      intro room hopen
      refine .inr ((h room hopen).resolve_left ?_)
      rintro ⟨id, hl⟩
      have hclosed := (hc.visiting [] hclose id room hl).resolve_left List.not_mem_nil
      exact absurd hopen (by simp [hclosed])
  | restart disk iterate fresh hs => exact held_boot
  | _ => exact h

/-- **Nothing is left of a node that is shut down quietly.**  In every state that a node reaches in
any number of lives, with any requests at once and any failures of the keyspace, if in each life
no `add_room` was past its look at the flag of the node when `close` was called: once `close` has
returned, no room is in memory, no `add_room` will put one there, and the only rooms that are
still open are those that a `remove_room` is just closing. -/
theorem shutdown_leaves_nothing (h : (lifetimes D ρ ι).ReachBy CancelsQuietly s)
    (hc : s.close = .returned) :
    (∀ id, id ∉ s.rooms) ∧ (∀ i, (s.requests i).admitted = false) ∧
      ∀ room, s.isOpen room = true → ∃ i id, s.requests i = .closing id room := by
  have hinv : Shutting s ∧ Held s := by
    refine Lts.ReachBy.invariant (I := fun s => Shutting s ∧ Held s) ?_ ?_ h
    · rintro s ⟨disk, iterate, fresh, used, -, rfl⟩
      exact ⟨⟨fun hc => absurd rfl hc, by simp [boot], by simp [boot]⟩, held_boot⟩
    · intro s l s' hr hi hok hs
      exact ⟨hi.1.step hok hs, hi.2.step (pending_of_reach hr.reach) hi.1 hs⟩
  obtain ⟨hshut, hheld⟩ := hinv
  have hquiet := (hshut.quiet (by simp [hc])).2
  have hcleared := hshut.cleared (.inr hc)
  refine ⟨hcleared, hquiet, fun room hopen => ?_⟩
  rcases hheld room hopen with ⟨id, hl⟩ | ⟨i, model, hi⟩ | hclosing
  · exact absurd (AList.lookup_isSome.mp (by rw [hl]; rfl)) (hcleared id)
  · have hstage := hquiet i
    rw [hi] at hstage
    cases hstage
  · exact hclosing

section Runs

lemma reachBy_step (h : (lifetimes D ρ ι).ReachBy CancelsQuietly s) (hs : Step D s l s')
    (hok : CancelsQuietly s l) : (lifetimes D ρ ι).ReachBy CancelsQuietly s' := h.step hok hs

/-- A node that has loaded its room is closed; a `remove_room` has taken the room and not closed it
yet. -/
theorem shutdown_leaves_nothing_hall :
    ∃ s : Life (Journal Uuid (Except String RoomModel)) ℕ Bool, s.close = .returned ∧
      s.requests true = .closing hall.id 0 ∧
      (∀ id, id ∉ s.rooms) ∧ (∀ i, (s.requests i).admitted = false) ∧
      ∀ room, s.isOpen room = true → ∃ i id, s.requests i = .closing id room := by
  have h : (lifetimes roomJournal ℕ Bool).ReachBy CancelsQuietly hallStored :=
    .init ⟨_, fun _ => none, fun _ => 0, [hall.id], wellKept_hall, rfl⟩
  have h := reachBy_step h (Step.remove (i := true) hall.id rfl) trivial
  have h := reachBy_step h (Step.request (i := true) (.removeOpen rfl)) trivial
  have h := reachBy_step h (Step.cancel rfl) (fun i => by cases i <;> rfl)
  have h := reachBy_step h (Step.iterate rfl) trivial
  have h := reachBy_step h (Step.request (i := true) (.checkFound rfl)) trivial
  have h := reachBy_step h (Step.request (i := true) (.dropFound 0 rfl)) trivial
  have h := reachBy_step h (Step.skip [hall.id] hall.id rfl (AList.lookup_eq_none.mp rfl)) trivial
  have h := reachBy_step h (Step.clear rfl) trivial
  have h := reachBy_step h (Step.ret rfl) trivial
  exact ⟨_, rfl, rfl, shutdown_leaves_nothing h rfl⟩

/-- An `add_room` has looked at the flag when `close` is called, and puts its open room into memory
after `close` has returned. -/
theorem late_room_survives_close :
    ∃ s : Life (Journal Uuid (Except String RoomModel)) ℕ Unit,
      (lifetimes roomJournal ℕ Unit).Reach s ∧ s.close = .returned ∧
      s.requests () = .done (.ok ()) ∧ s.rooms.lookup hall.id = some 0 ∧ s.isOpen 0 = true := by
  have h := (Lts.Reach.init ⟨⟨[], []⟩, fun _ => none, fun _ => 0, [], wellKept_empty, rfl⟩ :
    (lifetimes roomJournal ℕ Unit).Reach
      (boot roomJournal Unit ⟨[], []⟩ (fun _ => none) (fun _ => 0) ⟨[], [], [], []⟩))
  have h := h.step (Step.add (i := ()) "hall" "pw" rfl)
  have h := h.step (Step.request (i := ()) (.addOpen rfl))
  have h := h.step (Step.cancel rfl)
  have h := h.step (Step.iterate rfl)
  have h := h.step (Step.clear rfl)
  have h := h.step (Step.ret rfl)
  have h := h.step (Step.request (i := ()) (.findNone (fun _ => none) rfl))
  have h := h.step (Step.request (i := ()) (.insertOk hall.id _ List.not_mem_nil rfl))
  have h := h.step (Step.request (i := ()) (.syncOk _ rfl))
  have h := h.step (Step.request (i := ()) (.openRoom 0))
  have h := h.step (Step.request (i := ()) .insertRoom)
  exact ⟨_, h, rfl, rfl, rfl, rfl⟩

end Runs

end Life

end Fernq
