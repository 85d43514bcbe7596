import Mathlib.Tactic
import Fernq.Server.Lifetime

/-!
What a crash cannot take back (`add_room` and `remove_room` in `fernqd/src/server/node.rs`,
`save_room` and `delete_room` in `fernqd/src/storage/db.rs`).

* `DiskChange`: what one step does to the keyspace, and `Durable`: what each request knows of it.
* `acknowledged_requests_survive`: a room that has been added stays stored until it is deleted, and
  one that has been deleted stays deleted, through every crash.
* `removed_room_returns`: not so when `remove_room` returns `Ok` for a room that another request is
  deleting.
* `restart_agrees_iff`: what is in memory after a restart.
-/

namespace Fernq

namespace Life

variable {σ ρ ι : Type} [DecidableEq ρ] [DecidableEq ι] {D : RoomDisk σ} {s s' : Life σ ρ ι}
  {l : Label ι} {id : Uuid} {model : RoomModel}

/-! ### The keyspace -/

/-- What a step of a request does to the keyspace and to the logs of its keys. -/
inductive DiskChange (D : RoomDisk σ) (s s' : Life σ ρ ι) : Prop
  | quiet : s'.disk = s.disk → s'.log.used = s.log.used → s'.log.erased = s.log.erased →
      DiskChange D s s'
  | insert (model : RoomModel) : model.id ∉ s.log.used →
      D.Step s.disk (.insert model.id (.ok model)) s'.disk →
      s'.log.used = model.id :: s.log.used → s'.log.erased = s.log.erased → DiskChange D s s'
  | remove (id : Uuid) : D.Step s.disk (.remove id) s'.disk → s'.log.used = s.log.used →
      s'.log.erased = id :: s.log.erased → DiskChange D s s'
  | flush (op : MapOp Uuid (Except String RoomModel)) : (∀ id, ¬ op.Writes id) → op ≠ .crash →
      D.Step s.disk op s'.disk → s'.log.used = s.log.used → s'.log.erased = s.log.erased →
      DiskChange D s s'

omit [DecidableEq ι] in
lemma diskChange_of_opStep {stage stage' : OpStage ρ} (h : OpStep D s stage s' stage') :
    DiskChange D s s' := by
  cases h with
  | insertOk id disk hfresh hs => exact .insert ⟨id, _, _⟩ hfresh hs rfl rfl
  | eraseOk disk hs => exact .remove _ hs rfl rfl
  | syncErr e disk hs => exact .flush .persistErr (fun _ => id) (by simp) hs rfl rfl
  | syncOk disk hs => exact .flush .persist (fun _ => id) (by simp) hs rfl rfl
  | flushErr e disk hs => exact .flush .persistErr (fun _ => id) (by simp) hs rfl rfl
  | flushOk disk hs => exact .flush .persist (fun _ => id) (by simp) hs rfl rfl
  | _ => exact .quiet rfl rfl rfl

/-- The room is stored and a crash leaves it, unless it has been deleted. -/
def Kept (D : RoomDisk σ) (s : Life σ ρ ι) (model : RoomModel) : Prop :=
  model.id ∈ s.log.erased ∨ D.Holds s.disk model.id (some (.ok model))

/-- The room is not stored, and a crash does not bring it back. -/
def Gone (D : RoomDisk σ) (s : Life σ ρ ι) (id : Uuid) : Prop :=
  id ∈ s.log.used ∧ D.Holds s.disk id none

/-- What a request at this stage knows of the keyspace. -/
def Fact (D : RoomDisk σ) (s : Life σ ρ ι) : OpStage ρ → Prop
  | .syncing model => model.id ∈ s.log.used ∧
      (model.id ∈ s.log.erased ∨ (s.db D).rooms.lookup model.id = some (.ok model))
  | .opening model | .inserting model _ => s.Kept D model
  | .erasing id => id ∈ s.log.used
  | .flushing id => id ∈ s.log.used ∧ (s.db D).rooms.lookup id = none
  | _ => True

section DiskChange

omit [DecidableEq ρ] [DecidableEq ι]

lemma Fact.congr {stage : OpStage ρ} (h : s.Fact D stage) (hdisk : s'.disk = s.disk)
    (hlog : s'.log = s.log) : s'.Fact D stage := by
  cases stage with
  | syncing _ | opening _ | inserting _ _ | erasing _ | flushing _ =>
      simpa only [Fact, Kept, db, hdisk, hlog] using h
  | _ => trivial

lemma DiskChange.used_subset (h : DiskChange D s s') : s.log.used ⊆ s'.log.used := by
  cases h with
  | quiet _ hu _ => exact hu ▸ List.Subset.refl _
  | insert _ _ _ hu _ => exact hu ▸ List.subset_cons_self _ _
  | remove _ _ hu _ => exact hu ▸ List.Subset.refl _
  | flush _ _ _ _ hu _ => exact hu ▸ List.Subset.refl _

lemma DiskChange.erased_subset (h : DiskChange D s s') : s.log.erased ⊆ s'.log.erased := by
  cases h with
  | quiet _ _ he => exact he ▸ List.Subset.refl _
  | insert _ _ _ _ he => exact he ▸ List.Subset.refl _
  | remove _ _ _ he => exact he ▸ List.subset_cons_self _ _
  | flush _ _ _ _ _ he => exact he ▸ List.Subset.refl _

/-- A key that has been used and is not erased now is read as before. -/
lemma DiskChange.lookup (h : DiskChange D s s') (hid : id ∈ s.log.used)
    (herased : id ∉ s'.log.erased) : (s'.db D).rooms.lookup id = (s.db D).rooms.lookup id := by
  cases h with
  | quiet hd _ _ => rw [db, hd, db]
  | insert model hfresh hs _ _ =>
      exact DurableMap.lookup_of_step hs (fun heq => hfresh (heq ▸ hid)) (by simp)
  | remove id' hs _ he =>
      exact DurableMap.lookup_of_step hs
        (fun heq => herased (by rw [he, heq]; exact List.mem_cons_self)) (by simp)
  | flush op hw hc hs _ _ => exact DurableMap.lookup_of_step hs (hw id) hc

/-- What holds of such a key stays. -/
lemma DiskChange.holds (h : DiskChange D s s') (hid : id ∈ s.log.used)
    (herased : id ∉ s'.log.erased) {value : Option (Except String RoomModel)}
    (hh : D.Holds s.disk id value) : D.Holds s'.disk id value := by
  cases h with
  | quiet hd _ _ => rwa [hd]
  | insert model hfresh hs _ _ => exact hh.step hs fun heq => hfresh (heq ▸ hid)
  | remove id' hs _ he =>
      exact hh.step hs fun heq => herased (by rw [he, heq]; exact List.mem_cons_self)
  | flush op hw _ hs _ _ => exact hh.step hs (hw id)

/-- A key that has been used and is gone stays so. -/
lemma DiskChange.lookup_none (h : DiskChange D s s') (hid : id ∈ s.log.used)
    (hl : (s.db D).rooms.lookup id = none) : (s'.db D).rooms.lookup id = none := by
  cases h with
  | quiet hd _ _ => rwa [db, hd]
  | insert model hfresh hs _ _ =>
      exact (DurableMap.lookup_of_step hs (fun heq => hfresh (heq ▸ hid)) (by simp)).trans hl
  | remove id' hs _ _ =>
      rw [db, D.contents_remove hs]
      by_cases heq : id = id'
      · rw [heq, AList.lookup_erase]
      · rw [AList.lookup_erase_ne heq]
        exact hl
  | flush op hw hc hs _ _ => exact (DurableMap.lookup_of_step hs (hw id) hc).trans hl

/-- And a crash does not bring it back, if it did not before. -/
lemma DiskChange.holds_none (h : DiskChange D s s') (hid : id ∈ s.log.used)
    (hh : D.Holds s.disk id none) : D.Holds s'.disk id none := by
  cases h with
  | quiet hd _ _ => rwa [hd]
  | insert model hfresh hs _ _ => exact hh.step hs fun heq => hfresh (heq ▸ hid)
  | remove id' hs _ _ =>
      by_cases heq : id' = id
      · subst heq
        exact hh.remove hs
      · exact hh.step hs heq
  | flush op hw _ hs _ _ => exact hh.step hs (hw id)

lemma DiskChange.wellKept (h : DiskChange D s s') (hk : WellKept D s.disk s.log.used) :
    WellKept D s'.disk s'.log.used := by
  -- what is known now was known before, or has just been inserted
  have hknown : ∀ id value, D.Known s'.disk id value →
      D.Known s.disk id value ∨ ∃ model : RoomModel, id = model.id ∧ value = .ok model ∧
        id ∈ s'.log.used := by
    intro id value hv
    cases h with
    | quiet hd _ _ => exact .inl (hd ▸ hv)
    | insert model _ hs hu _ =>
        refine (DurableMap.known_of_step hs hv).imp_right fun heq => ?_
        obtain ⟨rfl, rfl⟩ := MapOp.insert.inj heq
        exact ⟨model, rfl, rfl, by rw [hu]; exact List.mem_cons_self⟩
    | remove id' hs _ _ =>
        exact .inl ((DurableMap.known_of_step hs hv).resolve_right (by simp))
    | flush op hw _ hs _ _ =>
        refine .inl ((DurableMap.known_of_step hs hv).resolve_right ?_)
        rintro rfl
        exact hw id rfl
  refine ⟨fun id model hv => ?_, fun id value hv => ?_⟩
  · rcases hknown id _ hv with hold | ⟨model', rfl, hvalue, -⟩
    · exact hk.keys id model hold
    · exact (Except.ok.inj hvalue) ▸ rfl
  · rcases hknown id _ hv with hold | ⟨-, -, -, hused⟩
    · exact h.used_subset (hk.used id value hold)
    · exact hused

lemma DiskChange.kept (h : DiskChange D s s') (hk : WellKept D s.disk s.log.used)
    (hm : s.Kept D model) : s'.Kept D model := by
  by_cases herased : model.id ∈ s'.log.erased
  · exact .inl herased
  · have hh := hm.resolve_left fun hold => herased (h.erased_subset hold)
    exact .inr (h.holds (hk.used _ _ (.inl hh.lookup)) herased hh)

lemma DiskChange.gone (h : DiskChange D s s') (hg : s.Gone D id) : s'.Gone D id :=
  ⟨h.used_subset hg.1, h.holds_none hg.1 hg.2⟩

/-- What a request knows stays so when another one takes a step. -/
lemma DiskChange.fact (h : DiskChange D s s') (hk : WellKept D s.disk s.log.used)
    {stage : OpStage ρ} (hf : s.Fact D stage) : s'.Fact D stage := by
  cases stage with
  | syncing model =>
      refine ⟨h.used_subset hf.1, ?_⟩
      by_cases herased : model.id ∈ s'.log.erased
      · exact .inl herased
      · refine .inr ((h.lookup hf.1 herased).trans (hf.2.resolve_left fun hold => ?_))
        exact herased (h.erased_subset hold)
  | opening model => exact h.kept hk hf
  | inserting model room => exact h.kept hk hf
  | erasing id => exact h.used_subset hf
  | flushing id => exact ⟨h.used_subset hf.1, h.lookup_none hf.1 hf.2⟩
  | _ => trivial

end DiskChange

/-! ### Requests -/

/-- What the node and its requests know of the keyspace. -/
structure Durable (D : RoomDisk σ) (s : Life σ ρ ι) : Prop where
  wellKept : WellKept D s.disk s.log.used
  fact : ∀ i, s.Fact D (s.requests i)
  added : ∀ model ∈ s.log.added, s.Kept D model
  removed : ∀ id ∈ s.log.removed, s.Gone D id

omit [DecidableEq ι] in
lemma requests_of_opStep {stage stage' : OpStage ρ} (h : OpStep D s stage s' stage') :
    s'.requests = s.requests := by
  cases h <;> rfl

omit [DecidableEq ι] in
/-- What a request knows after its step, and what has been acknowledged by it. -/
lemma fact_of_opStep {stage stage' : OpStage ρ} (h : OpStep D s stage s' stage')
    (hk : WellKept D s.disk s.log.used) (hf : s.Fact D stage) :
    s'.Fact D stage' ∧ (∀ model ∈ s'.log.added, model ∈ s.log.added ∨ s'.Kept D model) ∧
      ∀ id ∈ s'.log.removed, id ∈ s.log.removed ∨ s'.Gone D id := by
  cases h with
  | insertOk id disk hfresh hs =>
      refine ⟨⟨List.mem_cons_self, .inr ?_⟩, fun _ => .inl, fun _ => .inl⟩
      rw [db, D.contents_insert hs]
      exact AList.lookup_insert _
  | syncOk disk hs =>
      refine ⟨?_, fun _ => .inl, fun _ => .inl⟩
      exact hf.2.imp_right fun hl => DurableMap.holds_of_persist hs hl
  | openRoom room => exact ⟨hf, fun _ => .inl, fun _ => .inl⟩
  | insertRoom =>
      refine ⟨trivial, fun model hmem => ?_, fun _ => .inl⟩
      rcases List.mem_cons.mp hmem with rfl | hold
      · exact .inr hf
      · exact .inl hold
  | lookFound hid =>
      refine ⟨?_, fun _ => .inl, fun _ => .inl⟩
      obtain ⟨value, hl⟩ := Option.isSome_iff_exists.mp (AList.lookup_isSome.mpr hid)
      exact hk.used _ _ (.inl hl)
  | eraseOk disk hs =>
      refine ⟨⟨hf, ?_⟩, fun _ => .inl, fun _ => .inl⟩
      rw [db, D.contents_remove hs]
      exact AList.lookup_erase _ _
  | flushOk disk hs =>
      refine ⟨trivial, fun _ => .inl, fun id hmem => ?_⟩
      rcases List.mem_cons.mp hmem with rfl | hold
      · exact .inr ⟨hf.1, DurableMap.holds_of_persist hs hf.2⟩
      · exact .inl hold
  | _ => exact ⟨trivial, fun _ => .inl, fun _ => .inl⟩

omit [DecidableEq ρ] [DecidableEq ι] in
/-- The same keyspace and the same logs. -/
lemma Durable.congr (h : Durable D s) (hdisk : s'.disk = s.disk) (hlog : s'.log = s.log)
    (hrequests : ∀ i, s'.Fact D (s'.requests i)) : Durable D s' := by
  refine ⟨hdisk ▸ hlog ▸ h.wellKept, hrequests, fun model hmem => ?_, fun id hmem => ?_⟩
  · rw [Kept, hdisk, hlog]
    exact h.added model (hlog ▸ hmem)
  · rw [Gone, hdisk, hlog]
    exact h.removed id (hlog ▸ hmem)

omit [DecidableEq ι] in
/-- A crash leaves what is kept, and brings back nothing that is gone. -/
lemma Durable.boot {disk : σ} {iterate : Uuid → Fault} {fresh : Uuid → ρ} (h : Durable D s)
    (hs : D.Step s.disk .crash disk) : Durable D (boot D ι disk iterate fresh s.log) := by
  have hknown : ∀ id value, D.Known disk id value → D.Known s.disk id value := by
    intro id value hv
    exact (DurableMap.known_of_step hs hv).resolve_right (by simp)
  refine ⟨⟨fun id model hv => ?_, fun id value hv => ?_⟩, fun _ => trivial, ?_, ?_⟩
  · exact h.wellKept.keys id model (hknown id _ hv)
  · exact h.wellKept.used id value (hknown id _ hv)
  · exact fun model hmem => (h.added model hmem).imp_right fun hh => hh.step hs nofun
  · exact fun id hmem => ⟨(h.removed id hmem).1, (h.removed id hmem).2.step hs nofun⟩

lemma Durable.step (h : Durable D s) (hs : Step D s l s') : Durable D s' := by
  cases hs with
  | @request s₁ i stage hs =>
      have hchange := diskChange_of_opStep hs
      obtain ⟨hfact, hadded, hremoved⟩ := fact_of_opStep hs h.wellKept (h.fact i)
      refine ⟨hchange.wellKept h.wellKept, fun j => ?_, fun model hmem => ?_, fun id hmem => ?_⟩
      · by_cases hj : j = i
        · rw [hj, requests_setRequest_self]
          exact hfact.congr rfl rfl
        · rw [requests_setRequest_of_ne hj, requests_of_opStep hs]
          exact (hchange.fact h.wellKept (h.fact j)).congr rfl rfl
      · exact (hadded model hmem).elim (fun hold => hchange.kept h.wellKept (h.added model hold)) id
      · exact (hremoved id hmem).elim (fun hold => hchange.gone (h.removed id hold)) fun hg => hg
  | @add i name password hi =>
      refine h.congr rfl rfl fun j => ?_
      by_cases hj : j = i
      · rw [hj, requests_setRequest_self]
        trivial
      · rw [requests_setRequest_of_ne hj]
        exact (h.fact j).congr rfl rfl
  | @remove i id hi =>
      refine h.congr rfl rfl fun j => ?_
      by_cases hj : j = i
      · rw [hj, requests_setRequest_self]
        trivial
      · rw [requests_setRequest_of_ne hj]
        exact (h.fact j).congr rfl rfl
  | restart disk iterate fresh hs => exact h.boot hs
  | _ => exact h.congr rfl rfl fun i => (h.fact i).congr rfl rfl

lemma durable_of_reach (h : (lifetimes D ρ ι).Reach s) : Durable D s := by
  refine h.invariant ?_ fun s l s' _ hi hs => hi.step hs
  rintro s ⟨disk, iterate, fresh, used, hkept, rfl⟩
  exact ⟨hkept, fun _ => trivial, nofun, nofun⟩

/-- **What has been acknowledged survives.**  In every state that a node reaches in any number of
lives, with any requests at once and any failures of the keyspace, and whenever the process is
killed: a room whose `add_room` has returned `Ok` is stored with its name and its password, and
a crash leaves it so, until it is taken out of the keyspace; and a room that a `remove_room` that
returned `Ok` has found in the keyspace is not stored, and no crash brings it back. -/
theorem acknowledged_requests_survive (h : (lifetimes D ρ ι).Reach s) :
    (∀ model ∈ s.log.added, model.id ∉ s.log.erased →
      D.Holds s.disk model.id (some (.ok model))) ∧
    ∀ id ∈ s.log.removed, D.Holds s.disk id none := by
  have hd := durable_of_reach h
  exact ⟨fun model hmem herased => (hd.added model hmem).resolve_left herased,
    fun id hmem => (hd.removed id hmem).2⟩

/-- **What a restart finds.**  From every state that a node reaches, and whatever the crash leaves
of the keyspace, the node that starts on it has exactly the stored rooms in memory if and only if
every one of them can be read; the rooms it has are open, and it has none at all if one of them
cannot be read. -/
theorem restart_agrees_iff (h : (lifetimes D ρ ι).Reach s) {disk : σ}
    (hs : D.Step s.disk .crash disk) (iterate : Uuid → Fault) (fresh : Uuid → ρ) :
    let s' := boot D ι disk iterate fresh s.log
    ((∀ id, id ∈ s'.rooms ↔ id ∈ (s'.db D).rooms) ↔ NodeRooms.Readable (s'.db D) iterate) ∧
      (∀ id room, s'.rooms.lookup id = some room → s'.isOpen room = true) ∧
      (¬ NodeRooms.Readable (s'.db D) iterate → s'.rooms = ∅) := by
  intro s'
  have hboot : Durable D s' := (durable_of_reach h).boot hs
  have hunread (hread : ¬ NodeRooms.Readable (s'.db D) iterate) : s'.rooms = ∅ := by
    show (NodeRooms.start _ iterate fresh).rooms = ∅
    rw [NodeRooms.start_of_not_readable hread]
  refine ⟨⟨fun hagree => ?_, fun hread id => ?_⟩, ?_, hunread⟩
  · by_contra hread
    -- then there is a room that is not in memory
    refine hread fun id value hl => ?_
    have hmem : id ∈ s'.rooms := (hagree id).mpr (AList.lookup_isSome.mp (by rw [hl]; rfl))
    rw [hunread hread] at hmem
    exact absurd hmem (AList.notMem_empty id)
  · exact NodeRooms.mem_start rfl hread fun id model hl => hboot.wellKept.keys id model (.inl hl)
  · show ∀ id room, (NodeRooms.start _ iterate fresh).rooms.lookup id = some room →
      (NodeRooms.start _ iterate fresh).isOpen room = true
    unfold NodeRooms.start
    split
    · exact NodeRooms.isOpen_foldl_load nofun
    · exact nofun

/-! ### A room in a journal -/

section Runs

/-- The keyspace as a journal. -/
abbrev roomJournal : RoomDisk (Journal Uuid (Except String RoomModel)) := Journal.durableMap _ _

def hall : RoomModel := ⟨NodeRooms.hallId, "hall", "pw"⟩

lemma wellKept_empty : WellKept roomJournal ⟨[], []⟩ [] := by
  have hnone : ∀ id value, ¬ roomJournal.Known ⟨[], []⟩ id value := by
    rintro id value (hl | ⟨n, hn⟩)
    · cases hl
    · rw [List.take_nil] at hn
      cases hn
  exact ⟨fun id model hk => absurd hk (hnone id _), fun id value hk => absurd hk (hnone id value)⟩

/-- A room is added, and the process is killed and starts again. -/
theorem acknowledged_requests_survive_hall :
    ∃ s : Life (Journal Uuid (Except String RoomModel)) ℕ Unit, hall ∈ s.log.added ∧
      s.requests () = .absent ∧ roomJournal.Holds s.disk hall.id (some (.ok hall)) := by
  have h := (Lts.Reach.init ⟨⟨[], []⟩, (fun _ => none), fun _ => 0, [], wellKept_empty, rfl⟩ :
    (lifetimes roomJournal ℕ Unit).Reach
      (boot roomJournal Unit ⟨[], []⟩ (fun _ => none) (fun _ => 0) ⟨[], [], [], []⟩))
  have h := h.step (Step.add (i := ()) "hall" "pw" rfl)
  have h := h.step (Step.request (i := ()) (.addOpen rfl))
  have h := h.step (Step.request (i := ()) (.findNone (fun _ => none) rfl))
  have h := h.step (Step.request (i := ()) (.insertOk NodeRooms.hallId _ nofun rfl))
  have h := h.step (Step.request (i := ()) (.syncOk _ rfl))
  have h := h.step (Step.request (i := ()) (.openRoom 0))
  have h := h.step (Step.request (i := ()) .insertRoom)
  have h := h.step (Step.restart _ (fun _ => none) (fun _ => 1) ⟨0, rfl⟩)
  exact ⟨_, List.mem_cons_self, rfl,
    (acknowledged_requests_survive h).1 hall List.mem_cons_self nofun⟩

/-- A journal whose only write is on the disk. -/
lemma wellKept_hall : WellKept roomJournal ⟨[(hall.id, some (.ok hall))], []⟩ [hall.id] := by
  have hknown : ∀ id value, roomJournal.Known ⟨[(hall.id, some (.ok hall))], []⟩ id value →
      id = hall.id ∧ value = .ok hall := by
    intro id value hk
    have hl : (Journal.replay [(hall.id, some (Except.ok hall : Except String RoomModel))]).lookup
        id = some value := by
      rcases hk with hl | ⟨n, hn⟩
      · exact hl
      · rw [List.take_nil] at hn
        exact hn.symm
    by_cases hid : id = hall.id
    · subst hid
      exact ⟨rfl, (Option.some.inj hl).symm⟩
    · have hnone : (Journal.replay
          [(hall.id, some (Except.ok hall : Except String RoomModel))]).lookup id = none :=
        (AList.lookup_insert_ne hid).trans (AList.lookup_empty id)
      rw [hnone] at hl
      cases hl
  refine ⟨fun id model hk => ?_, fun id value hk => ?_⟩
  · obtain ⟨rfl, heq⟩ := hknown id _ hk
    rw [Except.ok.inj heq]
  · rw [(hknown id value hk).1]
    exact List.mem_singleton_self _

/-- A node that starts on this disk. -/
def hallStored : Life (Journal Uuid (Except String RoomModel)) ℕ Bool :=
  boot roomJournal Bool ⟨[(hall.id, some (.ok hall))], []⟩ (fun _ => none) (fun _ => 0)
    ⟨[hall.id], [], [], []⟩

lemma reach_hallStored : (lifetimes roomJournal ℕ Bool).Reach hallStored :=
  .init ⟨_, fun _ => none, fun _ => 0, [hall.id], wellKept_hall, rfl⟩

/-- Two requests remove the room.  One has taken it out of the keyspace and not yet persisted that
when the other finds it gone and returns `Ok`; the process is killed, and the room is back. -/
theorem removed_room_returns : ∃ s s' s'' : Life (Journal Uuid (Except String RoomModel)) ℕ Bool,
    (lifetimes roomJournal ℕ Bool).Reach s ∧ s.requests false = .removing hall.id ∧
    (lifetimes roomJournal ℕ Bool).Leads s s' ∧ s'.requests false = .done (.ok ()) ∧
    Step roomJournal s' .restart s'' ∧ s''.rooms.lookup hall.id = some 0 := by
  have h := reach_hallStored.step (Step.remove (i := true) hall.id rfl)
  have h := h.step (Step.remove (i := false) hall.id rfl)
  have hl := h.leads_self
  have hl := hl.tail (Step.request (i := true) (.removeOpen rfl))
  have hl := hl.tail (Step.request (i := false) (.removeOpen rfl))
  have hl := hl.tail (Step.request (i := true) (.checkFound rfl))
  have hl := hl.tail (Step.request (i := false) (.checkFound rfl))
  have hl := hl.tail (Step.request (i := true) (.dropFound 0 rfl))
  have hl := hl.tail (Step.request (i := false) (.dropMissing rfl))
  have hl := hl.tail (Step.request (i := true) .closeRoom)
  have hl := hl.tail (Step.request (i := true) (.lookFound (AList.lookup_isSome.mp rfl)))
  have hl := hl.tail (Step.request (i := true) (.eraseOk _ rfl))
  have hl := hl.tail (Step.request (i := false) (.lookMissing (AList.lookup_eq_none.mp rfl)))
  exact ⟨_, _, _, h, rfl, hl, rfl, .restart _ (fun _ => none) (fun _ => 0) ⟨0, rfl⟩, rfl⟩

/-- The process is killed before the deletion of a room has been persisted. -/
theorem restart_agrees_iff_hall : ∃ s : Life (Journal Uuid (Except String RoomModel)) ℕ Bool,
    ((∀ id, id ∈ s.rooms ↔ id ∈ (s.db roomJournal).rooms) ↔
        NodeRooms.Readable (s.db roomJournal) fun _ => none) ∧
      (∀ id room, s.rooms.lookup id = some room → s.isOpen room = true) ∧
      (¬ NodeRooms.Readable (s.db roomJournal) (fun _ => none) → s.rooms = ∅) := by
  have h := reach_hallStored.step (Step.remove (i := true) hall.id rfl)
  have h := h.step (Step.request (i := true) (.removeOpen rfl))
  have h := h.step (Step.request (i := true) (.checkFound rfl))
  have h := h.step (Step.request (i := true) (.dropFound 0 rfl))
  have h := h.step (Step.request (i := true) .closeRoom)
  have h := h.step (Step.request (i := true) (.lookFound (AList.lookup_isSome.mp rfl)))
  have h := h.step (Step.request (i := true) (.eraseOk _ rfl))
  exact ⟨_, restart_agrees_iff h
    (⟨0, rfl⟩ : roomJournal.Step _ .crash ⟨[(hall.id, some (.ok hall))], []⟩)
    (fun _ => none) fun _ => 1⟩

end Runs

end Life

end Fernq
