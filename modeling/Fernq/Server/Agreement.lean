import Mathlib.Tactic
import Fernq.Server.Requests

/-!
Whether the store and the map of rooms agree, and whether room names are unique, under any order of
the steps of `add_room` and `remove_room` (`fernqd/src/server/node.rs`).

* `Agree`, `AtRest`, `InsertsInTime`: a room that a `remove_room` has deleted between `create_room`
  and `rooms.insert` of its `add_room` is put into memory all the same.
* `agree_at_rest`: without that, memory and store agree at rest; `deleted_room_is_inserted` is a run
  with it.
* `NamesUnique`, `CreatesApart`: two `add_room` may both find that a name is free.
* `FoundUnused.step`: what `find_rooms_by_name` has found stays true until the room is created.
* `names_unique_iff`: names stay unique as long as no `create_room` falls between the two steps of
  another request; `name_is_taken_twice`.
-/

namespace Fernq

namespace NodeRun

variable {ρ ι κ : Type} [DecidableEq ρ] [DecidableEq ι] [DecidableEq κ] {s s' : NodeRun ρ ι κ}
  {l : Label ι κ} {i : ι} {id : Uuid} {parseStr : String → Except String Uuid}

/-! ### Memory and store -/

/-- The rooms in memory are the stored rooms. -/
def Agree (node : NodeRooms ρ) : Prop := ∀ id, id ∈ node.rooms ↔ id ∈ node.db.rooms

/-- No request is in progress. -/
def AtRest (s : NodeRun ρ ι κ) : Prop :=
  ∀ i, s.requests i = .absent ∨ ∃ result, s.requests i = .done result

/-- The room is stored and no `remove_room` is between its `rooms.remove` and its `delete_room`, or
some `remove_room` has still to make its `rooms.remove`. -/
def Kept (s : NodeRun ρ ι κ) (id : Uuid) : Prop :=
  (id ∈ s.node.db.rooms ∧ ¬ s.HasPart id .dropped) ∨ s.HasPart id .dropping

/-- The step puts no room into memory that is no longer kept. -/
def InsertsInTime (s : NodeRun ρ ι κ) : Label ι κ → Prop
  | .request i => ∀ id room, s.requests i = .inserting id room → s.Kept id
  | _ => True

/-- A request that has put a room into memory was about to. -/
lemma inserting_of_step (h : Step parseStr s (.request i) s')
    (hbefore : (s.requests i).part id = some .pending) (hafter : (s'.requests i).part id = none) :
    ∃ room, s.requests i = .inserting id room := by
  cases h with
  | request hstep =>
      rw [requests_setRequest_self] at hafter
      generalize s.requests i = stage at hstep hbefore ⊢
      cases hstep with
      | insert =>
          rename_i id' room
          have heq : id' = id := by
            by_contra hne
            simp [RequestStage.part, hne] at hbefore
          exact ⟨room, by rw [heq]⟩
      | openRoom room =>
          simp only [RequestStage.part] at hbefore hafter
          rw [hbefore] at hafter
          cases hafter
      | _ => simp [RequestStage.part] at hbefore

/-- A room in memory is kept. -/
def MemoryKept (s : NodeRun ρ ι κ) : Prop := ∀ id, id ∈ s.node.rooms → s.Kept id

lemma MemoryKept.step (h : MemoryKept s) (hok : InsertsInTime s l) (hs : Step parseStr s l s') :
    MemoryKept s' := by
  intro id hmem
  cases change_of_step hs id with
  | still _ hnode hparts =>
      rw [hnode] at hmem
      unfold Kept
      rw [hnode, hasPart_iff_of_part hparts, hasPart_iff_of_part hparts]
      exact h id hmem
  | request i hchange hother =>
      have hkeep : ∀ q, s.HasPart id q → (s.requests i).part id ≠ some q → s'.HasPart id q :=
        fun q => hasPart_of_ne hother
      have hback : ∀ q, s'.HasPart id q → (s'.requests i).part id ≠ some q → s.HasPart id q :=
        fun q => hasPart_of_ne fun j hj => (hother j hj).symm
      have hinsert : (s.requests i).part id = some .pending → (s'.requests i).part id = none →
          ∃ room, s.requests i = .inserting id room := inserting_of_step hs
      generalize hp : (s.requests i).part id = p at hchange
      generalize hp' : (s'.requests i).part id = p' at hchange
      cases hchange with
      | quiet _ hrooms hdb =>
          unfold Kept
          rw [hdb, hasPart_iff_of_request hother (hp'.trans hp.symm),
            hasPart_iff_of_request hother (hp'.trans hp.symm)]
          exact h id (hrooms.mp hmem)
      | check _ _ => exact .inr ⟨i, hp'⟩
      | create hrooms hnone _ => exact absurd (hrooms.mp hmem) hnone
      | insert _ hdb =>
          obtain ⟨room, hroom⟩ := hinsert hp hp'
          obtain ⟨hstored, hnone⟩ | hpart := hok id room hroom
          · exact .inl ⟨hdb.mpr hstored, fun hpart => hnone (hback _ hpart (by simp [hp']))⟩
          · exact .inr (hkeep _ hpart (by simp [hp]))
      | drop hnone _ => exact absurd hmem hnone
      | delete hrooms _ =>
          -- the room was in memory while this request was about to delete it
          obtain ⟨-, hnone⟩ | hpart := h id (hrooms.mp hmem)
          · exact absurd ⟨i, hp⟩ hnone
          · exact .inr (hkeep _ hpart (by simp [hp]))

omit [DecidableEq ρ] [DecidableEq ι] [DecidableEq κ] in
lemma not_hasPart_of_atRest (h : AtRest s) (id : Uuid) (p : Part) : ¬ s.HasPart id p := by
  rintro ⟨i, hi⟩
  obtain habsent | ⟨result, hdone⟩ := h i
  · rw [habsent] at hi
    cases hi
  · rw [hdone] at hi
    cases hi

omit [DecidableEq ρ] [DecidableEq ι] [DecidableEq κ] in
lemma not_hasPart_idle (node : NodeRooms ρ) (id : Uuid) (p : Part) :
    ¬ (idle node : NodeRun ρ ι κ).HasPart id p :=
  not_hasPart_of_atRest (fun _ => .inl rfl) id p

/-- A stored room is in memory, or some request has it in hand, in every run that starts in
agreement. -/
lemma accounted_of_reach {Start : NodeRooms ρ → Prop} (hstart : ∀ node, Start node → Agree node)
    (h : (lts ι κ parseStr Start).Reach s) : Accounted s := by
  refine h.invariant ?_ fun s l s' _ hacc hs => hacc.step hs
  rintro s ⟨node, hnode, rfl⟩ id hstored
  exact .inl ((hstart node hnode id).mpr hstored)

/-- **Memory and store agree at rest, if no room is put into memory that is not kept.**  Start a
node in agreement.  In every run in which an `add_room` inserts its room only while it is stored and
not about to be deleted, or while a `remove_room` is still to take it out, the rooms in memory are
the stored rooms whenever no request is in progress. -/
theorem agree_at_rest (h : (lts ι κ parseStr Agree).ReachBy InsertsInTime s) (hrest : AtRest s) :
    Agree (ρ := ρ) s.node := by
  have hkept : MemoryKept s := by
    refine h.invariant ?_ fun s l s' _ hkept hok hs => hkept.step hok hs
    rintro s ⟨node, hagree, rfl⟩ id hmem
    exact .inl ⟨(hagree id).mp hmem, not_hasPart_idle node id _⟩
  have hacc := accounted_of_reach (fun _ hagree => hagree) h.reach
  intro id
  constructor
  · intro hmem
    obtain ⟨hstored, -⟩ | hpart := hkept id hmem
    · exact hstored
    · exact absurd hpart (not_hasPart_of_atRest hrest id _)
  · intro hstored
    obtain hmem | hpart | hpart := hacc id hstored
    · exact hmem
    · exact absurd hpart (not_hasPart_of_atRest hrest id _)
    · exact absurd hpart (not_hasPart_of_atRest hrest id _)

section Runs

open NodeRooms

lemma agree_emptyNode : Agree emptyNode := by
  intro id
  constructor
  · intro h
    exact absurd h (AList.notMem_empty _)
  · intro h
    exact absurd h (AList.notMem_empty _)

/-- A room is added, and no other request comes. -/
lemma hall_added : ∃ s : NodeRun ℕ Unit Unit,
    (lts Unit Unit (fun _ => .error "") Agree).ReachBy InsertsInTime s ∧ AtRest s ∧
      hallId ∈ s.node.db.rooms := by
  have h := (Lts.ReachBy.init ⟨emptyNode, agree_emptyNode, rfl⟩ :
    (lts Unit Unit (fun _ => .error "") Agree).ReachBy InsertsInTime (idle emptyNode))
  have h := h.step (by trivial) (Step.add (i := ()) "hall" "pw" rfl)
  have h := h.step (by intro _ _ hs; cases hs) (Step.request (i := ()) (.addOpen rfl))
  have h := h.step (by intro _ _ hs; cases hs) (Step.request (i := ()) (.findNone rfl))
  have h := h.step (by intro _ _ hs; cases hs)
    (Step.request (i := ()) (.create hallId (by decide) (by decide)))
  have h := h.step (by intro _ _ hs; cases hs) (Step.request (i := ()) (.openRoom 0))
  refine ⟨_, h.step ?_ (Step.request (i := ()) .insert), ?_, AList.lookup_isSome.mp rfl⟩
  · intro id room hs
    cases hs
    refine .inl ⟨AList.lookup_isSome.mp rfl, ?_⟩
    rintro ⟨i, hi⟩
    simp [RequestStage.part] at hi
  · exact fun _ => .inr ⟨_, rfl⟩

/-- A room that is added alone is stored and in memory. -/
theorem agree_at_rest_hall : ∃ s : NodeRun ℕ Unit Unit,
    hallId ∈ s.node.db.rooms ∧ Agree s.node := by
  obtain ⟨s, h, hrest, hstored⟩ := hall_added
  exact ⟨s, hstored, agree_at_rest h hrest⟩

/-- A room is removed between `create_room` and `rooms.insert` of its `add_room`: it is in memory in
the end, and not stored. -/
theorem deleted_room_is_inserted : ∃ s : NodeRun ℕ Bool Unit,
    (lts Bool Unit (fun _ => .error "") Agree).Reach s ∧ AtRest s ∧
      hallId ∈ s.node.rooms ∧ ¬ hallId ∈ s.node.db.rooms ∧ ¬ Agree s.node := by
  have h := (Lts.Reach.init ⟨emptyNode, agree_emptyNode, rfl⟩ :
    (lts Bool Unit (fun _ => .error "") Agree).Reach (idle emptyNode))
  have h := h.step (Step.add (i := true) "hall" "pw" rfl)
  have h := h.step (Step.request (i := true) (.addOpen rfl))
  have h := h.step (Step.request (i := true) (.findNone rfl))
  have h := h.step (Step.request (i := true) (.create hallId (by decide) (by decide)))
  have h := h.step (Step.remove (i := false) hallId rfl)
  have h := h.step (Step.request (i := false) (.removeOpen rfl))
  have h := h.step (Step.request (i := false) (.checkFound rfl))
  have h := h.step (Step.request (i := false) (.dropMissing rfl))
  have h := h.step (Step.request (i := false) .delete)
  have h := h.step (Step.request (i := true) (.openRoom 0))
  have h := h.step (Step.request (i := true) .insert)
  refine ⟨_, h, ?_, AList.lookup_isSome.mp rfl, AList.lookup_eq_none.mp rfl, ?_⟩
  · intro i
    cases i with
    | true => exact .inr ⟨_, rfl⟩
    | false => exact .inr ⟨_, rfl⟩
  · intro hagree
    exact absurd ((hagree hallId).mp (AList.lookup_isSome.mp rfl)) (AList.lookup_eq_none.mp rfl)

end Runs

/-! ### Names -/

/-- No two stored rooms share a name. -/
def NamesUnique (db : StorageDB) : Prop :=
  ∀ id id' model model', db.rooms.lookup id = some (.ok model) →
    db.rooms.lookup id' = some (.ok model') → model.name = model'.name → id = id'

/-- No stored room has the name. -/
def Unused (db : StorageDB) (name : String) : Prop :=
  ∀ id model, db.rooms.lookup id = some (.ok model) → model.name ≠ name

/-- The request is between its `find_rooms_by_name` and its `create_room` of this name. -/
def AboutToCreate (s : NodeRun ρ ι κ) (i : ι) (name : String) : Prop :=
  ∃ password, s.requests i = .creating name password

/-- The step is no `create_room` of a name that another request is about to create. -/
def CreatesApart (s : NodeRun ρ ι κ) : Label ι κ → Prop
  | .request i => ∀ name, s.AboutToCreate i name → ∀ j, j ≠ i → ¬ s.AboutToCreate j name
  | _ => True

/-- The names that requests are about to create have been found unused, and still are. -/
def FoundUnused (s : NodeRun ρ ι κ) : Prop :=
  ∀ i name, s.AboutToCreate i name → Unused s.node.db name

/-- What a step does to the store: it creates a room, or it creates none and deletes at most one. -/
lemma db_of_step (h : Step parseStr s l s') :
    (∃ i name password id, l = .request i ∧ s.requests i = .creating name password ∧
      id ∉ s.node.db.rooms ∧ s'.node.db = (s.node.db.createRoom none none id name password).2) ∨
    s'.node.db = s.node.db ∨ ∃ id, s'.node.db = (s.node.db.deleteRoom none none none id).2 := by
  cases h with
  | request hstep =>
      rename_i i node stage
      generalize hstage : s.requests i = stage at hstep
      cases hstep with
      | create id hdb hrooms => exact .inl ⟨i, _, _, id, rfl, hstage, hdb, rfl⟩
      | delete => exact .inr (.inr ⟨_, rfl⟩)
      | _ => exact .inr (.inl rfl)
  | _ => exact .inr (.inl rfl)

/-- Who is about to create a name was so before the step of another task, or has just found no room
of the name. -/
lemma aboutToCreate_of_step (h : Step parseStr s l s') {name : String}
    (hafter : s'.AboutToCreate i name) :
    (s.AboutToCreate i name ∧ l ≠ .request i) ∨
      (s.node.db.findRoomsByName noFault name = .ok [] ∧ s'.node.db = s.node.db) := by
  obtain ⟨password, hafter⟩ := hafter
  have hother {j : ι} {node : NodeRooms ρ} {stage : RequestStage ρ} (hij : i ≠ j)
      (hstage : (s.setRequest j node stage).requests i = .creating name password) :
      s.AboutToCreate i name := ⟨password, (requests_setRequest_of_ne hij).symm.trans hstage⟩
  cases h with
  | @request j node stage hstep =>
      by_cases hij : i = j
      · subst hij
        rw [requests_setRequest_self] at hafter
        generalize s.requests i = before at hstep
        cases hstep with
        | findNone hfind =>
            cases hafter
            exact .inr ⟨hfind, rfl⟩
        | _ => cases hafter
      · exact .inl ⟨hother hij hafter, fun hl => hij (Label.request.inj hl).symm⟩
  | join _ => exact .inl ⟨⟨password, hafter⟩, by simp⟩
  | @add j _ _ _ =>
      by_cases hij : i = j
      · subst hij
        rw [requests_setRequest_self] at hafter
        cases hafter
      · exact .inl ⟨hother hij hafter, by simp⟩
  | @remove j _ _ =>
      by_cases hij : i = j
      · subst hij
        rw [requests_setRequest_self] at hafter
        cases hafter
      · exact .inl ⟨hother hij hafter, by simp⟩
  | connect _ _ => exact .inl ⟨⟨password, hafter⟩, by simp⟩

lemma Unused.create {db : StorageDB} {name name' password : String} (h : Unused db name)
    (hne : name' ≠ name) : Unused (db.createRoom none none id name' password).2 name := by
  intro id' model hmodel
  rw [StorageDB.lookup_createRoom] at hmodel
  split_ifs at hmodel with heq
  · cases hmodel
    exact hne
  · exact h id' model hmodel

lemma Unused.delete {db : StorageDB} {name : String} (h : Unused db name) :
    Unused (db.deleteRoom none none none id).2 name := by
  intro id' model hmodel
  rw [StorageDB.lookup_deleteRoom] at hmodel
  split_ifs at hmodel with heq
  exact h id' model hmodel

/-- What a request has found stays true until it creates its room: no other request creates a room
of the name, and the deletion of rooms does not matter. -/
lemma FoundUnused.step (h : FoundUnused s) (hok : CreatesApart s l) (hs : Step parseStr s l s') :
    FoundUnused s' := by
  intro i name hafter
  obtain ⟨hbefore, hne⟩ | ⟨hfind, hdb⟩ := aboutToCreate_of_step hs hafter
  · obtain ⟨j, name', password, id, rfl, hstage, -, hdb⟩ | hdb | ⟨id, hdb⟩ := db_of_step hs
    · rw [hdb]
      refine (h i name hbefore).create ?_
      rintro rfl
      exact hok name' ⟨password, hstage⟩ i (fun hij => hne (by rw [hij])) hbefore
    · rw [hdb]
      exact h i name hbefore
    · rw [hdb]
      exact (h i name hbefore).delete
  · rw [hdb]
    intro id model hmodel
    obtain ⟨-, room, hroom, hname⟩ :=
      StorageDB.findRoomsByName_eq_ok_nil_iff.mp hfind id _ hmodel
    cases hroom
    exact hname

lemma NamesUnique.create {db : StorageDB} (h : NamesUnique db) {name password : String}
    (hunused : Unused db name) : NamesUnique (db.createRoom none none id name password).2 := by
  intro a b m m' ha hb hname
  rw [StorageDB.lookup_createRoom] at ha hb
  split_ifs at ha hb with hai hbi hbi
  · rw [hai, hbi]
  · cases ha
    exact absurd hname.symm (hunused b m' hb)
  · cases hb
    exact absurd hname (hunused a m ha)
  · exact h a b m m' ha hb hname

lemma NamesUnique.delete {db : StorageDB} (h : NamesUnique db) :
    NamesUnique (db.deleteRoom none none none id).2 := by
  intro a b m m' ha hb hname
  rw [StorageDB.lookup_deleteRoom] at ha hb
  split_ifs at ha hb with hai hbi
  exact h a b m m' ha hb hname

/-- A second room of a name. -/
lemma not_namesUnique_create {db : StorageDB} {name password : String} (hfresh : id ∉ db.rooms)
    {id' : Uuid} {model : RoomModel} (hmodel : db.rooms.lookup id' = some (.ok model))
    (hname : model.name = name) : ¬ NamesUnique (db.createRoom none none id name password).2 := by
  intro hunique
  have hne : id' ≠ id := by
    rintro rfl
    rw [AList.lookup_eq_none.mpr hfresh] at hmodel
    cases hmodel
  refine hne (hunique id' id model ⟨id, name, password⟩ ?_ ?_ hname)
  · rw [StorageDB.lookup_createRoom, if_neg hne, hmodel]
  · rw [StorageDB.lookup_createRoom, if_pos rfl]

/-- A request that goes on to create a room whose name a stored room has by now. -/
lemma second_room_of_aboutToCreate (parseStr : String → Except String Uuid) {name : String}
    (hi : s.AboutToCreate i name) {id' : Uuid} {model : RoomModel}
    (hmodel : s.node.db.rooms.lookup id' = some (.ok model)) (hname : model.name = name)
    (hdb : id ∉ s.node.db.rooms) (hrooms : id ∉ s.node.rooms) :
    ∃ s', Step parseStr s (.request i) s' ∧ ¬ NamesUnique s'.node.db := by
  obtain ⟨password, hstage⟩ := hi
  have hcreate : RequestStep s.node (s.requests i)
      (s.node.setDb (s.node.db.createRoom none none id name password).2)
      (.opening ⟨id, name, password⟩) := by
    rw [hstage]
    exact .create id hdb hrooms
  exact ⟨_, .request hcreate, not_namesUnique_create hdb hmodel hname⟩

/-- **Room names stay unique as long as each look-up and its insert stay together.**  Start a node
whose stored rooms have different names.  In every run in which no `create_room` falls between the
`find_rooms_by_name` of another request and its `create_room` of the same name, the stored rooms
have different names, and a request that is about to create a room has a name that no stored room
has.  After a `create_room` that falls there the other request stores a second room of the name when
it goes on, under any id that is left. -/
theorem names_unique_iff (parseStr : String → Except String Uuid) :
    (∀ s : NodeRun ρ ι κ,
      (lts ι κ parseStr fun node => NamesUnique node.db).ReachBy CreatesApart s →
        NamesUnique s.node.db ∧ ∀ i name, s.AboutToCreate i name → Unused s.node.db name) ∧
    ∀ (s : NodeRun ρ ι κ) (l : Label ι κ) (s' : NodeRun ρ ι κ), Step parseStr s l s' →
      ¬ CreatesApart s l → ∀ id, id ∉ s'.node.db.rooms → id ∉ s'.node.rooms →
        ∃ j s'', Step parseStr s' (.request j) s'' ∧ ¬ NamesUnique s''.node.db := by
  constructor
  · intro s h
    refine h.invariant (I := fun s => NamesUnique s.node.db ∧ FoundUnused s) ?_
      fun s l s' _ hinv hok hs => ?_
    · rintro s ⟨node, hnode, rfl⟩
      refine ⟨hnode, ?_⟩
      rintro i name ⟨password, hstage⟩
      cases hstage
    · obtain ⟨hunique, hfound⟩ := hinv
      refine ⟨?_, hfound.step hok hs⟩
      obtain ⟨i, name, password, id, rfl, hstage, -, hdb⟩ | hdb | ⟨id, hdb⟩ := db_of_step hs
      · rw [hdb]
        exact hunique.create (hfound i name ⟨password, hstage⟩)
      · rw [hdb]
        exact hunique
      · rw [hdb]
        exact hunique.delete
  · intro s l s' hs hbad id hdb hrooms
    cases l with
    | join c => exact absurd trivial hbad
    | arrival => exact absurd trivial hbad
    | request i =>
        simp only [CreatesApart, not_forall, not_not] at hbad
        obtain ⟨name, ⟨password, hi⟩, j, hji, password', hj⟩ := hbad
        cases hs with
        | request hstep =>
          rw [hi] at hstep
          cases hstep with
          | create id' hfresh _ =>
            refine ⟨j, second_room_of_aboutToCreate parseStr ⟨password', ?_⟩
              ((StorageDB.lookup_createRoom ..).trans (if_pos rfl)) rfl hdb hrooms⟩
            exact (requests_setRequest_of_ne hji).trans hj

section Runs

open NodeRooms

/-- The id of the other room. -/
def annexId : Uuid := ⟨List.replicate 16 3, rfl⟩

/-- The hall and the annex are added side by side, and a second hall is refused. -/
theorem names_unique_iff_annex : ∃ s : NodeRun ℕ (Fin 3) Unit,
    hallId ∈ s.node.db.rooms ∧ annexId ∈ s.node.db.rooms ∧
      s.requests 2 = .done (.error (.other "Room 'hall' already exists")) ∧
      NamesUnique s.node.db := by
  have hstart : NamesUnique emptyNode.db := by
    intro id id' model model' h
    cases h
  have h := (Lts.ReachBy.init ⟨emptyNode, hstart, rfl⟩ :
    (lts (Fin 3) Unit (fun _ => .error "") fun node => NamesUnique node.db).ReachBy CreatesApart
      (idle emptyNode))
  have h := h.step (by trivial) (Step.add (i := 0) "hall" "pw" rfl)
  have h := h.step (by trivial) (Step.add (i := 1) "annex" "pw" rfl)
  have h := h.step (by trivial) (Step.add (i := 2) "hall" "wp" rfl)
  have h := h.step (by rintro _ ⟨_, ⟨⟩⟩) (Step.request (i := 0) (.addOpen rfl))
  have h := h.step (by rintro _ ⟨_, ⟨⟩⟩) (Step.request (i := 1) (.addOpen rfl))
  have h := h.step (by rintro _ ⟨_, ⟨⟩⟩) (Step.request (i := 2) (.addOpen rfl))
  have h := h.step (by rintro _ ⟨_, ⟨⟩⟩) (Step.request (i := 0) (.findNone rfl))
  have h := h.step (by rintro _ ⟨_, ⟨⟩⟩) (Step.request (i := 1) (.findNone rfl))
  have h := h.step ?_ (Step.request (i := 0) (.create hallId (by decide) (by decide)))
  have h := h.step (by rintro _ ⟨_, ⟨⟩⟩) (Step.request (i := 2) (.findSome _ _ rfl))
  have h := h.step ?_ (Step.request (i := 1) (.create annexId (by decide) (by decide)))
  · exact ⟨_, AList.lookup_isSome.mp rfl, AList.lookup_isSome.mp rfl, rfl,
      ((names_unique_iff _).1 _ h).1⟩
  · rintro name ⟨_, ⟨⟩⟩ j hj ⟨_, hcreating⟩
    match j with
    | 0 => cases hcreating
    | 1 => exact hj rfl
    | 2 => cases hcreating
  · rintro name ⟨_, ⟨⟩⟩ j hj ⟨_, hcreating⟩
    match j with
    | 0 => exact hj rfl
    | 1 => exact absurd (RequestStage.creating.inj hcreating).1 (by decide)
    | 2 => cases hcreating

/-- Two `add_room` of one name: both find that it is free. -/
theorem name_is_taken_twice : ∃ s : NodeRun ℕ Bool Unit,
    (lts Bool Unit (fun _ => .error "") fun node => NamesUnique node.db).Reach s ∧
      ¬ NamesUnique s.node.db := by
  have hstart : NamesUnique emptyNode.db := by
    intro id id' model model' h
    cases h
  have h := (Lts.Reach.init ⟨emptyNode, hstart, rfl⟩ :
    (lts Bool Unit (fun _ => .error "") fun node => NamesUnique node.db).Reach (idle emptyNode))
  have h := h.step (Step.add (i := true) "hall" "pw" rfl)
  have h := h.step (Step.add (i := false) "hall" "wp" rfl)
  have h := h.step (Step.request (i := true) (.addOpen rfl))
  have h := h.step (Step.request (i := false) (.addOpen rfl))
  have h := h.step (Step.request (i := true) (.findNone rfl))
  have h := h.step (Step.request (i := false) (.findNone rfl))
  have h := h.step (Step.request (i := true) (.create hallId (by decide) (by decide)))
  have h := h.step (Step.request (i := false) (.create annexId (by decide) (by decide)))
  refine ⟨_, h, fun hunique => ?_⟩
  have heq : hallId = annexId :=
    hunique hallId annexId ⟨hallId, "hall", "pw"⟩ ⟨annexId, "hall", "wp"⟩ rfl rfl rfl
  exact absurd heq (by decide)

end Runs

end NodeRun

end Fernq
