import Mathlib.Tactic
import Fernq.Base.Trace
import Fernq.Server.ControlClient
import Fernq.Server.Lifetime

/-!
What the control commands are for: a directory of rooms.

* `Directory`, `Directory.Takes`, `Directory.Step`: the directory, what the commands do to it, and
  what may be reported of them when answers are lost.
* `NodeRooms.directory`: the directory that a node keeps in its store.
* `NodeRooms.visits`: sessions of `fernqctl` with a node.
* `Prints`, `Matches`: what is printed for a report.
* `visits_refine_directory`: a session with a node is a session with its directory.
-/

namespace Fernq

/-! ### The directory -/

/-- Whether it is closed, and the name and the password of each room. -/
@[ext] structure Directory where
  closed : Bool
  rooms : Uuid → Option (String × String)

namespace Directory

variable {parseStr : String → Except String Uuid} {d d' : Directory} {command : Commands}

/-- Some room has the name. -/
def Named (d : Directory) (name : String) : Prop :=
  ∃ id password, d.rooms id = some (name, password)

/-- The room is there now, or it is not there any more. -/
def set (d : Directory) (id : Uuid) (room : Option (String × String)) : Directory :=
  { d with rooms := Function.update d.rooms id room }

/-- A command takes effect. -/
inductive Takes (parseStr : String → Except String Uuid) : Directory → Commands → Directory → Prop
  | add {d : Directory} {id : Uuid} {name password : String} : d.closed = false → name ≠ "" →
      ¬ d.Named name → d.rooms id = none →
      Takes parseStr d (.add name password) (d.set id (some (name, password)))
  | remove {d : Directory} {text : String} {id : Uuid} : d.closed = false → text ≠ "" →
      parseStr text = .ok id → d.rooms id ≠ none → Takes parseStr d (.remove text) (d.set id none)
  | list {d : Directory} : Takes parseStr d .list d
  | address {d : Directory} : Takes parseStr d .address d

/-- What may be reported of a command. -/
inductive Report
  | done
  | listed (rooms : Uuid → Option (String × String))
  /-- there was nothing to be done -/
  | refused
  /-- something went wrong -/
  | failed
  /-- a list without rooms, because something went wrong -/
  | unlisted

/-- The report of a command for which nothing goes wrong. -/
def Report.Sound (report : Report) : Prop := report ≠ .failed ∧ report ≠ .unlisted

/-- A command and what is reported of it.  A failure may be reported of a command that has taken
effect, and of one that has not. -/
inductive Step (parseStr : String → Except String Uuid) :
    Directory → Commands × Report → Directory → Prop
  | done {d : Directory} {command : Commands} {d' : Directory} : command ≠ .list →
      Takes parseStr d command d' → Step parseStr d (command, .done) d'
  | listed {d : Directory} : Step parseStr d (.list, .listed d.rooms) d
  | refused {d : Directory} {command : Commands} : (∀ d', ¬ Takes parseStr d command d') →
      Step parseStr d (command, .refused) d
  | failed {d : Directory} {command : Commands} : Step parseStr d (command, .failed) d
  | failedDone {d : Directory} {command : Commands} {d' : Directory} :
      Takes parseStr d command d' → Step parseStr d (command, .failed) d'
  | unlisted {d : Directory} : Step parseStr d (.list, .unlisted) d

/-- Sessions with a directory. -/
def lts (parseStr : String → Except String Uuid) : Lts Directory (Commands × Report) where
  Init _ := True
  Step := Step parseStr

/-- The report of a step may be lost. -/
lemma Step.lost {report : Report} (h : Step parseStr d (command, report) d') :
    Step parseStr d (command, .failed) d' := by
  cases h with
  | done _ h | failedDone h => exact .failedDone h
  | listed | refused _ | failed | unlisted => exact .failed

/-- Nothing is done when there was nothing to be done, and otherwise it may just have failed. -/
lemma exists_step_self (parseStr : String → Except String Uuid) (d : Directory)
    (command : Commands) :
    ∃ report, Step parseStr d (command, report) d ∧ (report = .refused ∨ report = .failed) ∧
      ((∀ d', ¬ Takes parseStr d command d') → report = .refused) := by
  by_cases h : ∀ d', ¬ Takes parseStr d command d'
  · exact ⟨.refused, .refused h, .inl rfl, fun _ => rfl⟩
  · exact ⟨.failed, .failed, .inr rfl, fun h' => absurd h' h⟩

/-- No two rooms have the same name. -/
def NamesUnique (d : Directory) : Prop :=
  ∀ id id' name password password', d.rooms id = some (name, password) →
    d.rooms id' = some (name, password') → id = id'

lemma NamesUnique.takes (h : NamesUnique d) (ht : Takes parseStr d command d') :
    NamesUnique d' := by
  cases ht with
  | @add id name password _ _ hunused _ =>
      intro id₁ id₂ name' password₁ password₂ h₁ h₂
      simp only [set, Function.update_apply] at h₁ h₂
      split_ifs at h₁ h₂ with hid₁ hid₂ hid₂
      · rw [hid₁, hid₂]
      · cases h₁
        exact absurd ⟨_, _, h₂⟩ hunused
      · cases h₂
        exact absurd ⟨_, _, h₁⟩ hunused
      · exact h _ _ _ _ _ h₁ h₂
  | remove _ _ _ _ =>
      intro id₁ id₂ name' password₁ password₂ h₁ h₂
      simp only [set, Function.update_apply] at h₁ h₂
      split_ifs at h₁ h₂
      exact h _ _ _ _ _ h₁ h₂
  | list | address => exact h

lemma NamesUnique.step {label : Commands × Report} (h : NamesUnique d)
    (hs : Step parseStr d label d') : NamesUnique d' := by
  cases hs with
  | done _ ht | failedDone ht => exact h.takes ht
  | listed | refused _ | failed | unlisted => exact h

/-- Whatever fails, no two rooms get the same name. -/
theorem NamesUnique.run {labels : List (Commands × Report)} (h : NamesUnique d)
    (hrun : (lts parseStr).Run d labels d') : NamesUnique d' := by
  induction hrun with
  | nil => exact h
  | cons hs _ ih => exact ih (h.step hs)

end Directory

/-! ### The store of a node as a directory -/

/-- Every value has been written by the node: it can be read, and it has the id it is stored
under. -/
def StorageDB.Kept (db : StorageDB) : Prop :=
  ∀ id value, db.rooms.lookup id = some value → ∃ name password, value = .ok ⟨id, name, password⟩

namespace NodeRooms

variable {ρ : Type} {s : NodeRooms ρ} {id : Uuid} {name password : String}

/-- The directory that is in the store. -/
def directory (s : NodeRooms ρ) : Directory where
  closed := s.cancelled
  rooms id := (s.db.rooms.lookup id).bind fun value =>
    value.toOption.map fun room => (room.name, room.password)

lemma rooms_directory_eq_some_iff (h : s.db.Kept) :
    s.directory.rooms id = some (name, password) ↔
      s.db.rooms.lookup id = some (.ok ⟨id, name, password⟩) := by
  cases hl : s.db.rooms.lookup id with
  | none => simp [directory, hl]
  | some value =>
      obtain ⟨name', password', rfl⟩ := h id value hl
      simp [directory, hl, Except.toOption]

lemma rooms_directory_eq_none_iff (h : s.db.Kept) :
    s.directory.rooms id = none ↔ s.db.rooms.lookup id = none := by
  cases hl : s.db.rooms.lookup id with
  | none => simp [directory, hl]
  | some value =>
      obtain ⟨name', password', rfl⟩ := h id value hl
      simp [directory, hl, Except.toOption]

/-- No room of the name is found only if there is none. -/
lemma not_named_of_find {iterate : Uuid → Fault} (h : s.db.Kept)
    (hfind : s.db.findRoomsByName iterate name = .ok []) : ¬ s.directory.Named name := by
  rintro ⟨id, password, hroom⟩
  obtain ⟨-, room, hroom', hname⟩ := StorageDB.findRoomsByName_eq_ok_nil_iff.mp hfind id _
    ((rooms_directory_eq_some_iff h).mp hroom)
  cases hroom'
  exact hname rfl

/-- If there is none and the store does not fail, none is found. -/
lemma find_of_not_named (h : s.db.Kept) (hname : ¬ s.directory.Named name) :
    s.db.findRoomsByName (fun _ => none) name = .ok [] := by
  refine StorageDB.findRoomsByName_eq_ok_nil_iff.mpr fun id value hl => ?_
  obtain ⟨name', password, rfl⟩ := h id value hl
  refine ⟨rfl, _, rfl, ?_⟩
  rintro rfl
  exact hname ⟨id, password, (rooms_directory_eq_some_iff h).mpr hl⟩

/-! ### What the operations do -/

section Operations

variable [DecidableEq ρ] {parseStr : String → Except String Uuid}

/-- `add_room` adds the room, or fails and adds nothing, or adds it and fails to persist it. -/
lemma addRoom_cases (s : NodeRooms ρ) (faults : AddFaults) (id : Uuid) (room : ρ)
    (name password : String) :
    ((s.addRoom faults id room name password).2 = s ∧
      (∃ e, (s.addRoom faults id room name password).1 = .error e) ∧
      (s.cancelled = true ∨ s.db.findRoomsByName faults.iterate name ≠ .ok [] ∨
        faults.insert ≠ none)) ∨
    s.cancelled = false ∧ s.db.findRoomsByName faults.iterate name = .ok [] ∧
      (s.addRoom faults id room name password).2.cancelled = false ∧
      (s.addRoom faults id room name password).2.db
        = ⟨s.db.rooms.insert id (.ok ⟨id, name, password⟩)⟩ ∧
      ((s.addRoom faults id room name password).1 = .ok () ∨
        (∃ e, (s.addRoom faults id room name password).1 = .error e) ∧ faults.persist ≠ none) := by
  rw [addRoom]
  cases hc : s.cancelled with
  | true => exact .inl ⟨rfl, ⟨_, rfl⟩, .inl rfl⟩
  | false =>
    rw [if_neg Bool.false_ne_true]
    cases hfind : s.db.findRoomsByName faults.iterate name with
    | error e => exact .inl ⟨rfl, ⟨_, rfl⟩, .inr (.inl (by simp))⟩
    | ok existing =>
      cases existing with
      | cons model models => exact .inl ⟨rfl, ⟨_, rfl⟩, .inr (.inl (by simp))⟩
      | nil =>
        unfold StorageDB.createRoom StorageDB.saveRoom
        cases hinsert : faults.insert with
        | some e => exact .inl ⟨rfl, ⟨_, rfl⟩, .inr (.inr (by simp))⟩
        | none =>
          cases hpersist : faults.persist with
          | some e => exact .inr ⟨rfl, rfl, hc, rfl, .inr ⟨⟨_, rfl⟩, by simp⟩⟩
          | none => exact .inr ⟨rfl, rfl, hc, rfl, .inl rfl⟩

/-- `remove_room` removes the room, or fails and removes nothing from the store, or removes it and
fails to persist this. -/
lemma removeRoom_cases (s : NodeRooms ρ) (faults : RemoveFaults) (id : Uuid) :
    ((s.removeRoom faults id).2.db = s.db ∧ (s.removeRoom faults id).2.cancelled = s.cancelled ∧
      (∃ e, (s.removeRoom faults id).1 = .error e) ∧
      (s.cancelled = true ∨ s.db.rooms.lookup id = none ∨
        faults.check ≠ none ∨ faults.get ≠ none ∨ faults.remove ≠ none)) ∨
    s.cancelled = false ∧ s.db.rooms.lookup id ≠ none ∧
      (s.removeRoom faults id).2.cancelled = false ∧
      (s.removeRoom faults id).2.db = ⟨s.db.rooms.erase id⟩ ∧
      ((s.removeRoom faults id).1 = .ok () ∨
        (∃ e, (s.removeRoom faults id).1 = .error e) ∧ faults.persist ≠ none) := by
  have hdrop : (s.dropRoom id).cancelled = s.cancelled := by
    unfold dropRoom
    split <;> rfl
  unfold removeRoom StorageDB.roomExists StorageDB.deleteRoom StorageDB.get
  cases hc : s.cancelled with
  | true => exact .inl ⟨rfl, hc, ⟨_, rfl⟩, .inl rfl⟩
  | false =>
    rw [if_neg Bool.false_ne_true]
    cases hcheck : faults.check with
    | some e => exact .inl ⟨rfl, hc, ⟨_, rfl⟩, .inr (.inr (.inl (by simp)))⟩
    | none =>
      cases hvalue : s.db.rooms.lookup id with
      | none =>
        exact .inl ⟨rfl, hc, ⟨_, rfl⟩, .inr (.inl rfl)⟩
      | some value =>
        cases hget : faults.get with
        | some e => exact .inl ⟨rfl, hdrop.trans hc, ⟨_, rfl⟩, .inr (.inr (.inr (.inl (by simp))))⟩
        | none =>
          cases hremove : faults.remove with
          | some e =>
            exact .inl ⟨rfl, hdrop.trans hc, ⟨_, rfl⟩, .inr (.inr (.inr (.inr (by simp))))⟩
          | none =>
            cases hpersist : faults.persist with
            | some e =>
              exact .inr ⟨rfl, by simp, hdrop.trans hc, rfl, .inr ⟨⟨_, rfl⟩, by simp⟩⟩
            | none => exact .inr ⟨rfl, by simp, hdrop.trans hc, rfl, .inl rfl⟩

end Operations

/-! ### The directory after an operation -/

section Effects

variable {s' : NodeRooms ρ} {parseStr : String → Except String Uuid}

lemma kept_insert (h : s.db.Kept)
    (hdb : s'.db = ⟨s.db.rooms.insert id (.ok ⟨id, name, password⟩)⟩) : s'.db.Kept := by
  intro id' value hl
  rw [hdb] at hl
  by_cases hid : id' = id
  · subst hid
    rw [AList.lookup_insert] at hl
    exact ⟨name, password, (Option.some.inj hl).symm⟩
  · rw [AList.lookup_insert_ne hid] at hl
    exact h id' value hl

lemma kept_erase (h : s.db.Kept) (hdb : s'.db = ⟨s.db.rooms.erase id⟩) : s'.db.Kept := by
  intro id' value hl
  rw [hdb] at hl
  by_cases hid : id' = id
  · subst hid
    rw [AList.lookup_erase] at hl
    cases hl
  · rw [AList.lookup_erase_ne hid] at hl
    exact h id' value hl

lemma directory_insert (hcancelled : s'.cancelled = s.cancelled)
    (hdb : s'.db = ⟨s.db.rooms.insert id (.ok ⟨id, name, password⟩)⟩) :
    s'.directory = s.directory.set id (some (name, password)) := by
  refine Directory.ext hcancelled (funext fun id' => ?_)
  simp only [directory, Directory.set, hdb, Function.update_apply]
  split_ifs with hid
  · rw [hid, AList.lookup_insert]
    rfl
  · rw [AList.lookup_insert_ne hid]

lemma directory_erase (hcancelled : s'.cancelled = s.cancelled)
    (hdb : s'.db = ⟨s.db.rooms.erase id⟩) : s'.directory = s.directory.set id none := by
  refine Directory.ext hcancelled (funext fun id' => ?_)
  simp only [directory, Directory.set, hdb, Function.update_apply]
  split_ifs with hid
  · rw [hid, AList.lookup_erase]
    rfl
  · rw [AList.lookup_erase_ne hid]

lemma directory_congr (hcancelled : s'.cancelled = s.cancelled) (hdb : s'.db = s.db) :
    s'.directory = s.directory := by
  refine Directory.ext hcancelled (funext fun id' => ?_)
  simp only [directory, hdb]

/-- A room that can be added to the store can be added to the directory. -/
lemma takes_add (h : s.db.Kept) (hfresh : s.db.rooms.lookup id = none) {iterate : Uuid → Fault}
    (hcancelled : s.cancelled = false) (hname : name ≠ "")
    (hfind : s.db.findRoomsByName iterate name = .ok []) :
    Directory.Takes parseStr s.directory (.add name password)
      (s.directory.set id (some (name, password))) :=
  .add hcancelled hname (not_named_of_find h hfind) ((rooms_directory_eq_none_iff h).mpr hfresh)

end Effects

end NodeRooms

/-! ### The reports of the node -/

open Directory (Report Takes)

/-- The rooms of a directory, in any order. -/
structure Lists (models : List RoomModel) (rooms : Uuid → Option (String × String)) : Prop where
  nodup : models.Nodup
  mem_iff : ∀ model, model ∈ models ↔ rooms model.id = some (model.name, model.password)

/-- The answer to a command that gives a report. -/
inductive Says (addr : String) : Commands → Report → Response → Prop
  | added {name password : String} :
      Says addr (.add name password) .done (.done (.string "room added"))
  | removed {id : String} : Says addr (.remove id) .done (.done (.string "room removed"))
  | listed {rooms : Uuid → Option (String × String)} {models : List RoomModel} :
      Lists models rooms → Says addr .list (.listed rooms) (.done (.array (models.map listEntry)))
  | unlisted : Says addr .list .unlisted (.done (.array []))
  | address : Says addr .address .done (.done (.string addr))
  | refused {command : Commands} {error : String} : Says addr command .refused (.failed error)
  | failed {command : Commands} {error : String} : Says addr command .failed (.failed error)

namespace NodeRooms

section Requests

variable {ρ : Type} [DecidableEq ρ] {s : NodeRooms ρ} {faults : RequestFaults} {id : Uuid}
  {room : ρ} {addr : String} {parseStr : String → Except String Uuid}

/-- What comes of a request, and the report it gives. -/
structure Handled (parseStr : String → Except String Uuid) (addr : String) (s : NodeRooms ρ)
    (faults : RequestFaults) (command : Commands) (result : Response × NodeRooms ρ) : Prop where
  kept : result.2.db.Kept
  report : ∃ report, Says addr command report result.1 ∧
    Directory.Step parseStr s.directory (command, report) result.2.directory ∧
    (faults = noFaults → report.Sound)

section Results

variable {s' : NodeRooms ρ} {command : Commands} {error : String}

omit [DecidableEq ρ] in
/-- A request that has failed and changed nothing. -/
lemma Handled.failed (h : s'.db.Kept) (hdir : s'.directory = s.directory)
    (hno : faults = noFaults → ∀ d', ¬ Takes parseStr s.directory command d') :
    Handled parseStr addr s faults command (.failed error, s') := by
  obtain ⟨report, hstep, hreport, hrefused⟩ :=
    Directory.exists_step_self parseStr s.directory command
  refine ⟨h, report, ?_, hdir ▸ hstep, fun hfaults => ?_⟩
  · rcases hreport with rfl | rfl
    · exact .refused
    · exact .failed
  · rw [hrefused (hno hfaults)]
    exact ⟨by simp, by simp⟩

omit [DecidableEq ρ] in
/-- A request that has failed although it has taken effect. -/
lemma Handled.failedDone (h : s'.db.Kept) (ht : Takes parseStr s.directory command s'.directory)
    (hfaults : faults ≠ noFaults) :
    Handled parseStr addr s faults command (.failed error, s') :=
  ⟨h, .failed, .failed, .failedDone ht, fun heq => absurd heq hfaults⟩

omit [DecidableEq ρ] in
lemma Handled.done {resp : Response} (h : s'.db.Kept) (hcommand : command ≠ .list)
    (ht : Takes parseStr s.directory command s'.directory)
    (hsay : Says addr command .done resp) : Handled parseStr addr s faults command (resp, s') :=
  ⟨h, .done, hsay, .done hcommand ht, fun _ => ⟨by simp, by simp⟩⟩

end Results

lemma handled_add (h : s.db.Kept) (hfresh : s.db.rooms.lookup id = none) (name password : String) :
    Handled parseStr addr s faults (.add name password)
      (s.handleRequest parseStr faults id room addr ⟨"add", some name, some password, none⟩) := by
  rw [handleRequest, if_pos rfl]
  by_cases hname : name = ""
  · have hargs : addArgs ⟨"add", some name, some password, none⟩
        = .error "room_name is required" := by
      rw [hname]
      rfl
    rw [hargs]
    refine .failed h rfl fun _ d' ht => ?_
    cases ht with
    | add _ hne _ _ => exact hne hname
  · rw [addArgs_eq_ok_iff.mpr ⟨rfl, hname, rfl⟩]
    dsimp only
    have hcases := addRoom_cases s faults.add id room name password
    cases hadd : s.addRoom faults.add id room name password with
    | mk result s' =>
      rw [hadd] at hcases
      dsimp only at hcases ⊢
      rcases hcases with ⟨rfl, ⟨e, rfl⟩, hwhy⟩ | ⟨hopen, hfind, hcancelled, hdb, hresult⟩
      · refine .failed h rfl fun hfaults d' ht => ?_
        cases ht with
        | add hopen _ hunused _ =>
          rw [hfaults] at hwhy
          rcases hwhy with hclosed | hfind | hinsert
          · exact absurd (hclosed.symm.trans hopen) (by simp)
          · exact hfind (find_of_not_named h hunused)
          · exact hinsert rfl
      · have hkept := kept_insert h hdb
        have ht : Takes parseStr s.directory (.add name password) s'.directory := by
          rw [directory_insert (hcancelled.trans hopen.symm) hdb]
          exact takes_add h hfresh hopen hname hfind
        rcases hresult with rfl | ⟨⟨e, rfl⟩, hpersist⟩
        · exact .done hkept (by simp) ht .added
        · exact .failedDone hkept ht fun hfaults => hpersist (by rw [hfaults]; rfl)

lemma removeArgs_of_parse {text : String} {key : Uuid} (hne : text ≠ "")
    (hparse : parseStr text = .ok key) :
    removeArgs parseStr ⟨"remove", none, none, some text⟩ = .ok key := by
  have hfilter : (some text).filter (fun s => !s.isEmpty) = some text :=
    Option.filter_eq_some_iff.mpr ⟨rfl, by simpa using hne⟩
  rw [removeArgs, hfilter]
  dsimp only
  rw [hparse]

lemma handled_remove (h : s.db.Kept) {text : String} {key : Uuid}
    (hparse : parseStr text = .ok key) :
    Handled parseStr addr s faults (.remove text)
      (s.handleRequest parseStr faults id room addr ⟨"remove", none, none, some text⟩) := by
  rw [handleRequest, if_neg (by simp), if_pos rfl]
  by_cases hne : text = ""
  · have hargs : removeArgs parseStr ⟨"remove", none, none, some text⟩
        = .error "room_id is required" := by
      rw [hne]
      rfl
    rw [hargs]
    refine .failed h rfl fun _ d' ht => ?_
    cases ht with
    | remove _ hne' _ _ => exact hne' hne
  · rw [removeArgs_of_parse hne hparse]
    dsimp only
    have hcases := removeRoom_cases s faults.remove key
    cases hremove : s.removeRoom faults.remove key with
    | mk result s' =>
      rw [hremove] at hcases
      dsimp only at hcases ⊢
      rcases hcases with ⟨hdb, hcancelled, ⟨e, rfl⟩, hwhy⟩ | ⟨hopen, hmem, hcancelled, hdb, hresult⟩
      · refine .failed (by rwa [hdb]) (directory_congr hcancelled hdb) fun hfaults d' ht => ?_
        cases ht with
        | @remove _ key' hopen _ hparse' hmem =>
          obtain rfl : key = key' := Except.ok.inj (hparse.symm.trans hparse')
          rw [hfaults] at hwhy
          rcases hwhy with hclosed | hgone | hcheck | hget | hremove
          · exact absurd (hclosed.symm.trans hopen) (by simp)
          · exact hmem ((rooms_directory_eq_none_iff h).mpr hgone)
          · exact hcheck rfl
          · exact hget rfl
          · exact hremove rfl
      · have hkept := kept_erase h hdb
        have ht : Takes parseStr s.directory (.remove text) s'.directory := by
          rw [directory_erase (hcancelled.trans hopen.symm) hdb]
          exact .remove hopen hne hparse fun hnone =>
            hmem ((rooms_directory_eq_none_iff h).mp hnone)
        rcases hresult with rfl | ⟨⟨e, rfl⟩, hpersist⟩
        · exact .done hkept (by simp) ht .removed
        · exact .failedDone hkept ht fun hfaults => hpersist (by rw [hfaults]; rfl)

omit [DecidableEq ρ] in
/-- All rooms of the store are listed, or none because the store has failed. -/
lemma listRooms_cases (h : s.db.Kept) (iterate : Uuid → Fault) :
    Lists (s.listRooms iterate) s.directory.rooms ∨
      s.listRooms iterate = [] ∧ ∃ id, iterate id ≠ none := by
  by_cases hread : Readable s.db iterate
  · obtain ⟨models, hmodels, hmap⟩ := listItems_of_readable (readable_iff.mp hread)
    have hlist : s.listRooms iterate = models := by rw [listRooms, StorageDB.listAllRooms, hmodels]
    rw [hlist]
    have hmem (model : RoomModel) :
        model ∈ models ↔ s.db.rooms.lookup model.id = some (.ok model) := by
      rw [← List.mem_map_of_injective (fun _ _ => Except.ok.inj) (a := model), hmap, List.mem_map]
      constructor
      · rintro ⟨⟨key, value⟩, hitem, rfl⟩
        have hl := AList.mem_lookup_iff.mpr hitem
        obtain ⟨name, password, hvalue⟩ := h key _ hl
        cases hvalue
        exact hl
      · intro hl
        exact ⟨_, AList.mem_lookup_iff.mp hl, rfl⟩
    refine .inl ⟨.of_map (Except.ok : RoomModel → Except String RoomModel) ?_, fun model => ?_⟩
    · rw [hmap]
      refine List.Nodup.map_on ?_ s.db.rooms.nodupKeys.nodup
      rintro ⟨key, value⟩ hitem ⟨key', value'⟩ hitem' (rfl : value = value')
      obtain ⟨name, password, hvalue⟩ := h key value (AList.mem_lookup_iff.mpr hitem)
      obtain ⟨name', password', hvalue'⟩ := h key' value (AList.mem_lookup_iff.mpr hitem')
      cases hvalue.symm.trans hvalue'
      rfl
    · exact (hmem model).trans (rooms_directory_eq_some_iff h).symm
  · obtain ⟨e, he⟩ := listItems_of_not_readable (mt readable_iff.mpr hread)
    refine .inr ⟨by rw [listRooms, StorageDB.listAllRooms, he], ?_⟩
    by_contra hnone
    push Not at hnone
    refine hread fun id value hl => ⟨hnone id, ?_⟩
    obtain ⟨name, password, rfl⟩ := h id value hl
    exact ⟨_, rfl⟩

lemma handled_list (h : s.db.Kept) :
    Handled parseStr addr s faults .list
      (s.handleRequest parseStr faults id room addr ⟨"list", none, none, none⟩) := by
  rw [handleRequest, if_neg (by simp), if_neg (by simp), if_pos rfl]
  refine ⟨h, ?_⟩
  rcases listRooms_cases h faults.list with hlists | ⟨hnil, key, hfault⟩
  · exact ⟨.listed s.directory.rooms, .listed hlists, .listed, fun _ => ⟨by simp, by simp⟩⟩
  · rw [hnil]
    exact ⟨.unlisted, .unlisted, .unlisted, fun hfaults => absurd (by rw [hfaults]; rfl) hfault⟩

lemma handled_address (h : s.db.Kept) :
    Handled parseStr addr s faults .address
      (s.handleRequest parseStr faults id room addr ⟨"address", none, none, none⟩) := by
  rw [handleRequest, if_neg (by simp), if_neg (by simp), if_neg (by simp), if_pos rfl]
  exact .done h (by simp) .address .address

/-- What comes of the request of a command. -/
lemma handled_request (addr : String) (faults : RequestFaults) (room : ρ) (h : s.db.Kept)
    (hfresh : s.db.rooms.lookup id = none) {command : Commands} {req : Request}
    (hreq : command.request parseStr = .ok (some req)) :
    Handled parseStr addr s faults command
      (s.handleRequest parseStr faults id room addr req) := by
  rcases Commands.request_eq_some hreq with
    ⟨name, password, rfl, rfl⟩ | ⟨text, key, rfl, hparse, rfl⟩ | ⟨rfl, rfl⟩ | ⟨rfl, rfl⟩
  · exact handled_add h hfresh name password
  · exact handled_remove h hparse
  · exact handled_list h
  · exact handled_address h

end Requests

end NodeRooms

/-! ### Sessions -/

/-- The row of a room in the table that is printed. -/
def roomRow (env : CtlEnv) (showPassword : Bool) (room : RoomModel) : String :=
  env.paint .dimmed room.id.hyphenated ++ " " ++ padRight 20 ' ' room.name ++ " " ++
    env.paint .yellow (if showPassword then room.password else "******")

/-- The table of the rooms. -/
def roomTable (env : CtlEnv) (showPassword : Bool) (rooms : List RoomModel) : List String :=
  if rooms = [] then ["No rooms found."]
  else roomHeader env ++ rooms.map (roomRow env showPassword) ++
    ["\nTotal: " ++ env.paint .green (toString rooms.length) ++ " room(s)"]

/-- What is printed for a report: the answer as JSON, or a text. -/
inductive Prints (env : CtlEnv) (addr : String) (cli : Cli) :
    Report → Except String (List String) → Prop
  | json {report : Report} {resp : Response} : cli.json = true →
      Says addr cli.command report resp →
      Prints env addr cli report ((env.pretty resp.fields).map fun text => [text])
  | added {name password : String} : cli.command = .add name password →
      Prints env addr cli .done (.ok [successLine env name "added"])
  | removed {id : String} : cli.command = .remove id →
      Prints env addr cli .done (.ok [successLine env id "removed"])
  | address : cli.command = .address →
      Prints env addr cli .done (.ok ["Server listening on: " ++ env.paint .cyanBold addr])
  | listed {rooms : Uuid → Option (String × String)} {models : List RoomModel} :
      cli.command = .list → Lists models rooms →
      Prints env addr cli (.listed rooms) (.ok (roomTable env cli.showPwd models))
  | unlisted : cli.command = .list → Prints env addr cli .unlisted (.ok ["No rooms found."])
  | refused {error : String} : Prints env addr cli .refused (.error error)
  | failed {error : String} : Prints env addr cli .failed (.error error)

section Print

variable {env : CtlEnv} {addr : String} {cli : Cli}

lemma roomLine_listEntry (env : CtlEnv) (showPassword : Bool) (room : RoomModel) :
    roomLine env showPassword (listEntry room) = roomRow env showPassword room := by
  have hid : (listEntry room).index "id" = .string room.id.hyphenated := rfl
  have hname : (listEntry room).index "name" = .string room.name := rfl
  have hpassword : (listEntry room).index "password" = .string room.password := rfl
  rw [roomLine, hid, hname, hpassword]
  rfl

lemma printRoomList_eq (env : CtlEnv) (showPassword : Bool) (rooms : List RoomModel) :
    printRoomList env (some (.array (rooms.map listEntry))) showPassword
      = roomTable env showPassword rooms := by
  cases rooms with
  | nil => rfl
  | cons room rooms =>
      have hrow : roomLine env showPassword ∘ listEntry = roomRow env showPassword :=
        funext (roomLine_listEntry env showPassword)
      rw [printRoomList, roomTable, if_neg (by simp), if_neg (by simp), List.map_map, hrow,
        List.length_map]

/-- What is printed for an answer is what is printed for its report. -/
lemma prints_show {command : Commands} (hcommand : cli.command = command) {report : Report}
    {resp : Response} (h : Says addr command report resp) :
    Prints env addr cli report (cli.show env resp) := by
  cases hjson : cli.json with
  | true =>
      rw [Cli.show, if_pos hjson]
      exact .json hjson (hcommand ▸ h)
  | false =>
      rw [Cli.show, if_neg (by simp [hjson])]
      cases h with
      | added =>
          rw [if_neg (by simp [Response.done]), hcommand]
          exact .added hcommand
      | removed =>
          rw [if_neg (by simp [Response.done]), hcommand]
          exact .removed hcommand
      | listed hlists =>
          rw [if_neg (by simp [Response.done]), hcommand]
          dsimp only [Response.done]
          rw [printRoomList_eq]
          exact .listed hcommand hlists
      | unlisted =>
          rw [if_neg (by simp [Response.done]), hcommand]
          exact .unlisted hcommand
      | address =>
          rw [if_neg (by simp [Response.done]), hcommand]
          exact .address hcommand
      | refused =>
          rw [if_pos (by simp [Response.failed])]
          exact .refused
      | failed =>
          rw [if_pos (by simp [Response.failed])]
          exact .failed

end Print

/-- The store does not fail, and the node reads all that is written to it at once. -/
structure Visit.Unhindered {ρ : Type} (env : CtlEnv) (v : Visit ρ) : Prop where
  faults : v.faults = noFaults
  arrives : ∀ req, v.cli.command.request env.parseStr = .ok (some req) →
    v.arrive (v.written env.serde req) = .ok (v.written env.serde req)

/-- A run of the client, and a command to the directory with its report. -/
structure Matches {ρ : Type} (env : CtlEnv) (addr : String)
    (event : Visit ρ × Except String (List String)) (label : Commands × Report) : Prop where
  command : label.1 = event.1.cli.command
  prints : Prints env addr event.1.cli label.2 event.2
  /-- What the client prints when it has got an answer is true. -/
  sound : event.1.Unhindered env → event.2 ≠ .error event.1.cli.cannotConnect → label.2.Sound

/-- Sessions of `fernqctl` with a node, one run of it after the other: the node has finished the
request of one before the next one starts.  The ids of new rooms are not in use. -/
def NodeRooms.visits (ρ : Type) [DecidableEq ρ] (env : CtlEnv) (addr : String) :
    Lts (NodeRooms ρ) (Visit ρ × Except String (List String)) where
  Init _ := True
  Step s event s' :=
    s.db.rooms.lookup event.1.id = none ∧ s.visit env addr event.1 = (event.2, s')

section Sessions

variable {ρ : Type} [DecidableEq ρ] {env : CtlEnv} {addr : String} {s s' : NodeRooms ρ}
  {event : Visit ρ × Except String (List String)}

omit [DecidableEq ρ] in
/-- A command whose request is not built does nothing. -/
lemma not_takes_of_request {command : Commands} {parseStr : String → Except String Uuid}
    {e : String} (h : command.request parseStr = .error e) (d d' : Directory) :
    ¬ Takes parseStr d command d' := by
  intro ht
  cases ht with
  | remove _ _ hparse _ =>
      rw [Commands.request, hparse] at h
      cases h
  | add | list | address => cases h

/-- One run of the client. -/
lemma visit_matches (hserde : env.serde.Lawful) (hkept : s.db.Kept)
    (hs : (NodeRooms.visits ρ env addr).Step s event s') :
    s'.db.Kept ∧ ∃ label, Directory.Step env.parseStr s.directory label s'.directory ∧
      Matches env addr event label := by
  obtain ⟨v, printed⟩ := event
  obtain ⟨hfresh, hvisit⟩ := hs
  dsimp only at hfresh hvisit
  rcases v.request_cases env.parseStr with ⟨e, hreq⟩ | ⟨req, hreq⟩
  · obtain ⟨rfl, rfl⟩ := Prod.mk.inj ((visit_of_error hreq).symm.trans hvisit)
    exact ⟨hkept, (v.cli.command, .refused), .refused (not_takes_of_request hreq _),
      rfl, .refused, fun _ _ => ⟨by simp, by simp⟩⟩
  · obtain ⟨hprinted, rfl⟩ := Prod.mk.inj ((visit_of_request hreq).symm.trans hvisit)
    have hhandled := NodeRooms.handled_request addr v.faults v.room hkept hfresh hreq
    rcases exchange_cases hserde addr s v req with
      ⟨resp, hanswer, hhandle⟩ | ⟨⟨error, hanswer⟩, hsame, hcut⟩ | ⟨⟨e, hanswer⟩, hnode⟩
    · -- the answer of the node
      rw [hhandle] at hhandled
      obtain ⟨report, hsay, hstep, hsound⟩ := hhandled.report
      obtain rfl : v.cli.show env resp = printed := by
        rw [← hprinted, hanswer]
        rfl
      exact ⟨hhandled.kept, (v.cli.command, report), hstep, rfl, prints_show rfl hsay,
        fun hunhindered _ => hsound hunhindered.faults⟩
    · -- a request that was cut
      obtain rfl : v.cli.show env (Response.failed error) = printed := by
        rw [← hprinted, hanswer]
        rfl
      rw [hsame]
      exact ⟨hkept, (v.cli.command, .failed), .failed, rfl, prints_show rfl .failed,
        fun hunhindered _ => absurd (hunhindered.arrives req hreq) hcut⟩
    · -- no answer
      obtain rfl : Except.error v.cli.cannotConnect = printed := by
        rw [← hprinted, hanswer]
        rfl
      have hsound : (v.Unhindered env) → Except.error v.cli.cannotConnect
          ≠ (Except.error v.cli.cannotConnect : Except String (List String)) →
          Report.Sound .failed := fun _ hne => absurd rfl hne
      rcases hnode with hnode | hnode
      · rw [hnode]
        exact ⟨hkept, (v.cli.command, .failed), .failed, rfl, .failed, hsound⟩
      · rw [hnode]
        obtain ⟨report, -, hstep, -⟩ := hhandled.report
        exact ⟨hhandled.kept, (v.cli.command, .failed), hstep.lost, rfl, .failed, hsound⟩

/-- **A session with a node is a session with its directory.**  Whatever fails in the store and
whatever is cut or lost on the socket, each run of `fernqctl` is a command to the directory that is
stored, which takes effect once or not at all; what is printed is what is printed for its report;
and a run that has got an answer of a node that was not hindered says what has happened. -/
theorem visits_refine_directory (env : CtlEnv) (addr : String) (hserde : env.serde.Lawful)
    {events : List (Visit ρ × Except String (List String))} (hkept : s.db.Kept)
    (hrun : (NodeRooms.visits ρ env addr).Run s events s') :
    ∃ labels, (Directory.lts env.parseStr).Run s.directory labels s'.directory ∧
      List.Forall₂ (Matches env addr) events labels ∧
      (s.directory.NamesUnique → s'.directory.NamesUnique) := by
  obtain ⟨labels, d, habstract, hmatches, rfl, -⟩ := hrun.simulate
    (N := Directory.lts env.parseStr) (R := fun s d => s.directory = d ∧ s.db.Kept)
    (E := Matches env addr) (by
      rintro s d event s' ⟨rfl, hkept⟩ hs
      obtain ⟨hkept', label, hstep, hmatch⟩ := visit_matches hserde hkept hs
      exact ⟨label, s'.directory, hstep, hmatch, rfl, hkept'⟩) ⟨rfl, hkept⟩
  exact ⟨labels, habstract, hmatches, fun hunique => hunique.run habstract⟩

end Sessions

/-! ### A session -/

/-- The request of a room, and the answer to it. -/
def hallRequest : Request := ⟨"add", some "hall", some "pw", none⟩

def hallTable : List (List (String × Json) × List UInt8) :=
  [(hallRequest.fields,
      utf8Bytes "\x7b\"cmd\":\"add\",\"room_name\":\"hall\",\"password\":\"pw\"\x7d"),
    ((Response.done (.string "room added")).fields,
      utf8Bytes "\x7b\"success\":true,\"data\":\"room added\"\x7d")]

/-- `Uuid::parse_str` on the id of the room. -/
def parseHallId (s : String) : Except String Uuid :=
  if s = NodeRooms.hallId.hyphenated then .ok NodeRooms.hallId else .error "invalid length"

/-- The libraries of `fernqctl`, for the objects of a table. -/
noncomputable def tableEnv (table : List (List (String × Json) × List UInt8)) : CtlEnv where
  parseStr := parseHallId
  serde := tableSerde table
  pretty _ := .error "unsupported"
  display _ := ""
  paint _ text := text
  uninstall := .ok []

lemma lawful_hallTable : (tableEnv hallTable).serde.Lawful :=
  lawful_tableSerde (by unfold Separated; decide +kernel) (by decide +kernel)

/-- The run of the client that adds the room. -/
def hallVisit : Visit ℕ := .direct (.add "hall" "pw") (by simp) NodeRooms.hallId 0

/-- The node after it. -/
def hallNode : NodeRooms ℕ :=
  (NodeRooms.emptyNode.handleRequest parseHallId noFaults NodeRooms.hallId 0 "h:9147"
    hallRequest).2

lemma visit_hall :
    NodeRooms.emptyNode.visit (tableEnv hallTable) "h:9147" hallVisit
      = (.ok ["✓ Room 'hall' added successfully"], hallNode) := by
  have htext : (tableEnv hallTable).serde.toVec hallRequest.fields = .ok _ :=
    toVec_table (List.mem_cons_self ..) (by simp [hallTable, hallRequest, Request.fields,
      Response.fields])
  have hanswer : (tableEnv hallTable).serde.toVec (Response.done (.string "room added")).fields
      = .ok _ :=
    toVec_table (List.mem_cons_of_mem _ (List.mem_cons_self ..)) (by simp [hallTable, hallRequest,
      Request.fields, Response.fields])
  have hhandle : NodeRooms.emptyNode.handleRequest parseHallId noFaults NodeRooms.hallId 0 "h:9147"
      hallRequest = (.done (.string "room added"), hallNode) := rfl
  exact visit_eq_of_exchange rfl
    (exchange_direct lawful_hallTable _ htext (by decide +kernel) hhandle hanswer)

/-- A room is added to a node that has none. -/
theorem visits_refine_directory_hall :
    ∃ labels, (Directory.lts parseHallId).Run NodeRooms.emptyNode.directory labels
        hallNode.directory ∧
      List.Forall₂ (Matches (tableEnv hallTable) "h:9147")
        [(hallVisit, .ok ["✓ Room 'hall' added successfully"])] labels ∧
      (NodeRooms.emptyNode.directory.NamesUnique → hallNode.directory.NamesUnique) :=
  visits_refine_directory (tableEnv hallTable) "h:9147" lawful_hallTable
    (by rintro id value h; cases h) (.single ⟨rfl, visit_hall⟩)

end Fernq
