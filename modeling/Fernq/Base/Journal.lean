import Mathlib.Data.List.AList
import Mathlib.Tactic

/-!
Maps whose writes are to outlive a crash.

* `DurableMap`: what the operations on a map do to what is read, and to what a crash may leave.
* `DurableMap.known_of_step`: no value appears but by an insertion.
* `DurableMap.Holds`: a key has a value now and after a crash; `Holds.step`, `holds_of_persist`.
* `Journal`: a list of writes, the first of which are on the disk; `Journal.durableMap`.
-/

namespace Fernq

/-- An operation on a map, or the crash of the program that uses it. -/
inductive MapOp (κ ν : Type)
  | insert (k : κ) (v : ν)
  | remove (k : κ)
  | persist
  /-- that fails: some of the writes may be on the disk -/
  | persistErr
  | crash

/-- The operation writes the key. -/
def MapOp.Writes {κ ν : Type} (k : κ) : MapOp κ ν → Prop
  | .insert k' _ | .remove k' => k' = k
  | .persist | .persistErr | .crash => False

/-- A map whose writes may be lost in a crash until they have been persisted. -/
structure DurableMap (κ ν σ : Type) [DecidableEq κ] where
  contents : σ → AList fun _ : κ => ν
  /-- A crash may leave the key with this value. -/
  MayLeave : σ → κ → Option ν → Prop
  Step : σ → MapOp κ ν → σ → Prop
  contents_insert : ∀ {s k v s'}, Step s (.insert k v) s' → contents s' = (contents s).insert k v
  contents_remove : ∀ {s k s'}, Step s (.remove k) s' → contents s' = (contents s).erase k
  contents_persist : ∀ {s s'}, Step s .persist s' → contents s' = contents s
  contents_persistErr : ∀ {s s'}, Step s .persistErr s' → contents s' = contents s
  left_by_crash : ∀ {s s'}, Step s .crash s' → ∀ k, MayLeave s k ((contents s').lookup k)
  /-- Only what is there now can be left by a crash beside what could be left before. -/
  mayLeave_of_step : ∀ {s op s'}, Step s op s' → ∀ {k v}, MayLeave s' k v →
    MayLeave s k v ∨ v = (contents s').lookup k
  mayLeave_persist : ∀ {s s'}, Step s .persist s' → ∀ {k v}, MayLeave s' k v →
    v = (contents s').lookup k

namespace DurableMap

variable {κ ν σ : Type} [DecidableEq κ] {D : DurableMap κ ν σ} {s s' : σ} {op : MapOp κ ν} {k : κ}
  {v : Option ν}

/-- The key has the value, or a crash may leave it with the value. -/
def Known (D : DurableMap κ ν σ) (s : σ) (k : κ) (v : ν) : Prop :=
  (D.contents s).lookup k = some v ∨ D.MayLeave s k (some v)

/-- A key that is not written is read as before, unless there is a crash. -/
lemma lookup_of_step (h : D.Step s op s') (hw : ¬ op.Writes k) (hc : op ≠ .crash) :
    (D.contents s').lookup k = (D.contents s).lookup k := by
  cases op with
  | insert k' v => rw [D.contents_insert h, AList.lookup_insert_ne (Ne.symm hw)]
  | remove k' => rw [D.contents_remove h, AList.lookup_erase_ne (Ne.symm hw)]
  | persist => rw [D.contents_persist h]
  | persistErr => rw [D.contents_persistErr h]
  | crash => exact absurd rfl hc

/-- A value that is known now was known before, or has just been inserted. -/
theorem known_of_step (h : D.Step s op s') {w : ν} (hk : D.Known s' k w) :
    D.Known s k w ∨ op = .insert k w := by
  have hlookup (hl : (D.contents s').lookup k = some w) : D.Known s k w ∨ op = .insert k w := by
    by_cases hc : op = .crash
    · subst hc
      exact .inl (.inr (hl ▸ D.left_by_crash h k))
    by_cases hw : op.Writes k
    · cases op with
      | insert k' v =>
          obtain rfl : k' = k := hw
          rw [D.contents_insert h, AList.lookup_insert, Option.some.injEq] at hl
          exact .inr (by rw [hl])
      | remove k' =>
          obtain rfl : k' = k := hw
          rw [D.contents_remove h, AList.lookup_erase] at hl
          cases hl
      | persist => cases hw
      | persistErr => cases hw
      | crash => cases hw
    · exact .inl (.inl (lookup_of_step h hw hc ▸ hl))
  rcases hk with hl | hm
  · exact hlookup hl
  · rcases D.mayLeave_of_step h hm with hold | heq
    · exact .inl (.inr hold)
    · exact hlookup heq.symm

/-- The key has the value (or none), and a crash leaves it so. -/
structure Holds (D : DurableMap κ ν σ) (s : σ) (k : κ) (v : Option ν) : Prop where
  lookup : (D.contents s).lookup k = v
  left : ∀ w, D.MayLeave s k w → w = v

/-- No operation on other keys changes that, nor does a crash. -/
theorem Holds.step (hh : D.Holds s k v) (h : D.Step s op s') (hw : ¬ op.Writes k) :
    D.Holds s' k v := by
  have hlookup : (D.contents s').lookup k = v := by
    by_cases hc : op = .crash
    · subst hc
      exact hh.left _ (D.left_by_crash h k)
    · rw [lookup_of_step h hw hc, hh.lookup]
  refine ⟨hlookup, fun w hm => ?_⟩
  rcases D.mayLeave_of_step h hm with hold | heq
  · exact hh.left w hold
  · rw [heq, hlookup]

/-- A key that is gone stays so when it is removed. -/
theorem Holds.remove (hh : D.Holds s k none) (h : D.Step s (.remove k) s') :
    D.Holds s' k none := by
  have hlookup : (D.contents s').lookup k = none := by
    rw [D.contents_remove h, AList.lookup_erase]
  refine ⟨hlookup, fun w hm => ?_⟩
  rcases D.mayLeave_of_step h hm with hold | heq
  · exact hh.left w hold
  · rw [heq, hlookup]

/-- What has been persisted holds. -/
theorem holds_of_persist (h : D.Step s .persist s') (hl : (D.contents s).lookup k = v) :
    D.Holds s' k v := by
  have hlookup : (D.contents s').lookup k = v := by rw [D.contents_persist h, hl]
  exact ⟨hlookup, fun w hm => (D.mayLeave_persist h hm).trans hlookup⟩

end DurableMap

/-! ### Journals -/

/-- The writes to a map in their order, the value of a key or its removal: those that are on the
disk, and the later ones. -/
structure Journal (κ ν : Type) where
  synced : List (κ × Option ν)
  pending : List (κ × Option ν)

namespace Journal

variable {κ ν : Type} [DecidableEq κ]

/-- A write to a map. -/
def write (map : AList fun _ : κ => ν) (entry : κ × Option ν) : AList fun _ : κ => ν :=
  match entry.2 with
  | some v => map.insert entry.1 v
  | none => map.erase entry.1

/-- The map after the writes. -/
def replay (entries : List (κ × Option ν)) : AList fun _ : κ => ν := entries.foldl write ∅

def contents (j : Journal κ ν) : AList fun _ : κ => ν := replay (j.synced ++ j.pending)

/-- What a crash may leave: the writes on the disk, and a beginning of the others. -/
def MayLeave (j : Journal κ ν) (k : κ) (v : Option ν) : Prop :=
  ∃ n, v = (replay (j.synced ++ j.pending.take n)).lookup k

/-- The operations on a journal. -/
def Step (j : Journal κ ν) (op : MapOp κ ν) (j' : Journal κ ν) : Prop :=
  match op with
  | .insert k v => j' = ⟨j.synced, j.pending ++ [(k, some v)]⟩
  | .remove k => j' = ⟨j.synced, j.pending ++ [(k, none)]⟩
  | .persist => j' = ⟨j.synced ++ j.pending, []⟩
  | .persistErr => ∃ n, j' = ⟨j.synced ++ j.pending.take n, j.pending.drop n⟩
  | .crash => ∃ n, j' = ⟨j.synced, j.pending.take n⟩

variable {j j' : Journal κ ν} {k : κ} {v : Option ν}

lemma replay_concat (entries : List (κ × Option ν)) (entry : κ × Option ν) :
    replay (entries ++ [entry]) = write (replay entries) entry := by
  rw [replay, List.foldl_append, List.foldl_cons, List.foldl_nil, replay]

/-- One more write. -/
lemma mayLeave_write {entry : κ × Option ν}
    (h : MayLeave ⟨j.synced, j.pending ++ [entry]⟩ k v) :
    j.MayLeave k v ∨ v = (contents ⟨j.synced, j.pending ++ [entry]⟩).lookup k := by
  obtain ⟨n, hn⟩ := h
  rcases le_or_gt n j.pending.length with hle | hgt
  · exact .inl ⟨n, by rw [hn, List.take_append_of_le_length hle]⟩
  · refine .inr ?_
    rw [hn, List.take_of_length_le (by simpa using hgt)]
    rfl

lemma mayLeave_of_step {op : MapOp κ ν} (h : j.Step op j') (hm : j'.MayLeave k v) :
    j.MayLeave k v ∨ v = j'.contents.lookup k := by
  cases op with
  | insert k' v' =>
      subst h
      exact mayLeave_write hm
  | remove k' =>
      subst h
      exact mayLeave_write hm
  | persist =>
      subst h
      obtain ⟨n, hn⟩ := hm
      exact .inr (by rw [hn, contents, List.take_nil])
  | persistErr =>
      obtain ⟨m, rfl⟩ := h
      obtain ⟨n, rfl⟩ := hm
      refine .inl ⟨m + n, ?_⟩
      dsimp only
      rw [List.append_assoc, List.take_add]
  | crash =>
      obtain ⟨m, rfl⟩ := h
      obtain ⟨n, rfl⟩ := hm
      exact .inl ⟨min n m, by dsimp only; rw [List.take_take]⟩

/-- A journal keeps what has been persisted. -/
def durableMap (κ ν : Type) [DecidableEq κ] : DurableMap κ ν (Journal κ ν) where
  contents := contents
  MayLeave := MayLeave
  Step := Step
  contents_insert := by
    rintro j k v j' rfl
    rw [contents, ← List.append_assoc, replay_concat]
    rfl
  contents_remove := by
    rintro j k j' rfl
    rw [contents, ← List.append_assoc, replay_concat]
    rfl
  contents_persist := by
    rintro j j' rfl
    rw [contents, List.append_nil]
    rfl
  contents_persistErr := by
    rintro j j' ⟨n, rfl⟩
    rw [contents, List.append_assoc, List.take_append_drop]
    rfl
  left_by_crash := by
    rintro j j' ⟨n, rfl⟩ k
    exact ⟨n, rfl⟩
  mayLeave_of_step := by
    intro j op j' h k v hm
    exact mayLeave_of_step h hm
  mayLeave_persist := by
    rintro j j' rfl k v ⟨n, rfl⟩
    rw [contents, List.take_nil]

end Journal

end Fernq
