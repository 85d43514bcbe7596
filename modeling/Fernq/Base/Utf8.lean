import Mathlib.Tactic
import Fernq.Base.Bytes
import Fernq.Base.Text

/-!
Text by byte offsets, as UTF-8 strings are cut.

* `IsBoundary`: the offsets between characters; `textSlice`: the text between two offsets, which
  aborts where an offset is past the end or inside a character.
* `find`, `rfind`: the offset of the first or the last character of a kind.
* `textSlice_append`: the slice at the offsets of a middle part is that part.
* `find_of_splitAtFirst`, `rfind_of_splitAtLast`: searching and slicing is the same as cutting at
  the character, for a separator of one byte (`textSlice_before`, `textSlice_after`).
-/

namespace Fernq

variable {ε : Type}

/-! ### Offsets and slices -/

/-- `s.is_char_boundary(i)`. -/
def IsBoundary (s : String) (i : ℕ) : Prop := String.Pos.Raw.IsValid s ⟨i⟩

instance (s : String) (i : ℕ) : Decidable (IsBoundary s i) :=
  inferInstanceAs (Decidable (String.Pos.Raw.IsValid s ⟨i⟩))

/-- `&s[a..b]`: aborts when an offset is not a character boundary, or the end is before the
start. -/
def textSlice (s : String) (a b : ℕ) : Outcome ε String :=
  if a ≤ b ∧ IsBoundary s a ∧ IsBoundary s b then
    match fromUtf8 (((utf8Bytes s).drop a).take (b - a)) with
    | some text => .ok text
    | none => .panicked
  else .panicked

lemma utf8Bytes_append (s t : String) : utf8Bytes (s ++ t) = utf8Bytes s ++ utf8Bytes t := by
  simp [utf8Bytes, String.toByteArray_append]

/-- The offsets of a text are those of its two parts. -/
lemma isBoundary_append_iff {s t : String} {i : ℕ} :
    IsBoundary (s ++ t) i ↔
      IsBoundary s i ∨ (s.utf8ByteSize ≤ i ∧ IsBoundary t (i - s.utf8ByteSize)) :=
  String.Pos.Raw.isValid_append

lemma isBoundary_size (s : String) : IsBoundary s s.utf8ByteSize := String.Pos.Raw.isValid_rawEndPos

lemma IsBoundary.le {s : String} {i : ℕ} (h : IsBoundary s i) : i ≤ s.utf8ByteSize :=
  h.le_utf8ByteSize

lemma isBoundary_left (s t : String) : IsBoundary (s ++ t) s.utf8ByteSize :=
  isBoundary_append_iff.mpr (.inl (isBoundary_size s))

lemma isBoundary_singleton_iff {c : Char} {i : ℕ} :
    IsBoundary (String.singleton c) i ↔ i = 0 ∨ i = c.utf8Size := by
  rw [IsBoundary, String.Pos.Raw.isValid_singleton, String.Pos.Raw.ext_iff]
  rfl

/-- The slice at the offsets of a middle part. -/
lemma textSlice_append (pre mid post : String) :
    (textSlice (pre ++ (mid ++ post)) pre.utf8ByteSize (pre.utf8ByteSize + mid.utf8ByteSize)
      : Outcome ε String) = .ok mid := by
  have hstart : IsBoundary (pre ++ (mid ++ post)) pre.utf8ByteSize := isBoundary_left ..
  have hend : IsBoundary (pre ++ (mid ++ post)) (pre.utf8ByteSize + mid.utf8ByteSize) := by
    rw [← String.append_assoc, ← String.utf8ByteSize_append]
    exact isBoundary_left ..
  have hbytes : ((utf8Bytes (pre ++ (mid ++ post))).drop pre.utf8ByteSize).take
      (pre.utf8ByteSize + mid.utf8ByteSize - pre.utf8ByteSize) = utf8Bytes mid := by
    rw [utf8Bytes_append, utf8Bytes_append, List.drop_left' (utf8Bytes_length pre),
      Nat.add_sub_cancel_left, List.take_left' (utf8Bytes_length mid)]
  rw [textSlice, if_pos ⟨Nat.le_add_right .., hstart, hend⟩, hbytes, fromUtf8_utf8Bytes]

lemma textSlice_left (s t : String) :
    (textSlice (s ++ t) 0 s.utf8ByteSize : Outcome ε String) = .ok s := by
  have h := textSlice_append (ε := ε) "" s t
  rwa [String.empty_append, String.utf8ByteSize_empty, Nat.zero_add] at h

lemma textSlice_right (s t : String) :
    (textSlice (s ++ t) s.utf8ByteSize (s ++ t).utf8ByteSize : Outcome ε String) = .ok t := by
  have h := textSlice_append (ε := ε) s t ""
  rwa [String.append_empty, ← String.utf8ByteSize_append] at h

/-- An offset that is inside a character is not one to slice at. -/
lemma textSlice_of_not_boundary {s : String} {a b : ℕ} (h : ¬ IsBoundary s b) :
    (textSlice s a b : Outcome ε String) = .panicked :=
  if_neg fun hcond => h hcond.2.2

/-! ### Searches -/

/-- `s.find(p)`: the offset of the first character that satisfies `p`. -/
def findFrom (p : Char → Bool) : List Char → ℕ → Option ℕ
  | [], _ => none
  | c :: cs, i => if p c then some i else findFrom p cs (i + c.utf8Size)

def find (p : Char → Bool) (s : String) : Option ℕ := findFrom p s.toList 0

/-- `s.rfind(p)`: the offset of the last character that satisfies `p`. -/
def rfindFrom (p : Char → Bool) : List Char → ℕ → Option ℕ
  | [], _ => none
  | c :: cs, i => (rfindFrom p cs (i + c.utf8Size)).or (if p c then some i else none)

def rfind (p : Char → Bool) (s : String) : Option ℕ := rfindFrom p s.toList 0

section Search

variable {p : Char → Bool} {c : Char} {cs pre post : List Char}

lemma utf8ByteSize_cons (c : Char) (cs : List Char) :
    (String.ofList (c :: cs)).utf8ByteSize = c.utf8Size + (String.ofList cs).utf8ByteSize := by
  rw [String.ofList_cons, String.utf8ByteSize_append, String.utf8ByteSize_singleton]

lemma findFrom_eq_none (h : ∀ x ∈ cs, p x = false) (i : ℕ) : findFrom p cs i = none := by
  induction cs generalizing i with
  | nil => rfl
  | cons x cs ih =>
      rw [findFrom, if_neg (by simp [h x List.mem_cons_self])]
      exact ih (fun y hy => h y (List.mem_cons_of_mem x hy)) _

/-- The first character of a kind is behind the characters that are not of it. -/
lemma findFrom_append (h : ∀ x ∈ pre, p x = false) (hc : p c = true) (i : ℕ) :
    findFrom p (pre ++ c :: post) i = some (i + (String.ofList pre).utf8ByteSize) := by
  induction pre generalizing i with
  | nil => simp [findFrom, hc]
  | cons x pre ih =>
      rw [List.cons_append, findFrom, if_neg (by simp [h x List.mem_cons_self]),
        ih (fun y hy => h y (List.mem_cons_of_mem x hy)), utf8ByteSize_cons, Nat.add_assoc]

lemma rfindFrom_eq_none (h : ∀ x ∈ cs, p x = false) (i : ℕ) : rfindFrom p cs i = none := by
  induction cs generalizing i with
  | nil => rfl
  | cons x cs ih =>
      rw [rfindFrom, ih (fun y hy => h y (List.mem_cons_of_mem x hy)),
        if_neg (by simp [h x List.mem_cons_self])]
      rfl

/-- The last character of a kind is before the characters that are not of it. -/
lemma rfindFrom_append (h : ∀ x ∈ post, p x = false) (hc : p c = true) (i : ℕ) :
    rfindFrom p (pre ++ c :: post) i = some (i + (String.ofList pre).utf8ByteSize) := by
  induction pre generalizing i with
  | nil => simp [rfindFrom, rfindFrom_eq_none h, hc]
  | cons x pre ih =>
      rw [List.cons_append, rfindFrom, ih, utf8ByteSize_cons, Nat.add_assoc]
      rfl

end Search

/-! ### Cutting at a character -/

section Cut

variable {c : Char} {s a b : String}

/-- A text with a character in it, in its three parts. -/
lemma eq_append_of_toList (h : s.toList = a.toList ++ c :: b.toList) :
    s = a ++ (String.singleton c ++ b) := by
  apply String.toList_injective
  simp [h]

/-- Cutting at the first occurrence finds its offset. -/
lemma find_of_splitAtFirst (h : splitAtFirst c s = some (a, b)) :
    find (· == c) s = some a.utf8ByteSize ∧ s = a ++ (String.singleton c ++ b) := by
  obtain ⟨hs, hc⟩ := splitAtFirst_eq_some_iff.mp h
  refine ⟨?_, eq_append_of_toList hs⟩
  have hne : ∀ x ∈ a.toList, (x == c) = false := by
    intro x hx
    exact beq_false_of_ne (ne_of_mem_of_not_mem hx hc)
  rw [find, hs, findFrom_append hne (beq_self_eq_true c), Nat.zero_add, String.ofList_toList]

lemma find_of_splitAtFirst_eq_none (h : splitAtFirst c s = none) : find (· == c) s = none := by
  refine findFrom_eq_none ?_ 0
  intro x hx
  exact beq_false_of_ne (ne_of_mem_of_not_mem hx (splitAtFirst_eq_none_iff.mp h))

/-- Cutting at the last occurrence finds its offset. -/
lemma rfind_of_splitAtLast (h : splitAtLast c s = some (a, b)) :
    rfind (· == c) s = some a.utf8ByteSize ∧ s = a ++ (String.singleton c ++ b) := by
  obtain ⟨hs, hc⟩ := splitAtLast_eq_some_iff.mp h
  refine ⟨?_, eq_append_of_toList hs⟩
  have hne : ∀ x ∈ b.toList, (x == c) = false := by
    intro x hx
    exact beq_false_of_ne (ne_of_mem_of_not_mem hx hc)
  rw [rfind, hs, rfindFrom_append hne (beq_self_eq_true c), Nat.zero_add, String.ofList_toList]

lemma rfind_of_splitAtLast_eq_none (h : splitAtLast c s = none) : rfind (· == c) s = none := by
  refine rfindFrom_eq_none ?_ 0
  intro x hx
  exact beq_false_of_ne (ne_of_mem_of_not_mem hx (splitAtLast_eq_none_iff.mp h))

/-- The text behind a separator of one byte. -/
lemma textSlice_after (hc : c.utf8Size = 1) (hs : s = a ++ (String.singleton c ++ b)) :
    (textSlice s (a.utf8ByteSize + 1) s.utf8ByteSize : Outcome ε String) = .ok b := by
  have hsize : (a ++ String.singleton c).utf8ByteSize = a.utf8ByteSize + 1 := by
    rw [String.utf8ByteSize_append, String.utf8ByteSize_singleton, hc]
  rw [hs, ← String.append_assoc, ← hsize]
  exact textSlice_right ..

/-- The text before a separator. -/
lemma textSlice_before (hs : s = a ++ (String.singleton c ++ b)) :
    (textSlice s 0 a.utf8ByteSize : Outcome ε String) = .ok a := by
  rw [hs]
  exact textSlice_left ..

/-- The text from a separator on. -/
lemma textSlice_from (hs : s = a ++ (String.singleton c ++ b)) :
    (textSlice s a.utf8ByteSize s.utf8ByteSize : Outcome ε String)
      = .ok (String.singleton c ++ b) := by
  rw [hs]
  exact textSlice_right ..

/-- The text before the first character of a kind, or all of it. -/
lemma textSlice_find (p : Char → Bool) (s : String) :
    (textSlice s 0 ((find p s).getD s.utf8ByteSize) : Outcome ε String)
      = .ok (.ofList (s.toList.takeWhile (!p ·))) := by
  have hcut := List.takeWhile_append_dropWhile (p := (!p ·)) (l := s.toList)
  have hfront : ∀ x ∈ s.toList.takeWhile (!p ·), p x = false := by
    intro x hx
    simpa using List.mem_takeWhile_imp hx
  have hback := List.head?_dropWhile_not (!p ·) s.toList
  generalize s.toList.takeWhile (!p ·) = front at hcut hfront ⊢
  cases hrest : s.toList.dropWhile (!p ·) with
  | nil =>
      rw [hrest, List.append_nil] at hcut
      have hs : s = .ofList front := by rw [hcut, String.ofList_toList]
      have hnone : find p s = none := findFrom_eq_none (hcut ▸ hfront) 0
      have hall := textSlice_left (ε := ε) s ""
      rw [String.append_empty] at hall
      rw [hnone, Option.getD_none, hall, hs]
  | cons c post =>
      rw [hrest] at hcut hback
      have hc : p c = true := by simpa using hback
      have hs : s = .ofList front ++ (String.singleton c ++ .ofList post) :=
        eq_append_of_toList (by simpa using hcut.symm)
      have hfind : find p s = some (String.ofList front).utf8ByteSize := by
        rw [find, ← hcut, findFrom_append hfront hc, Nat.zero_add]
      rw [hfind, Option.getD_some, textSlice_before hs]

end Cut

end Fernq
