import Mathlib.Tactic
import Mathlib.Data.List.TakeWhile

/-!
Text cut at separators, and unsigned numbers in decimal.

* `splitAtFirst`, `splitAtLast`: the text on both sides of the first, or of the last, occurrence of
  a character; `splitAtFirst_eq_some_iff`, `splitAtLast_eq_some_iff`.
* `stripPrefix`: the text after a prefix; `stripPrefix_eq_some_iff`.
* `getLast?_splitOn`: the last piece of a split.
* `parseUnsigned`: the number that a text spells; `parseUnsigned_of_decimal`,
  `isSome_parseUnsigned_iff`.
* `not_mem_of_mem_splitOn`: the separator is in no piece of a split.
-/

namespace Fernq

/-! ### Separators -/

/-- The text before and after the first `c`. -/
def splitAtFirst (c : Char) (s : String) : Option (String × String) :=
  match s.toList.dropWhile (· != c) with
  | [] => none
  | _ :: rest => some (.ofList (s.toList.takeWhile (· != c)), .ofList rest)

/-- The text before and after the last `c`. -/
def splitAtLast (c : Char) (s : String) : Option (String × String) :=
  match s.toList.reverse.dropWhile (· != c) with
  | [] => none
  | _ :: rest =>
      some (.ofList rest.reverse, .ofList (s.toList.reverse.takeWhile (· != c)).reverse)

/-- `strip_prefix`. -/
def stripPrefix (p : String) (s : List Char) : Option (List Char) :=
  if p.toList <+: s then some (s.drop p.toList.length) else none

section Separators

variable {c : Char} {pre post : List Char} {s a b : String}

lemma takeWhile_ne_append (h : c ∉ pre) : (pre ++ c :: post).takeWhile (· != c) = pre := by
  rw [List.takeWhile_append_of_pos (by
    intro x hx
    exact bne_iff_ne.mpr (ne_of_mem_of_not_mem hx h)), List.takeWhile_cons_of_neg (by simp),
    List.append_nil]

lemma dropWhile_ne_append (h : c ∉ pre) : (pre ++ c :: post).dropWhile (· != c) = c :: post := by
  rw [List.dropWhile_append_of_pos (by
    intro x hx
    exact bne_iff_ne.mpr (ne_of_mem_of_not_mem hx h)), List.dropWhile_cons_of_neg (by simp)]

/-- What `dropWhile` leaves starts with the separator. -/
lemma dropWhile_ne_eq_cons {x : Char} {l rest : List Char} (h : l.dropWhile (· != c) = x :: rest) :
    x = c := by
  have hne : l.dropWhile (· != c) ≠ [] := by simp [h]
  have hx := List.head_dropWhile_not (· != c) hne
  simpa [h] using hx

/-- A text is cut at the first occurrence of the separator. -/
lemma splitAtFirst_eq_some_iff :
    splitAtFirst c s = some (a, b) ↔ s.toList = a.toList ++ c :: b.toList ∧ c ∉ a.toList := by
  constructor
  · intro h
    unfold splitAtFirst at h
    split at h
    · cases h
    · rename_i x rest hdrop
      obtain ⟨rfl, rfl⟩ : String.ofList _ = a ∧ String.ofList rest = b := by simpa using h
      obtain rfl := dropWhile_ne_eq_cons hdrop
      rw [String.toList_ofList, String.toList_ofList, ← hdrop, List.takeWhile_append_dropWhile]
      exact ⟨rfl, fun hc => by simpa using List.mem_takeWhile_imp hc⟩
  · rintro ⟨hs, hc⟩
    rw [splitAtFirst, hs, dropWhile_ne_append hc, takeWhile_ne_append hc]
    simp only [String.ofList_toList]

/-- A text with the separator in it once more before the end is cut at the last one. -/
lemma splitAtLast_append (h : c ∉ b.toList) (hs : s.toList = a.toList ++ c :: b.toList) :
    splitAtLast c s = some (a, b) := by
  have hrev : s.toList.reverse = b.toList.reverse ++ c :: a.toList.reverse := by simp [hs]
  have hc : c ∉ b.toList.reverse := by simpa using h
  rw [splitAtLast, hrev, dropWhile_ne_append hc, takeWhile_ne_append hc]
  simp only [List.reverse_reverse, String.ofList_toList]

/-- A text is cut at the last occurrence of the separator. -/
lemma splitAtLast_eq_some_iff :
    splitAtLast c s = some (a, b) ↔ s.toList = a.toList ++ c :: b.toList ∧ c ∉ b.toList := by
  constructor
  · intro h
    unfold splitAtLast at h
    split at h
    · cases h
    · rename_i x rest hdrop
      obtain ⟨rfl, rfl⟩ : String.ofList rest.reverse = a ∧ String.ofList _ = b := by simpa using h
      obtain rfl := dropWhile_ne_eq_cons hdrop
      have hcut := List.takeWhile_append_dropWhile (p := (· != x)) (l := s.toList.reverse)
      rw [hdrop] at hcut
      have hs := congrArg List.reverse hcut
      rw [List.reverse_append, List.reverse_cons, List.reverse_reverse, List.append_assoc,
        List.singleton_append] at hs
      rw [String.toList_ofList, String.toList_ofList]
      refine ⟨hs.symm, fun hx => ?_⟩
      simpa using List.mem_takeWhile_imp (List.mem_reverse.mp hx)
  · rintro ⟨hs, hc⟩
    exact splitAtLast_append hc hs

lemma splitAtFirst_eq_none_iff : splitAtFirst c s = none ↔ c ∉ s.toList := by
  have hcut := List.takeWhile_append_dropWhile (p := (· != c)) (l := s.toList)
  unfold splitAtFirst
  split
  · rename_i hdrop
    refine iff_of_true rfl fun hc => ?_
    rw [hdrop, List.append_nil] at hcut
    rw [← hcut] at hc
    simpa using List.mem_takeWhile_imp hc
  · rename_i x rest hdrop
    obtain rfl := dropWhile_ne_eq_cons hdrop
    refine iff_of_false (by simp) fun hc => hc ?_
    rw [← hcut, hdrop]
    exact List.mem_append_right _ List.mem_cons_self

lemma splitAtLast_eq_none_iff : splitAtLast c s = none ↔ c ∉ s.toList := by
  have hfirst : splitAtLast c s = none ↔ splitAtFirst c (.ofList s.toList.reverse) = none := by
    unfold splitAtLast splitAtFirst
    rw [String.toList_ofList]
    cases s.toList.reverse.dropWhile (· != c) <;> simp
  rw [hfirst, splitAtFirst_eq_none_iff, String.toList_ofList, List.mem_reverse]

lemma stripPrefix_append (p : String) (l : List Char) : stripPrefix p (p.toList ++ l) = some l := by
  rw [stripPrefix, if_pos (List.prefix_append _ _), List.drop_left]

lemma stripPrefix_eq_some {p : String} {l m : List Char} (h : stripPrefix p l = some m) :
    l = p.toList ++ m := by
  unfold stripPrefix at h
  split_ifs at h with hp
  obtain ⟨t, rfl⟩ := hp
  rw [Option.some.injEq, List.drop_left] at h
  rw [h]

lemma stripPrefix_eq_some_iff {p : String} {l m : List Char} :
    stripPrefix p l = some m ↔ l = p.toList ++ m := by
  constructor
  · exact stripPrefix_eq_some
  · rintro rfl
    exact stripPrefix_append p m

lemma stripPrefix_eq_none_iff {p : String} {l : List Char} :
    stripPrefix p l = none ↔ ¬ p.toList <+: l := by
  unfold stripPrefix
  split_ifs with hp <;> simp [hp]

end Separators

/-- A prefix without the separator is before its first occurrence. -/
lemma prefix_of_prefix_append_cons {c : Char} {p l rest : List Char} (hc : c ∉ p)
    (h : p <+: l ++ c :: rest) : p <+: l := by
  rcases List.prefix_or_prefix_of_prefix h (List.prefix_append l (c :: rest)) with hpl | ⟨t, rfl⟩
  · exact hpl
  · rw [List.prefix_append_right_inj] at h
    cases t with
    | nil => rw [List.append_nil]
    | cons x t =>
        obtain ⟨rfl, -⟩ := List.cons_prefix_cons.mp h
        exact absurd (List.mem_append_right l List.mem_cons_self) hc

/-- A list with the separator in it, cut at the last occurrence. -/
lemma exists_last_of_mem {c : Char} {l : List Char} (h : c ∈ l) :
    ∃ pre post, l = pre ++ c :: post ∧ c ∉ post := by
  obtain ⟨post, pre, hl, hpost⟩ := List.eq_append_cons_of_mem (List.mem_reverse.mpr h)
  refine ⟨pre.reverse, post.reverse, ?_, by simpa using hpost⟩
  rw [← List.reverse_reverse l, hl]
  simp

/-- The last piece of a split is what follows the last separator. -/
lemma getLast?_splitOn {c : Char} {pre post : List Char} (h : c ∉ post) :
    ((pre ++ c :: post).splitOn c).getLast? = some post := by
  rw [List.splitOn_append_cons_self, List.splitOn_eq_singleton h, List.getLast?_append,
    List.getLast?_singleton, Option.some_or]

/-- The separator is in no piece of a split. -/
lemma not_mem_of_mem_splitOn {sep : Char} {piece : List Char} (l : List Char)
    (h : piece ∈ l.splitOn sep) : sep ∉ piece := by
  by_cases hmem : sep ∈ l
  · obtain ⟨first, rest, hl, hfirst⟩ := List.eq_append_cons_of_mem hmem
    rw [hl, List.splitOn_append_cons_self_of_not_mem hfirst, List.mem_cons] at h
    rcases h with rfl | h
    · exact hfirst
    · exact not_mem_of_mem_splitOn rest h
  · rw [List.splitOn_eq_singleton hmem, List.mem_singleton] at h
    rwa [h]
termination_by l.length
decreasing_by simp [hl]; omega

/-! ### Numbers -/

/-- The text after an optional sign. -/
def afterSign : List Char → List Char
  | '+' :: rest => rest
  | s => s

/-- The number a text spells: an optional sign `+` and then decimal digits, with a value below
`2 ^ bits`. -/
def parseUnsigned (bits : ℕ) (s : List Char) : Option ℕ :=
  let digits := afterSign s
  if digits.isEmpty ∨ ¬ digits.all Char.isDigit then none
  else if Nat.ofDigitChars 10 digits 0 < 2 ^ bits then some (Nat.ofDigitChars 10 digits 0)
  else none

lemma afterSign_of_ne {s : List Char} (h : ∀ rest, s ≠ '+' :: rest) : afterSign s = s := by
  unfold afterSign
  split
  · rename_i rest
    exact absurd rfl (h rest)
  · rfl

/-- Decimal digits of a number below `2 ^ bits`. -/
structure Decimal (bits : ℕ) (s : List Char) : Prop where
  ne_nil : s ≠ []
  digits : ∀ c ∈ s, c.isDigit
  value_lt : Nat.ofDigitChars 10 s 0 < 2 ^ bits

lemma isSome_parseUnsigned {bits : ℕ} {s : List Char} :
    (parseUnsigned bits s).isSome ↔ Decimal bits (afterSign s) := by
  rw [parseUnsigned]
  constructor
  · intro h
    split_ifs at h with hshape hlt
    · cases h
    · rw [not_or, not_not] at hshape
      exact ⟨by simpa using hshape.1, by simpa using hshape.2, hlt⟩
    · cases h
  · intro h
    rw [if_neg (by simpa [h.ne_nil] using h.digits), if_pos h.value_lt]
    rfl

/-- The texts that spell a number: decimal digits, with a plus sign in front or without. -/
lemma isSome_parseUnsigned_iff {bits : ℕ} {s : List Char} :
    (parseUnsigned bits s).isSome ↔
      Decimal bits s ∨ ∃ digits, s = '+' :: digits ∧ Decimal bits digits := by
  rw [isSome_parseUnsigned]
  by_cases hplus : ∃ digits, s = '+' :: digits
  · obtain ⟨digits, rfl⟩ := hplus
    have hsign : ¬ Decimal bits ('+' :: digits) := by
      intro h
      exact absurd (h.digits '+' List.mem_cons_self) (by decide)
    simp [afterSign, hsign]
  · rw [afterSign_of_ne (by simpa using hplus)]
    refine ⟨.inl, ?_⟩
    rintro (h | ⟨digits, rfl, -⟩)
    · exact h
    · exact absurd ⟨digits, rfl⟩ hplus

/-- Decimal digits spell their value. -/
lemma parseUnsigned_of_decimal {bits : ℕ} {s : List Char} (h : Decimal bits s) :
    parseUnsigned bits s = some (Nat.ofDigitChars 10 s 0) := by
  have hsign : ∀ rest, s ≠ '+' :: rest := by
    rintro rest rfl
    exact absurd (h.digits '+' List.mem_cons_self) (by decide)
  have hcond : ¬ (s.isEmpty = true ∨ ¬ s.all Char.isDigit = true) := by
    simpa [h.ne_nil] using h.digits
  rw [parseUnsigned, afterSign_of_ne hsign, if_neg hcond, if_pos h.value_lt]

end Fernq
