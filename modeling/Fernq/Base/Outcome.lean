import Mathlib.Tactic

/-!
Calls that return a result or abort: the three ways a fallible call can end
(`Outcome`), and indexing and slicing as steps that may abort.

* `Outcome`: a value, an error, or an abort of the calling task; `bind` stops at
  the first error or abort.
* `bind_eq_ok`, `bind_eq_err`, `bind_eq_panicked`: which step of a sequence
  decided its outcome.
* `index`, `slice`: reading one element, or a range, of a list; out of range they
  abort.  `slice_append` reads a middle part of a concatenation, and
  `slice_eq_panicked_iff` says when a range is out of bounds.
* `checkedAdd`, `checkedSub`, `usizeSub`: arithmetic on 64-bit sizes.
* `Except.bind_eq_ok_iff`: a sequence of calls that do not abort.
-/

namespace Fernq

/-- How a call that returns a `Result` ends: with a value, with an error, or by
aborting the task it runs in. -/
inductive Outcome (ε α : Type) where
  | ok (a : α)
  | err (e : ε)
  | panicked
  deriving DecidableEq, Repr

namespace Outcome

variable {ε α β : Type}

/-- Sequencing: the rest runs only on a value. -/
def bind (x : Outcome ε α) (f : α → Outcome ε β) : Outcome ε β :=
  match x with
  | ok a => f a
  | err e => err e
  | panicked => panicked

instance : Monad (Outcome ε) where
  pure := ok
  bind := bind

@[simp] lemma pure_eq (a : α) : (pure a : Outcome ε α) = ok a := rfl

@[simp] lemma ok_bind (a : α) (f : α → Outcome ε β) : (ok a >>= f) = f a := rfl

@[simp] lemma err_bind (e : ε) (f : α → Outcome ε β) :
    ((err e : Outcome ε α) >>= f) = err e := rfl

@[simp] lemma panicked_bind (f : α → Outcome ε β) :
    ((panicked : Outcome ε α) >>= f) = panicked := rfl

lemma bind_assoc {γ : Type} (x : Outcome ε α) (f : α → Outcome ε β) (g : β → Outcome ε γ) :
    (x >>= f >>= g) = x >>= fun a => f a >>= g := by
  cases x <;> rfl

/-- A sequence returns a value exactly when both parts do. -/
lemma bind_eq_ok {x : Outcome ε α} {f : α → Outcome ε β} {b : β} :
    (x >>= f) = ok b ↔ ∃ a, x = ok a ∧ f a = ok b := by
  cases x <;> simp

/-- A sequence returns an error when the first part does, or the second after it. -/
lemma bind_eq_err {x : Outcome ε α} {f : α → Outcome ε β} {e : ε} :
    (x >>= f) = err e ↔ x = err e ∨ ∃ a, x = ok a ∧ f a = err e := by
  cases x <;> simp

/-- A sequence aborts when the first part does, or the second after it. -/
lemma bind_eq_panicked {x : Outcome ε α} {f : α → Outcome ε β} :
    (x >>= f) = panicked ↔ x = panicked ∨ ∃ a, x = ok a ∧ f a = panicked := by
  cases x <;> simp

/-- Return `v`, or the error `e` when there is none. -/
def okOr (v : Option α) (e : ε) : Outcome ε α :=
  match v with
  | some a => ok a
  | none => err e

@[simp] lemma okOr_some (a : α) (e : ε) : okOr (some a) e = ok a := rfl

@[simp] lemma okOr_none (e : ε) : (okOr none e : Outcome ε α) = err e := rfl

lemma okOr_eq_ok_iff {v : Option α} {e : ε} {a : α} : okOr v e = ok a ↔ v = some a := by
  cases v <;> simp

/-- Replace the error (`map_err`). -/
def mapErr {ε' : Type} (f : ε → ε') : Outcome ε α → Outcome ε' α
  | ok a => ok a
  | err e => err (f e)
  | panicked => panicked

@[simp] lemma mapErr_ok {ε' : Type} (f : ε → ε') (a : α) : mapErr f (ok a) = ok a := rfl

@[simp] lemma mapErr_err {ε' : Type} (f : ε → ε') (e : ε) :
    mapErr f (err e : Outcome ε α) = err (f e) := rfl

@[simp] lemma mapErr_panicked {ε' : Type} (f : ε → ε') :
    mapErr f (panicked : Outcome ε α) = panicked := rfl

lemma okOr_ne_panicked (v : Option α) (e : ε) : okOr v e ≠ panicked := by
  cases v <;> simp

end Outcome

/-! ### Indexing and slicing -/

section Access

variable {ε α : Type}

/-- `xs[i]`: aborts when `i` is out of bounds. -/
def index (xs : List α) (i : ℕ) : Outcome ε α :=
  match xs[i]? with
  | some x => .ok x
  | none => .panicked

/-- `&xs[a..b]`: aborts when the start is past the end or the end is out of bounds. -/
def slice (xs : List α) (a b : ℕ) : Outcome ε (List α) :=
  if a ≤ b ∧ b ≤ xs.length then .ok ((xs.drop a).take (b - a)) else .panicked

lemma index_of_lt {xs : List α} {i : ℕ} (h : i < xs.length) :
    (index xs i : Outcome ε α) = .ok xs[i] := by
  rw [index, List.getElem?_eq_getElem h]

lemma index_of_le {xs : List α} {i : ℕ} (h : xs.length ≤ i) :
    (index xs i : Outcome ε α) = .panicked := by
  rw [index, List.getElem?_eq_none h]

lemma index_eq_panicked_iff {xs : List α} {i : ℕ} :
    (index xs i : Outcome ε α) = .panicked ↔ xs.length ≤ i := by
  by_cases h : i < xs.length
  · simp [index_of_lt h, h]
  · simp [index_of_le (not_lt.mp h), not_lt.mp h]

/-- Indexing inside a prefix sees the prefix alone. -/
lemma index_append_left {p s : List α} {i : ℕ} (h : i < p.length) :
    (index (p ++ s) i : Outcome ε α) = index p i := by
  rw [index, index, List.getElem?_append_left h]

lemma slice_of_le {xs : List α} {a b : ℕ} (hab : a ≤ b) (hb : b ≤ xs.length) :
    (slice xs a b : Outcome ε (List α)) = .ok ((xs.drop a).take (b - a)) :=
  if_pos ⟨hab, hb⟩

lemma slice_eq_panicked_iff {xs : List α} {a b : ℕ} :
    (slice xs a b : Outcome ε (List α)) = .panicked ↔ b < a ∨ xs.length < b := by
  unfold slice
  split
  · rename_i h; simp; omega
  · rename_i h; simp; omega

lemma index_ne_err {xs : List α} {i : ℕ} {e : ε} : index xs i ≠ .err e := by
  unfold index
  split <;> simp

/-- The middle part of a concatenation, read by its bounds. -/
lemma slice_append {p m s : List α} {a b : ℕ} (ha : p.length = a) (hb : a + m.length = b) :
    (slice (p ++ (m ++ s)) a b : Outcome ε (List α)) = .ok m := by
  subst ha hb
  rw [slice_of_le (by omega) (by simp)]
  simp

lemma slice_append_left {m s : List α} {b : ℕ} (hb : m.length = b) :
    (slice (m ++ s) 0 b : Outcome ε (List α)) = .ok m := by
  subst hb
  rw [slice_of_le (by omega) (by simp)]
  simp

lemma slice_append_right {p s : List α} {a : ℕ} (ha : p.length = a) :
    (slice (p ++ s) a (p ++ s).length : Outcome ε (List α)) = .ok s := by
  subst ha
  rw [slice_of_le (by simp) le_rfl]
  simp

end Access

/-! ### Arithmetic on sizes -/

section Size

variable {ε : Type}

/-- `a.checked_add(b)` on 64-bit sizes. -/
def checkedAdd (a b : ℕ) : Option ℕ := if a + b < 2 ^ 64 then some (a + b) else none

/-- `a.checked_sub(b)`. -/
def checkedSub (a b : ℕ) : Option ℕ := if b ≤ a then some (a - b) else none

/-- `a - b`, where underflow aborts. -/
def usizeSub (a b : ℕ) : Outcome ε ℕ := if b ≤ a then .ok (a - b) else .panicked

lemma checkedAdd_of_lt {a b : ℕ} (h : a + b < 2 ^ 64) : checkedAdd a b = some (a + b) :=
  if_pos h

lemma checkedSub_of_le {a b : ℕ} (h : b ≤ a) : checkedSub a b = some (a - b) := if_pos h

lemma usizeSub_of_le {a b : ℕ} (h : b ≤ a) : (usizeSub a b : Outcome ε ℕ) = .ok (a - b) :=
  if_pos h

end Size

/-! ### Calls that do not abort -/

section Except

variable {ε ε' α β : Type}

/-- A sequence succeeds when both parts do. -/
lemma Except.bind_eq_ok_iff {x : Except ε α} {f : α → Except ε β} {b : β} :
    x >>= f = .ok b ↔ ∃ a, x = .ok a ∧ f a = .ok b := by
  cases x <;> simp [bind, Except.bind]

/-- A call succeeds whatever its error is turned into. -/
lemma Except.mapError_eq_ok_iff {x : Except ε α} {f : ε → ε'} {a : α} :
    x.mapError f = .ok a ↔ x = .ok a := by
  cases x <;> simp [Except.mapError]

end Except

end Fernq
