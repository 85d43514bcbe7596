import Mathlib.Tactic
import Fernq.Base.Outcome

/-!
Decoding a stream item by item: a decoder that takes one item off the front, applied
again and again to what it left.

* `decodeTimes`: `n` applications of the decoder.
* `decodeTimes_flatten`: when the decoder reads each item of a list off its encoding,
  whatever follows, it reads the concatenated encodings back and leaves the rest.
* `IncrementalDecoder`: a decoder that may also ask for more, with answers that stand
  whatever follows; `drain` takes items off a buffer until it cannot.
* `drain_frames`: whole items and the beginning of one more.
* `foldl_feed`: a buffer that is filled chunk by chunk and drained after each chunk gives
  the items and the error of all chunks together.
-/

namespace Fernq

variable {α β ι ε : Type}

/-- Apply `decode` `n` times, each time to the rest the one before left. -/
def decodeTimes (decode : List α → Outcome ε (β × List α)) :
    ℕ → List α → Outcome ε (List β × List α)
  | 0, input => .ok ([], input)
  | n + 1, input => do
      let (item, rest) ← decode input
      let (items, rest) ← decodeTimes decode n rest
      return (item :: items, rest)

/-- A decoder that undoes the encoding of each item undoes their concatenation. -/
theorem decodeTimes_flatten {decode : List α → Outcome ε (β × List α)} (encode : ι → List α)
    (view : ι → β) (items : List ι) (rest : List α)
    (h : ∀ i ∈ items, ∀ s, decode (encode i ++ s) = .ok (view i, s)) :
    decodeTimes decode items.length ((items.map encode).flatten ++ rest)
      = .ok (items.map view, rest) := by
  induction items with
  | nil => rfl
  | cons i items ih =>
      have hi := h i (by simp)
      have htail := ih fun j hj => h j (by simp [hj])
      rw [List.map_cons, List.flatten_cons, List.append_assoc, List.length_cons, decodeTimes, hi,
        Outcome.ok_bind]
      dsimp only
      rw [htail]
      rfl

/-! ### Incremental decoding -/

/-- What a decoder says of the front of a buffer: an item and what follows it, that it needs
more, or that it is refused. -/
inductive Decoded (ε β α : Type)
  | item (b : β) (rest : List α)
  | more
  | failed (e : ε)

/-- A decoder whose items and refusals stand whatever follows, and whose items are not empty. -/
structure IncrementalDecoder (ε β α : Type) where
  decode : List α → Decoded ε β α
  shorter : ∀ {xs b rest}, decode xs = .item b rest → rest.length < xs.length
  item_append : ∀ {xs b rest}, decode xs = .item b rest → ∀ s,
    decode (xs ++ s) = .item b (rest ++ s)
  failed_append : ∀ {xs e}, decode xs = .failed e → ∀ s, decode (xs ++ s) = .failed e

/-- The items decoded so far, and the error that ended the decoding or what is buffered. -/
structure Drained (ε β α : Type) where
  items : List β
  buffer : Except ε (List α)

/-- Items decoded before. -/
def Drained.prepend (items : List β) (st : Drained ε β α) : Drained ε β α :=
  { st with items := items ++ st.items }

namespace IncrementalDecoder

/-- Take items off a buffer until more is needed or the front is refused. -/
def drain (D : IncrementalDecoder ε β α) (xs : List α) : Drained ε β α :=
  match _h : D.decode xs with
  | .item b rest => (drain D rest).prepend [b]
  | .more => ⟨[], .ok xs⟩
  | .failed e => ⟨[], .error e⟩
termination_by xs.length
decreasing_by exact D.shorter _h

/-- A chunk arrives: it is put behind what is buffered, and the buffer is drained.  After an error
nothing is read. -/
def feed (D : IncrementalDecoder ε β α) (st : Drained ε β α) (chunk : List α) :
    Drained ε β α :=
  match st.buffer with
  | .error _ => st
  | .ok xs => (D.drain (xs ++ chunk)).prepend st.items

variable {D : IncrementalDecoder ε β α} {xs rest : List α} {b : β} {e : ε}

lemma drain_of_item (h : D.decode xs = .item b rest) :
    D.drain xs = (D.drain rest).prepend [b] := by
  rw [drain]
  split <;> simp_all

lemma drain_of_more (h : D.decode xs = .more) : D.drain xs = ⟨[], .ok xs⟩ := by
  rw [drain]
  split <;> simp_all

lemma drain_of_failed (h : D.decode xs = .failed e) : D.drain xs = ⟨[], .error e⟩ := by
  rw [drain]
  split <;> simp_all

/-- Items decoded before do not matter to what a chunk adds. -/
lemma feed_prepend (items : List β) (st : Drained ε β α) (chunk : List α) :
    D.feed (st.prepend items) chunk = (D.feed st chunk).prepend items := by
  obtain ⟨before, buffer⟩ := st
  cases buffer with
  | error e => rfl
  | ok xs => simp [feed, Drained.prepend]

/-- Draining a buffer and its continuation is draining the buffer first. -/
theorem drain_append (xs s : List α) : D.drain (xs ++ s) = D.feed (D.drain xs) s := by
  induction h : xs.length using Nat.strong_induction_on generalizing xs with
  | _ n ih =>
    cases hdec : D.decode xs with
    | item b rest =>
        have hrest := ih rest.length (h ▸ D.shorter hdec) rest rfl
        rw [drain_of_item (D.item_append hdec s), drain_of_item hdec, hrest, feed_prepend]
    | more =>
        rw [drain_of_more hdec]
        rfl
    | failed e => rw [drain_of_failed (D.failed_append hdec s), drain_of_failed hdec, feed]

/-- Draining after every chunk is draining all chunks at once. -/
theorem foldl_feed (chunks : List (List α)) (xs : List α) :
    chunks.foldl D.feed (D.drain xs) = D.drain (xs ++ chunks.flatten) := by
  induction chunks generalizing xs with
  | nil => simp
  | cons chunk chunks ih =>
      calc (chunk :: chunks).foldl D.feed (D.drain xs)
          = chunks.foldl D.feed (D.drain (xs ++ chunk)) := by
            rw [List.foldl_cons, drain_append]
        _ = D.drain (xs ++ (chunk :: chunks).flatten) := by
            rw [ih, List.flatten_cons, List.append_assoc]

/-! ### Whole items -/

/-- The symbols are one item, and nothing is left of them. -/
def Whole (D : IncrementalDecoder ε β α) (xs : List α) (b : β) : Prop := D.decode xs = .item b []

/-- A whole item that is not all there yet. -/
lemma decode_of_strict_prefix {xs whole : List α} (h : D.Whole whole b) (hpre : xs <+: whole)
    (hne : xs ≠ whole) : D.decode xs = .more := by
  obtain ⟨s, rfl⟩ := hpre
  cases hdec : D.decode xs with
  | more => rfl
  | item b' rest =>
      have happ := (D.item_append hdec s).symm.trans h
      have hs : rest ++ s = [] := by injection happ
      rw [(List.append_eq_nil_iff.mp hs).2, List.append_nil] at hne
      exact absurd rfl hne
  | failed e => exact nomatch (D.failed_append hdec s).symm.trans h

/-- Whole items are taken off one by one, and what asks for more is kept. -/
theorem drain_frames (frames : List (List α × β)) (hframes : ∀ x ∈ frames, D.Whole x.1 x.2)
    {tail : List α} (htail : D.decode tail = .more) :
    D.drain ((frames.map Prod.fst).flatten ++ tail) = ⟨frames.map Prod.snd, .ok tail⟩ := by
  induction frames with
  | nil => exact drain_of_more htail
  | cons x frames ih =>
      rw [List.forall_mem_cons] at hframes
      rw [List.map_cons, List.flatten_cons, List.append_assoc,
        drain_of_item (D.item_append hframes.1 _), List.nil_append, ih hframes.2]
      rfl

end IncrementalDecoder

end Fernq
