import Mathlib.Tactic

/-!
Putting a text together from pieces that come with their offsets.

* `Piece.write`: a piece is copied into a buffer; `assemble` copies pieces one after the other.
* `getElem?_assemble`: pieces of one text leave that text wherever one of them reaches, and the
  buffer elsewhere, in whatever order and however often they come.
* `assemble_eq`: pieces that reach everywhere leave the text.
-/

namespace Fernq

variable {α : Type}

/-- A piece of a text, with the place where it begins. -/
structure Piece (α : Type) where
  offset : ℕ
  content : List α

namespace Piece

/-- The place lies in the piece. -/
def Covers (p : Piece α) (i : ℕ) : Prop := p.offset ≤ i ∧ i < p.offset + p.content.length

instance (p : Piece α) (i : ℕ) : Decidable (p.Covers i) := inferInstanceAs (Decidable (_ ∧ _))

/-- The piece is what the text has there. -/
def Of (p : Piece α) (text : List α) : Prop := p.content <+: text.drop p.offset

/-- The piece copied into a buffer. -/
def write (buffer : List α) (p : Piece α) : List α :=
  buffer.take p.offset ++ (p.content ++ buffer.drop (p.offset + p.content.length))

variable {p : Piece α} {text buffer : List α} {i : ℕ}

lemma Of.le (h : p.Of text) (hne : p.content ≠ []) : p.offset + p.content.length ≤ text.length := by
  have hlen := h.length_le
  have hpos := List.length_pos_iff.mpr hne
  rw [List.length_drop] at hlen
  omega

lemma Of.getElem? (h : p.Of text) (hi : p.Covers i) : text[i]? = p.content[i - p.offset]? := by
  obtain ⟨rest, hrest⟩ := h
  obtain ⟨hlo, hhi⟩ := hi
  calc text[i]? = (text.drop p.offset)[i - p.offset]? := by
        rw [List.getElem?_drop, Nat.add_sub_cancel' hlo]
    _ = p.content[i - p.offset]? := by
        rw [← hrest, List.getElem?_append_left (by omega)]

lemma length_write (h : p.offset + p.content.length ≤ buffer.length) :
    (write buffer p).length = buffer.length := by
  simp only [write, List.length_append, List.length_take, List.length_drop]
  omega

lemma getElem?_write (h : p.offset + p.content.length ≤ buffer.length) :
    (write buffer p)[i]? = if p.Covers i then p.content[i - p.offset]? else buffer[i]? := by
  have htake : (buffer.take p.offset).length = p.offset := List.length_take_of_le (by omega)
  rw [write, List.getElem?_append, htake]
  split_ifs with hlo hcovers hcovers
  · exact absurd hcovers.1 (by omega)
  · rw [List.getElem?_take, if_pos hlo]
  · rw [List.getElem?_append_left (by have := hcovers.2; omega)]
  · have hhi : p.offset + p.content.length ≤ i := by
      by_contra hlt
      exact hcovers ⟨by omega, by omega⟩
    rw [List.getElem?_append_right (by omega), List.getElem?_drop]
    congr 1
    omega

end Piece

open Piece

/-- Pieces copied into a buffer one after the other. -/
def assemble (buffer : List α) (pieces : List (Piece α)) : List α := pieces.foldl write buffer

section Assemble

variable {text buffer : List α} {pieces : List (Piece α)}

lemma assemble_append (buffer : List α) (pieces pieces' : List (Piece α)) :
    assemble buffer (pieces ++ pieces') = assemble (assemble buffer pieces) pieces' :=
  List.foldl_append ..

/-- An empty piece leaves the buffer. -/
lemma write_of_nil {p : Piece α} (h : p.content = []) : write buffer p = buffer := by
  rw [write, h, List.nil_append, List.length_nil, Nat.add_zero, List.take_append_drop]

lemma length_assemble (hlen : buffer.length = text.length) (hof : ∀ p ∈ pieces, p.Of text) :
    (assemble buffer pieces).length = text.length := by
  induction pieces generalizing buffer with
  | nil => exact hlen
  | cons p pieces ih =>
      rw [List.forall_mem_cons] at hof
      refine ih ?_ hof.2
      by_cases hne : p.content = []
      · rw [write_of_nil hne, hlen]
      · rw [length_write (hlen ▸ hof.1.le hne), hlen]

open Classical in
/-- Where a piece reaches there is the text, and elsewhere what was in the buffer. -/
theorem getElem?_assemble (hlen : buffer.length = text.length) (hof : ∀ p ∈ pieces, p.Of text)
    (i : ℕ) :
    (assemble buffer pieces)[i]? = if ∃ p ∈ pieces, p.Covers i then text[i]? else buffer[i]? := by
  -- on the pieces from the end: the last one decides where it reaches
  induction pieces using List.reverseRecOn with
  | nil => simp [assemble]
  | append_singleton pieces p ih =>
      have hof' : ∀ q ∈ pieces, q.Of text := fun q hq => hof q (List.mem_append_left _ hq)
      have hp : p.Of text := hof p (by simp)
      rw [assemble_append, assemble, List.foldl_cons, List.foldl_nil]
      have hbefore := ih hof'
      by_cases hne : p.content = []
      · have hnot : ¬ p.Covers i := by
          rintro ⟨hlo, hhi⟩
          rw [hne, List.length_nil] at hhi
          omega
        rw [write_of_nil hne, hbefore]
        refine if_congr ?_ rfl rfl
        simp [List.mem_append, or_and_right, exists_or, hnot]
      · rw [getElem?_write (by rw [length_assemble hlen hof']; exact hp.le hne), hbefore]
        by_cases hcovers : p.Covers i
        · rw [if_pos hcovers, if_pos ⟨p, by simp, hcovers⟩, hp.getElem? hcovers]
        · rw [if_neg hcovers]
          refine if_congr ?_ rfl rfl
          simp [List.mem_append, or_and_right, exists_or, hcovers]

/-- Pieces that reach everywhere, in any order and as often as they like, make the text. -/
theorem assemble_eq (hlen : buffer.length = text.length) (hof : ∀ p ∈ pieces, p.Of text)
    (hcovered : ∀ i < text.length, ∃ p ∈ pieces, p.Covers i) : assemble buffer pieces = text := by
  refine List.ext_getElem? fun i => ?_
  rw [getElem?_assemble hlen hof]
  rcases lt_or_ge i text.length with hi | hi
  · rw [if_pos (hcovered i hi)]
  · rw [List.getElem?_eq_none hi, List.getElem?_eq_none (by omega), ite_self]

end Assemble

end Fernq
