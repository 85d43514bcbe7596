import Mathlib.Tactic
import Mathlib.Data.List.GetD
import Fernq.Protocol.Framing

/-!
What the checksum of a frame protects against (`decode_basic` of
`fernq-core/src/protocol/decoder.rs`, `NET_CRC` of `fernq-core/src/protocol.rs`).

* `checksumRight_iff_clear`: the checksum of a frame is right when the register, run from the
  version byte to the end of the frame, ends at zero.
* `of_accepted_both`: so it does for both of two accepted frames with the same length field.
* `decodeBasic_burst`: a frame that is accepted is refused after a burst of at most 16 bits
  outside its length field.
-/

namespace Fernq

variable {F F' : List UInt8}

/-- The polynomial of the checksum has a constant term. -/
lemma netCrc_poly_low : (0x1021 : BitVec 16).getLsbD 0 = true := by decide

/-- Two bytes fill the register with the number they spell. -/
lemma topBits_pair (x y : UInt8) :
    (topBits (bitsOf [x, y]) : BitVec 16) = BitVec.ofNat 16 (beDecode [x, y]) := by
  have hnum : BitVec.ofNat 16 (beDecode [x, y]) = x.toBitVec ++ y.toBitVec := by
    apply BitVec.eq_of_toNat_eq
    have hx := x.toNat_lt
    have hy := y.toNat_lt
    rw [BitVec.toNat_append, ← Nat.shiftLeft_add_eq_or_of_lt y.toBitVec.isLt, Nat.shiftLeft_eq]
    simp [beDecode]
    omega
  rw [hnum]
  refine BitVec.eq_of_getMsbD_eq fun i hi => ?_
  have hbits : bitsOf [x, y] = byteBits x ++ byteBits y := by simp [bitsOf]
  rw [getMsbD_topBits, BitVec.getMsbD_append, hbits]
  by_cases h : i < 8
  · rw [List.getD_append _ _ _ _ (by simpa using h), getD_byteBits]
    simp [h, hi]
  · rw [List.getD_append_right _ _ _ _ (by simpa using h), getD_byteBits]
    simp [h, hi]

/-- The checksum of bytes and the two bytes after it is zero exactly when they spell it. -/
lemma crc16_append_pair (bytes : List UInt8) (x y : UInt8) :
    crcBits (0x1021 : BitVec 16) 0 (bitsOf (bytes ++ [x, y])) = 0 ↔
      netCrc bytes = BitVec.ofNat 16 (beDecode [x, y]) := by
  rw [bitsOf_append, crcBits_append, crcBits_eq_zero_iff netCrc_poly_low (by simp), topBits_pair,
    ← crc16_eq]
  rfl

/-- The checksum of a frame is right when the register ends clear. -/
lemma checksumRight_iff_clear (hlen : 11 ≤ F.length) :
    ChecksumRight F ↔ crcBits (0x1021 : BitVec 16) 0 (bitsOf (F.drop 4)) = 0 := by
  obtain ⟨x, y, hxy⟩ : ∃ x y, F.drop (F.length - 2) = [x, y] :=
    List.length_eq_two.mp (by rw [List.length_drop]; omega)
  have hsplit : F.drop 4 = checkedBytes F ++ [x, y] := by
    calc F.drop 4 = (F.drop 4).take (F.length - 2 - 4) ++ (F.drop 4).drop (F.length - 2 - 4) :=
          (List.take_append_drop ..).symm
      _ = checkedBytes F ++ [x, y] := by
          rw [List.drop_drop, Nat.add_sub_cancel' (by omega), hxy]
          rfl
  rw [hsplit, crc16_append_pair, ← hxy]
  rfl

variable {t : MessageType} {f : MessageFlags}

/-- The length field is as it was. -/
def SameField (F F' : List UInt8) : Prop := ∀ i, 7 ≤ i → i ≤ 10 → F'[i]? = F[i]?

lemma announcedLen_of_sameField (h : SameField F F') : announcedLen F' = announcedLen F := by
  have hbytes : (F'.drop 7).take 4 = (F.drop 7).take 4 := by
    refine List.ext_getElem? fun i => ?_
    simp only [List.getElem?_take, List.getElem?_drop]
    split
    · exact h (7 + i) (by omega) (by omega)
    · rfl
  rw [announcedLen, announcedLen, hbytes]

/-- What is known of a frame of the same length and with the same length field that is accepted
too. -/
lemma of_accepted_both (hF : decodeBasic F = .ok (t, f, F, [])) (hlen : F'.length = F.length)
    (hfield : SameField F F') {v : MessageType × MessageFlags × List UInt8 × List UInt8}
    (hF' : decodeBasic F' = .ok v) :
    F'.take 4 = F.take 4 ∧ crcBits (0x1021 : BitVec 16) 0 (bitsOf (F'.drop 4))
      = crcBits (0x1021 : BitVec 16) 0 (bitsOf (F.drop 4)) := by
  obtain ⟨t', f', cur, rest⟩ := v
  obtain ⟨⟨magic, hmagic⟩, hcheck⟩ := checks_of_decodeBasic hF
  obtain ⟨⟨magic', hmagic'⟩, hcheck'⟩ := checks_of_decodeBasic hF'
  have hFlen := length_of_decodeBasic hF
  have hcur : cur = F' := by
    have happ := append_of_decodeBasic hF'
    have hcurlen := length_of_decodeBasic hF'
    rw [announcedLen_of_sameField hfield, ← hFlen, ← hlen] at hcurlen
    rw [← happ, List.length_append] at hcurlen
    rw [← happ, List.eq_nil_of_length_eq_zero (by omega : rest.length = 0), List.append_nil]
  subst hcur
  refine ⟨(eq_of_validateMagic hmagic').trans (eq_of_validateMagic hmagic).symm, ?_⟩
  have hclear := (checksumRight_iff_clear (by omega)).mp (checkFrame_eq_ok_iff.mp hcheck).1
  have hclear' := (checksumRight_iff_clear (by omega)).mp (checkFrame_eq_ok_iff.mp hcheck').1
  rw [hclear, hclear']

/-- A frame that `decode_basic` accepts as a whole, of whatever length, is refused after a burst:
some bits differ, all within 16 consecutive bits and none of them in the length field. -/
theorem decodeBasic_burst (start : ℕ) (hF : decodeBasic F = .ok (t, f, F, []))
    (hlen : F'.length = F.length) (hne : F' ≠ F)
    (hburst : ∀ j : ℕ, (bitsOf F')[j]? ≠ (bitsOf F)[j]? → start ≤ j ∧ j < start + 16)
    (hfield : ∀ i, 7 ≤ i → i ≤ 10 → F'[i]? = F[i]?) :
    ∃ e, decodeBasic F' = .err e := by
  cases hdec : decodeBasic F' with
  | err e => exact ⟨e, rfl⟩
  | panicked => exact absurd hdec (decodeBasic_ne_panicked F')
  | ok v =>
      -- then both registers end at zero, and the bytes after the magic differ by a burst
      exfalso
      obtain ⟨hmagics, hcrc⟩ := of_accepted_both hF hlen hfield hdec
      have htail : F'.drop 4 ≠ F.drop 4 := by
        intro htail
        apply hne
        rw [← List.take_append_drop 4 F', ← List.take_append_drop 4 F, hmagics, htail]
      have hwindow : ∀ i : ℕ, (bitsOf (F'.drop 4))[i]? ≠ (bitsOf (F.drop 4))[i]? →
          start - 32 ≤ i ∧ i < start - 32 + 16 := by
        intro i hi
        rw [bitsOf_drop, bitsOf_drop, List.getElem?_drop, List.getElem?_drop] at hi
        have := hburst _ hi
        omega
      refine crcBits_ne_of_burst (r := 0) netCrc_poly_low ?_ (bitsOf_injective.ne htail) hwindow
        hcrc
      rw [bitsOf_length, bitsOf_length, List.length_drop, List.length_drop, hlen]

/-- A pong frame in which the first two bits of the flags are turned over. -/
theorem decodeBasic_burst_pong : ∃ e, decodeBasic (pongFrame.set 6 0x20) = .err e := by
  have hbits : ∀ j < 104, (bitsOf (pongFrame.set 6 0x20))[j]? ≠ (bitsOf pongFrame)[j]? →
      48 ≤ j ∧ j < 48 + 16 := by decide +kernel
  have hlen : (pongFrame.set 6 0x20).length = pongFrame.length := List.length_set
  have hfield : ∀ i, 7 ≤ i → i ≤ 10 → (pongFrame.set 6 0x20)[i]? = pongFrame[i]? := by
    intro i hi _
    rw [List.getElem?_set_ne (by omega)]
  refine decodeBasic_burst (t := .pong) (f := .new true true true) 48 (by decide +kernel) hlen
    (by decide +kernel) (fun j hj => ?_) hfield
  by_cases h : j < 104
  · exact hbits j h hj
  · have hend : (bitsOf pongFrame).length = 104 := by decide +kernel
    have hend' : (bitsOf (pongFrame.set 6 0x20)).length = 104 := by
      rw [bitsOf_length, hlen, ← bitsOf_length, hend]
    rw [List.getElem?_eq_none (by omega), List.getElem?_eq_none (by omega)] at hj
    exact absurd rfl hj

end Fernq
