import Mathlib.Tactic
import Fernq.Base.CrcDistance
import Fernq.Protocol.Burst

/-!
Which corrupted frames the checksum lets through (`decode_basic` of
`fernq-core/src/protocol/decoder.rs`, `NET_CRC` of `fernq-core/src/protocol.rs`).

* `netCrc_period`: the period of the polynomial is 32767 bits.
* `decodeBasic_odd_flips`: an odd number of wrong bits is found in a frame of any length.
* `decodeBasic_two_flips`: two wrong bits are found exactly when their distance is no multiple of
  32767 bits, which is less than the longest frame.
* `decodeBasic_three_flips`: up to three wrong bits are found in a frame of at most 4099 bytes.
-/

namespace Fernq

variable {F F' : List UInt8}

/-! ### The polynomial -/

lemma netCrc_poly_odd : registerParity (0x1021 : BitVec 16) = true := by decide

/-- A single bit after `n` bit steps of the checksum. -/
def steps (n : ℕ) : BitVec 16 := (crcShift 0x1021)^[n] 1

lemma steps_add {m n k : ℕ} {a b c : BitVec 16} (hm : steps m = a) (hn : steps n = b)
    (hk : m + n = k) (hc : crcMul 0x1021 a b = c) : steps k = c := by
  rw [← hc, ← hm, ← hn, ← hk]
  exact crcShift_iterate_add m n

lemma steps_217 : steps 217 = 18659 := by decide +kernel

/-- The products by which the bit is carried on, from 151 steps to 32767. -/
lemma crcMul_table : steps 151 = 61448 ∧ crcMul (0x1021 : BitVec 16) 61448 61448 = 61706 ∧
    crcMul (0x1021 : BitVec 16) 61706 61706 = 57647 ∧
    crcMul (0x1021 : BitVec 16) 57647 61706 = 38110 ∧
    crcMul (0x1021 : BitVec 16) 38110 61448 = 62127 ∧
    crcMul (0x1021 : BitVec 16) 62127 62127 = 62875 ∧
    crcMul (0x1021 : BitVec 16) 62875 62875 = 45599 ∧
    crcMul (0x1021 : BitVec 16) 45599 61706 = 41532 ∧
    crcMul (0x1021 : BitVec 16) 41532 61448 = 11330 ∧
    crcMul (0x1021 : BitVec 16) 11330 11330 = 34357 ∧
    crcMul (0x1021 : BitVec 16) 34357 34357 = 23144 ∧
    crcMul (0x1021 : BitVec 16) 23144 34357 = 30251 ∧
    crcMul (0x1021 : BitVec 16) 30251 11330 = 1 := by decide +kernel

/-- Seven times 151 steps, 31 times 151, and both: the bit is back. -/
lemma steps_chain : steps 1057 = 62127 ∧ steps 4681 = 11330 ∧ steps 32767 = 1 := by
  obtain ⟨h151, m302, m604, m906, m1057, m2114, m4228, m4530, m4681, m9362, m18724, m28086,
    m32767⟩ := crcMul_table
  have h302 : steps 302 = 61706 := steps_add h151 h151 rfl m302
  have h604 : steps 604 = 57647 := steps_add h302 h302 rfl m604
  have h906 : steps 906 = 38110 := steps_add h604 h302 rfl m906
  have h1057 : steps 1057 = 62127 := steps_add h906 h151 rfl m1057
  have h2114 : steps 2114 = 62875 := steps_add h1057 h1057 rfl m2114
  have h4228 : steps 4228 = 45599 := steps_add h2114 h2114 rfl m4228
  have h4530 : steps 4530 = 41532 := steps_add h4228 h302 rfl m4530
  have h4681 : steps 4681 = 11330 := steps_add h4530 h151 rfl m4681
  have h9362 : steps 9362 = 34357 := steps_add h4681 h4681 rfl m9362
  have h18724 : steps 18724 = 23144 := steps_add h9362 h9362 rfl m18724
  have h28086 : steps 28086 = 30251 := steps_add h18724 h9362 rfl m28086
  exact ⟨h1057, h4681, steps_add h28086 h4681 rfl m32767⟩

/-- The period of the polynomial. -/
theorem netCrc_period : crcPeriod (0x1021 : BitVec 16) = 32767 := by
  refine crcPeriod_eq steps_chain.2.2 fun p hp hdvd hback => ?_
  have hfactors : p ∣ 7 * (31 * 151) := hdvd
  have h7 : Nat.Prime 7 := by norm_num
  have h31 : Nat.Prime 31 := by norm_num
  have h151 : Nat.Prime 151 := by norm_num
  rw [hp.dvd_mul, hp.dvd_mul, Nat.prime_dvd_prime_iff_eq hp h7, Nat.prime_dvd_prime_iff_eq hp h31,
    Nat.prime_dvd_prime_iff_eq hp h151] at hfactors
  rcases hfactors with rfl | rfl | rfl
  · have hone : steps 4681 = 1 := hback
    rw [steps_chain.2.1] at hone
    exact absurd hone (by decide)
  · have hone : steps 1057 = 1 := hback
    rw [steps_chain.1] at hone
    exact absurd hone (by decide)
  · have hone : steps 217 = 1 := hback
    rw [steps_217] at hone
    exact absurd hone (by decide)

/-! ### Corrupted frames -/

variable {t : MessageType} {f : MessageFlags}

/-- A frame with the same fixed header is accepted too when the register ends clear. -/
lemma accepted_iff_of_head (hF : decodeBasic F = .ok (t, f, F, [])) (hlen : F'.length = F.length)
    (hhead : F'.take 11 = F.take 11) :
    decodeBasic F' = .ok (t, f, F', []) ↔
      crcBits (0x1021 : BitVec 16) 0 (bitsOf (F'.drop 4)) = 0 := by
  obtain ⟨⟨magic, hmagic⟩, hcheck⟩ := checks_of_decodeBasic hF
  have hFlen := length_of_decodeBasic hF
  have hann : announcedLen F' = announcedLen F := by
    rw [← List.take_append_drop 11 F', ← List.take_append_drop 11 F,
      announcedLen_append (by rw [List.length_take]; omega),
      announcedLen_append (by rw [List.length_take]; omega), hhead]
  have hmagics : F'.take 4 = F.take 4 := by
    calc F'.take 4 = (F'.take 11).take 4 := by rw [List.take_take]; rfl
      _ = F.take 4 := by rw [hhead, List.take_take]; rfl
  have hkind : checkKind F' = .ok (t, f) := by
    rw [← (checkFrame_eq_ok_iff.mp hcheck).2, ← List.take_append_drop 11 F',
      ← List.take_append_drop 11 F, checkKind_append (by rw [List.length_take]; omega),
      checkKind_append (by rw [List.length_take]; omega), hhead]
  rw [← checksumRight_iff_clear (by omega)]
  constructor
  · intro hF'
    exact (checkFrame_eq_ok_iff.mp (checks_of_decodeBasic hF').2).1
  · intro hright
    have hcheck' : checkFrame F' = .ok (t, f) := checkFrame_eq_ok_iff.mpr ⟨hright, hkind⟩
    have htake : F'.take (11 + announcedLen F') = F' := List.take_of_length_le (by omega)
    have hdrop : F'.drop (11 + announcedLen F') = [] := List.drop_of_length_le (by omega)
    have hto := DecodesTo.frame (b := F') magic t f (by omega) (hmagics ▸ hmagic)
      (by rw [htake]; exact hcheck')
    rw [htake, hdrop] at hto
    exact hto.eq

/-- Bytes of which no bit differs. -/
lemma take_eq_of_bits {n : ℕ} (h : ∀ k < 8 * n, (bitsOf F')[k]? = (bitsOf F)[k]?) :
    F'.take n = F.take n := by
  refine bitsOf_injective (List.ext_getElem? fun k => ?_)
  rw [bitsOf_take, bitsOf_take, List.getElem?_take, List.getElem?_take]
  split_ifs with hk
  · exact h k hk
  · rfl

/-- The bits of a frame whose magic is as it was. -/
lemma flips_drop_magic (h : F'.take 4 = F.take 4) :
    flips (bitsOf F') (bitsOf F) = flips (bitsOf (F'.drop 4)) (bitsOf (F.drop 4)) := by
  calc flips (bitsOf F') (bitsOf F)
      = flips (bitsOf (F.take 4) ++ bitsOf (F'.drop 4))
          (bitsOf (F.take 4) ++ bitsOf (F.drop 4)) := by
        rw [← bitsOf_append, ← bitsOf_append, ← h, List.take_append_drop, h, List.take_append_drop]
    _ = flips (bitsOf (F'.drop 4)) (bitsOf (F.drop 4)) := flips_append ..

lemma length_bitsOf_drop (hlen : F'.length = F.length) :
    (bitsOf (F'.drop 4)).length = (bitsOf (F.drop 4)).length := by
  rw [bitsOf_length, bitsOf_length, List.length_drop, List.length_drop, hlen]

/-- The flags are not in the length field. -/
lemma sameField_set_flags (b : UInt8) : SameField pongFrame (pongFrame.set 6 b) :=
  fun _ _ _ => List.getElem?_set_ne (by omega)

/-- A frame that is accepted, of whatever length, is refused once an odd number of its bits are
wrong, none of them in the length field. -/
theorem decodeBasic_odd_flips (hF : decodeBasic F = .ok (t, f, F, []))
    (hlen : F'.length = F.length) (hodd : Odd (flips (bitsOf F') (bitsOf F)))
    (hfield : SameField F F') : ∃ e, decodeBasic F' = .err e := by
  cases hdec : decodeBasic F' with
  | err e => exact ⟨e, rfl⟩
  | panicked => exact absurd hdec (decodeBasic_ne_panicked F')
  | ok v =>
      obtain ⟨hmagic, hcrc⟩ := of_accepted_both hF hlen hfield hdec
      rw [flips_drop_magic hmagic] at hodd
      exact absurd hcrc
        (crcBits_ne_of_odd (by decide) netCrc_poly_odd (length_bitsOf_drop hlen) hodd)

/-- Pong frames with wrong bits: one or two in the flags, the last two in the checksum. -/
lemma flips_pongFrame :
    decodeBasic pongFrame = .ok (.pong, .new true true true, pongFrame, []) ∧
    flips (bitsOf (pongFrame.set 6 0x60)) (bitsOf pongFrame) = 1 ∧
    flips (bitsOf (pongFrame.set 6 0x20)) (bitsOf pongFrame) = 2 ∧
    pongFrame.length = 13 ∧
    ∀ k < 104, (bitsOf (pongFrame.set 12 (pongFrame.getD 12 0 ^^^ 3)))[k]?
      ≠ (bitsOf pongFrame)[k]? ↔ k = 102 ∨ k = 103 := by decide +kernel

/-- A pong frame with one wrong bit in its flags. -/
theorem decodeBasic_odd_flips_pong : ∃ e, decodeBasic (pongFrame.set 6 0x60) = .err e :=
  decodeBasic_odd_flips flips_pongFrame.1 List.length_set
    (by rw [flips_pongFrame.2.1]; exact odd_one) (sameField_set_flags 0x60)

/-- Two wrong bits outside the length field are found unless their distance is a multiple of 32767
bits; behind the fixed header they are found exactly then. -/
theorem decodeBasic_two_flips {i j : ℕ} (hF : decodeBasic F = .ok (t, f, F, []))
    (hlen : F'.length = F.length) (hij : i < j)
    (hpair : ∀ k : ℕ, (bitsOf F')[k]? ≠ (bitsOf F)[k]? ↔ k = i ∨ k = j)
    (hfield : SameField F F') :
    ((∃ v, decodeBasic F' = .ok v) → 32767 ∣ j - i) ∧
      (88 ≤ i → (decodeBasic F' = .ok (t, f, F', []) ↔ 32767 ∣ j - i)) := by
  -- behind the magic, the two bits are at `i - 32` and `j - 32`
  have hback : 32 ≤ i → (crcBits (0x1021 : BitVec 16) 0 (bitsOf (F'.drop 4))
      = crcBits (0x1021 : BitVec 16) 0 (bitsOf (F.drop 4)) ↔ 32767 ∣ j - i) := by
    intro hi
    have hpair' : ∀ k : ℕ, (bitsOf (F'.drop 4))[k]? ≠ (bitsOf (F.drop 4))[k]?
        ↔ k = i - 32 ∨ k = j - 32 := by
      intro k
      rw [bitsOf_drop, bitsOf_drop, List.getElem?_drop, List.getElem?_drop, hpair]
      omega
    rw [crcBits_eq_iff_of_pair netCrc_poly_low (length_bitsOf_drop hlen) (by omega) hpair',
      netCrc_period, show j - 32 - (i - 32) = j - i from by omega]
  refine ⟨fun ⟨v, hv⟩ => ?_, fun hi => ⟨fun hok => ?_, fun hdvd => ?_⟩⟩
  · obtain ⟨hmagic, hcrc⟩ := of_accepted_both hF hlen hfield hv
    refine (hback ?_).mp hcrc
    by_contra hlt
    -- a wrong bit in the magic
    have hbits : (bitsOf (F'.take 4))[i]? = (bitsOf (F.take 4))[i]? := by rw [hmagic]
    rw [bitsOf_take, bitsOf_take, List.getElem?_take, List.getElem?_take, if_pos (by omega),
      if_pos (by omega)] at hbits
    exact (hpair i).mpr (.inl rfl) hbits
  · exact (hback (by omega)).mp (of_accepted_both hF hlen hfield hok).2
  · have hhead : F'.take 11 = F.take 11 := by
      refine take_eq_of_bits fun k hk => ?_
      by_contra hne
      rcases (hpair k).mp hne with rfl | rfl <;> omega
    have hFlen := length_of_decodeBasic hF
    rw [accepted_iff_of_head hF hlen hhead, (hback (by omega)).mpr hdvd]
    exact (checksumRight_iff_clear (by omega)).mp
      (checkFrame_eq_ok_iff.mp (checks_of_decodeBasic hF).2).1

/-- A pong frame with two wrong bits in its checksum. -/
theorem decodeBasic_two_flips_pong :
    ((∃ v, decodeBasic (pongFrame.set 12 (pongFrame.getD 12 0 ^^^ 3)) = .ok v) →
        32767 ∣ 103 - 102) ∧
      (88 ≤ 102 → (decodeBasic (pongFrame.set 12 (pongFrame.getD 12 0 ^^^ 3))
        = .ok (.pong, .new true true true, pongFrame.set 12 (pongFrame.getD 12 0 ^^^ 3), [])
          ↔ 32767 ∣ 103 - 102)) := by
  obtain ⟨haccepted, -, -, hlen, hbits⟩ := flips_pongFrame
  refine decodeBasic_two_flips haccepted List.length_set (by decide)
    (fun k => ?_) (fun _ _ _ => List.getElem?_set_ne (by omega))
  rcases lt_or_ge k 104 with hk | hk
  · exact hbits k hk
  · rw [List.getElem?_eq_none (by rw [bitsOf_length, List.length_set]; omega),
      List.getElem?_eq_none (by rw [bitsOf_length]; omega)]
    simp
    omega

/-- Up to three wrong bits in a frame of at most 4099 bytes, none of them in the length field, are
found. -/
theorem decodeBasic_three_flips (hF : decodeBasic F = .ok (t, f, F, []))
    (hlen : F'.length = F.length) (hshort : F.length ≤ 4099)
    (hpos : 0 < flips (bitsOf F') (bitsOf F)) (hle : flips (bitsOf F') (bitsOf F) ≤ 3)
    (hfield : SameField F F') : ∃ e, decodeBasic F' = .err e := by
  cases hdec : decodeBasic F' with
  | err e => exact ⟨e, rfl⟩
  | panicked => exact absurd hdec (decodeBasic_ne_panicked F')
  | ok v =>
      obtain ⟨hmagic, hcrc⟩ := of_accepted_both hF hlen hfield hdec
      rw [flips_drop_magic hmagic] at hpos hle
      have hperiod : (bitsOf (F'.drop 4)).length ≤ crcPeriod (0x1021 : BitVec 16) := by
        rw [netCrc_period, bitsOf_length, List.length_drop]
        omega
      exact absurd hcrc (crcBits_ne_of_flips_le_three netCrc_poly_low netCrc_poly_odd
        (length_bitsOf_drop hlen) hperiod hpos hle)

/-- A pong frame with two wrong bits in its flags. -/
theorem decodeBasic_three_flips_pong : ∃ e, decodeBasic (pongFrame.set 6 0x20) = .err e :=
  decodeBasic_three_flips flips_pongFrame.1 List.length_set (by rw [flips_pongFrame.2.2.2.1]; omega)
    (by rw [flips_pongFrame.2.2.1]; omega) (by rw [flips_pongFrame.2.2.1]; omega)
    (sameField_set_flags 0x20)

end Fernq
