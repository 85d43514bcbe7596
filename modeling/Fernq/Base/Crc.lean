import Mathlib.Tactic

/-!
Cyclic redundancy checks, most significant bit first and without reflection: the
register is shifted one bit at a time and reduced by the polynomial.

* `crcShift`: one bit step of a register of any width.
* `crcByte`, `crc16`: a byte and a byte string through a register of 16 bits.
* `crcBits`: a bit string through a register of any width, linear in register and bits
  (`crcBits_xor`); `crc16_eq` says that `crc16` is the bit string of its bytes.
* `crcBits_eq_zero_iff`: bits that fill the register bring it to zero exactly when they are
  the register.
* `crcBits_burst_ne_zero`: a burst no longer than the register leaves it nonzero, so bit strings
  that differ by one leave different registers (`crcBits_ne_of_burst`).
-/

namespace Fernq

/-- One bit step: shift left, and subtract the polynomial when a bit falls out. -/
def crcShift {w : ℕ} (poly r : BitVec w) : BitVec w :=
  if r.msb then (r <<< 1) ^^^ poly else r <<< 1

/-- One byte through a register of 16 bits: the byte enters at the top and eight bit
steps follow. -/
def crcByte (poly r : BitVec 16) (b : UInt8) : BitVec 16 :=
  (crcShift poly)^[8] (r ^^^ (b.toBitVec.setWidth 16 <<< 8))

/-- The checksum of a byte string, from the register value `init` and with no final
exclusive or. -/
def crc16 (poly init : BitVec 16) (bytes : List UInt8) : BitVec 16 :=
  bytes.foldl (crcByte poly) init

/-! ### The bit step is linear and one-to-one -/

section Shift

variable {w : ℕ} (poly : BitVec w)

lemma crcShift_zero : crcShift poly 0 = 0 := by
  simp [crcShift]

lemma crcShift_xor (a b : BitVec w) :
    crcShift poly (a ^^^ b) = crcShift poly a ^^^ crcShift poly b := by
  have hcancel : ∀ x y : BitVec w, x ^^^ y = (x ^^^ poly) ^^^ (y ^^^ poly) := by
    intro x y
    calc x ^^^ y = x ^^^ y ^^^ (poly ^^^ poly) := by rw [BitVec.xor_self, BitVec.xor_zero]
      _ = (x ^^^ poly) ^^^ (y ^^^ poly) := by ac_rfl
  unfold crcShift
  rw [BitVec.msb_xor, BitVec.shiftLeft_xor_distrib]
  cases a.msb with
  | false =>
      cases b.msb with
      | false => rfl
      | true => exact BitVec.xor_assoc ..
  | true =>
      cases b.msb with
      | false => simp only [Bool.true_xor, Bool.not_false, if_true, Bool.false_eq_true, if_false]
                 ac_rfl
      | true => exact hcancel ..

lemma crcShift_iterate_zero (n : ℕ) : (crcShift poly)^[n] 0 = 0 := by
  induction n with
  | zero => rfl
  | succ n ih => rw [Function.iterate_succ_apply, crcShift_zero, ih]

variable {poly}

/-- A polynomial with a constant term makes the bit step one-to-one: what falls out at the top shows
up at the bottom. -/
lemma crcShift_eq_zero_iff (hpoly : poly.getLsbD 0 = true) {r : BitVec w} :
    crcShift poly r = 0 ↔ r = 0 := by
  constructor
  · intro h
    have hw : 0 < w := BitVec.lt_of_getLsbD hpoly
    unfold crcShift at h
    cases hmsb : r.msb with
    | true =>
        have hlow := congrArg (BitVec.getLsbD · 0) h
        simp [hmsb, hpoly] at hlow
    | false =>
        rw [hmsb, if_neg Bool.false_ne_true] at h
        refine BitVec.eq_of_getMsbD_eq fun i hi => ?_
        cases i with
        | zero =>
            rw [← BitVec.msb_eq_getMsbD_zero, hmsb]
            simp
        | succ i =>
            have hi' := congrArg (BitVec.getMsbD · i) h
            simp only [BitVec.getMsbD_shiftLeft, BitVec.ofNat_eq_ofNat, BitVec.getMsbD_zero] at hi'
            simpa [Nat.add_comm] using hi'
  · rintro rfl
    exact crcShift_zero poly

lemma crcShift_iterate_eq_zero_iff (hpoly : poly.getLsbD 0 = true) (n : ℕ) {r : BitVec w} :
    (crcShift poly)^[n] r = 0 ↔ r = 0 := by
  induction n generalizing r with
  | zero => rfl
  | succ n ih => rw [Function.iterate_succ_apply, ih, crcShift_eq_zero_iff hpoly]

end Shift

/-! ### Bit strings -/

section Bits

variable {w : ℕ}

/-- A register filled with bits from the top. -/
def topBits : List Bool → BitVec w
  | [] => 0
  | b :: bs => (if b then BitVec.twoPow w (w - 1) else 0) ^^^ (topBits bs >>> 1)

/-- A bit string through a register: each bit enters at the top, and a bit step follows. -/
def crcBits (poly r : BitVec w) (bits : List Bool) : BitVec w :=
  bits.foldl (fun r b => crcShift poly (r ^^^ topBits [b])) r

lemma getMsbD_topBits (bits : List Bool) (i : ℕ) :
    (topBits bits : BitVec w).getMsbD i = (decide (i < w) && bits.getD i false) := by
  induction bits generalizing i with
  | nil => simp [topBits]
  | cons b bs ih =>
      rw [topBits, BitVec.getMsbD_xor, BitVec.getMsbD_ushiftRight, ih]
      cases i with
      | zero =>
          cases b with
          | false => simp
          | true =>
              rw [if_pos rfl, BitVec.getMsbD_twoPow]
              simp
              omega
      | succ i =>
          have hout : (if b then BitVec.twoPow w (w - 1) else 0).getMsbD (i + 1) = false := by
            cases b with
            | false => simp
            | true =>
                rw [if_pos rfl, BitVec.getMsbD_twoPow]
                simp
                omega
          rw [hout]
          by_cases h : i + 1 < w
          · simp [h, show i < w from by omega]
          · simp [h]

variable (poly r s : BitVec w)

lemma crcBits_append (xs ys : List Bool) :
    crcBits poly r (xs ++ ys) = crcBits poly (crcBits poly r xs) ys :=
  List.foldl_append ..

/-- Bits that fit into the register can enter all at once. -/
lemma crcBits_eq_iterate {bits : List Bool} (h : bits.length ≤ w) :
    crcBits poly r bits = (crcShift poly)^[bits.length] (r ^^^ topBits bits) := by
  induction bits generalizing r with
  | nil => simp [crcBits, topBits]
  | cons b bs ih =>
      rw [List.length_cons] at h
      -- shifted down by one and up again: the bits of `bs` do not reach the last place
      have hback : crcShift poly (topBits bs >>> 1) = topBits bs := by
        have hmsb : (topBits bs >>> 1 : BitVec w).msb = false := by
          simp [BitVec.msb_ushiftRight]
        rw [crcShift, hmsb, if_neg Bool.false_ne_true]
        refine BitVec.eq_of_getMsbD_eq fun i hi => ?_
        rw [BitVec.getMsbD_shiftLeft, BitVec.getMsbD_ushiftRight, getMsbD_topBits,
          getMsbD_topBits]
        by_cases hlast : i + 1 < w
        · simp [hlast]
        · have hend : bs[i]? = none := List.getElem?_eq_none (by omega)
          simp [hlast, hend]
      have hone : topBits (b :: bs) = (topBits [b] ^^^ topBits bs >>> 1 : BitVec w) := by
        simp [topBits]
      calc crcBits poly r (b :: bs)
          = crcBits poly (crcShift poly (r ^^^ topBits [b])) bs := rfl
        _ = (crcShift poly)^[bs.length] (crcShift poly (r ^^^ topBits [b]) ^^^ topBits bs) :=
          ih _ (by omega)
        _ = (crcShift poly)^[bs.length] (crcShift poly (r ^^^ topBits (b :: bs))) := by
          rw [hone, ← BitVec.xor_assoc, crcShift_xor poly (r ^^^ topBits [b]), hback]
        _ = (crcShift poly)^[(b :: bs).length] (r ^^^ topBits (b :: bs)) := by
          rw [List.length_cons, Function.iterate_succ_apply]

lemma topBits_xor (a b : Bool) : (topBits [xor a b] : BitVec w) = topBits [a] ^^^ topBits [b] := by
  cases a <;> cases b <;> simp [topBits]

/-- Registers and bits are added place by place. -/
theorem crcBits_xor {xs ys : List Bool} (h : xs.length = ys.length) :
    crcBits poly (r ^^^ s) (List.zipWith xor xs ys) = crcBits poly r xs ^^^ crcBits poly s ys := by
  induction xs generalizing r s ys with
  | nil =>
      rw [List.length_nil] at h
      rw [List.eq_nil_of_length_eq_zero h.symm]
      rfl
  | cons x xs ih =>
      cases ys with
      | nil => cases h
      | cons y ys =>
          have hstep : crcShift poly (r ^^^ s ^^^ topBits [xor x y])
              = crcShift poly (r ^^^ topBits [x]) ^^^ crcShift poly (s ^^^ topBits [y]) := by
            rw [topBits_xor, ← crcShift_xor]
            congr 1
            ac_rfl
          show crcBits poly (crcShift poly (r ^^^ s ^^^ topBits [xor x y])) (List.zipWith xor xs ys)
            = _
          rw [hstep, ih _ _ (Nat.succ.inj h)]
          rfl

/-- Clear bits are bit steps. -/
lemma crcBits_replicate_false (n : ℕ) :
    crcBits poly r (List.replicate n false) = (crcShift poly)^[n] r := by
  induction n generalizing r with
  | zero => rfl
  | succ n ih =>
      show crcBits poly (crcShift poly (r ^^^ topBits [false])) (List.replicate n false) = _
      rw [ih, Function.iterate_succ_apply]
      simp [topBits]

variable {poly r}

/-- Bits that fit into the register bring it to zero exactly when they are its top bits. -/
theorem crcBits_eq_zero_iff (hpoly : poly.getLsbD 0 = true) {bits : List Bool}
    (h : bits.length ≤ w) : crcBits poly r bits = 0 ↔ r = topBits bits := by
  rw [crcBits_eq_iterate poly r h, crcShift_iterate_eq_zero_iff hpoly]
  exact BitVec.xor_eq_zero_iff

lemma eq_replicate_false {bits : List Bool} (h : ∀ i : ℕ, bits[i]? ≠ some true) :
    bits = List.replicate bits.length false := by
  refine List.eq_replicate_iff.mpr ⟨rfl, fun b hb => ?_⟩
  obtain ⟨i, hi⟩ := List.mem_iff_getElem?.mp hb
  cases b with
  | false => rfl
  | true => exact absurd hi (h i)

/-- A register that starts clear is not clear after a burst: bits of which some are set, all inside
a window of the register's width. -/
theorem crcBits_burst_ne_zero (hpoly : poly.getLsbD 0 = true) {bits : List Bool} {start : ℕ}
    (hset : ∃ i : ℕ, bits[i]? = some true)
    (hwindow : ∀ i : ℕ, bits[i]? = some true → start ≤ i ∧ i < start + w) :
    crcBits poly 0 bits ≠ 0 := by
  intro h
  have hbefore : bits.take start = List.replicate _ false := eq_replicate_false (by grind)
  have hafter : (bits.drop start).drop w = List.replicate _ false := eq_replicate_false (by grind)
  have hsplit :
    bits = bits.take start ++ ((bits.drop start).take w ++ (bits.drop start).drop w) := by
    rw [List.take_append_drop, List.take_append_drop]
  have hclear : crcBits poly 0 (bits.take start) = 0 := by
    rw [hbefore, crcBits_replicate_false, crcShift_iterate_zero]
  -- neither the clear bits after the window nor those before it change whether the register is zero
  rw [hsplit, crcBits_append, crcBits_append, hclear, hafter, crcBits_replicate_false,
    crcShift_iterate_eq_zero_iff hpoly, crcBits_eq_zero_iff hpoly (List.length_take_le ..)] at h
  obtain ⟨i, hi⟩ := hset
  obtain ⟨hlo, hhi⟩ := hwindow i hi
  have hbit := congrArg (BitVec.getMsbD · (i - start)) h
  simp only [getMsbD_topBits, BitVec.ofNat_eq_ofNat, BitVec.getMsbD_zero] at hbit
  grind

/-- Bit strings of one length that differ, all differences inside a window of the register's width,
leave different registers. -/
theorem crcBits_ne_of_burst (hpoly : poly.getLsbD 0 = true) {xs ys : List Bool} {start : ℕ}
    (hlen : xs.length = ys.length) (hne : xs ≠ ys)
    (hwindow : ∀ i : ℕ, xs[i]? ≠ ys[i]? → start ≤ i ∧ i < start + w) :
    crcBits poly r xs ≠ crcBits poly r ys := by
  intro h
  have hdiff : ∀ i : ℕ, (List.zipWith xor xs ys)[i]? = some true ↔ xs[i]? ≠ ys[i]? := by
    intro i
    rw [List.getElem?_zipWith]
    by_cases hi : i < xs.length
    · rw [List.getElem?_eq_getElem hi, List.getElem?_eq_getElem (hlen ▸ hi)]
      simp
    · rw [List.getElem?_eq_none (by omega), List.getElem?_eq_none (by omega)]
      simp
  have hset : ∃ i : ℕ, (List.zipWith xor xs ys)[i]? = some true := by
    by_contra hnone
    push Not at hnone
    exact hne (List.ext_getElem? fun i => not_not.mp fun hi => hnone i ((hdiff i).mpr hi))
  have hburst := crcBits_burst_ne_zero hpoly hset fun i hi => hwindow i ((hdiff i).mp hi)
  apply hburst
  calc crcBits poly 0 (List.zipWith xor xs ys)
      = crcBits poly (r ^^^ r) (List.zipWith xor xs ys) := by rw [BitVec.xor_self]; rfl
    _ = crcBits poly r xs ^^^ crcBits poly r ys := crcBits_xor poly r r hlen
    _ = 0 := by rw [h, BitVec.xor_self]; rfl

end Bits

/-! ### Byte strings -/

/-- The bits of a byte, most significant first. -/
def byteBits (b : UInt8) : List Bool := List.ofFn fun k : Fin 8 => b.toBitVec.getMsbD k

/-- The bits of a byte string: bit `i` of byte `n` from the top is bit `8 * n + i`. -/
def bitsOf (bytes : List UInt8) : List Bool := bytes.flatMap byteBits

@[simp] lemma byteBits_length (b : UInt8) : (byteBits b).length = 8 := List.length_ofFn ..

lemma getD_byteBits (b : UInt8) (i : ℕ) : (byteBits b).getD i false = b.toBitVec.getMsbD i := by
  by_cases h : i < 8
  · simp only [byteBits, List.getD_eq_getElem?_getD, List.getElem?_ofFn, dif_pos h,
      Option.getD_some]
  · simp only [byteBits, List.getD_eq_getElem?_getD, List.getElem?_ofFn, dif_neg h,
      Option.getD_none]
    rw [BitVec.getMsbD_of_ge _ _ (by omega)]

lemma byteBits_injective : Function.Injective byteBits := by
  intro a b h
  refine UInt8.toBitVec_inj.mp (BitVec.eq_of_getMsbD_eq fun i hi => ?_)
  exact congrFun (List.ofFn_injective h) ⟨i, hi⟩

@[simp] lemma bitsOf_cons (b : UInt8) (bytes : List UInt8) :
    bitsOf (b :: bytes) = byteBits b ++ bitsOf bytes := rfl

@[simp] lemma bitsOf_append (xs ys : List UInt8) : bitsOf (xs ++ ys) = bitsOf xs ++ bitsOf ys :=
  List.flatMap_append ..

@[simp] lemma bitsOf_length (bytes : List UInt8) : (bitsOf bytes).length = 8 * bytes.length := by
  induction bytes with
  | nil => rfl
  | cons b bytes ih =>
      rw [bitsOf_cons, List.length_append, byteBits_length, ih, List.length_cons]
      ring

lemma bitsOf_injective : Function.Injective bitsOf := by
  intro xs
  induction xs with
  | nil =>
      intro ys h
      have hlen := congrArg List.length h
      cases ys with
      | nil => rfl
      | cons y ys =>
          rw [bitsOf_length, bitsOf_length, List.length_cons] at hlen
          simp at hlen
  | cons x xs ih =>
      intro ys h
      cases ys with
      | nil =>
          have hlen := congrArg List.length h
          rw [bitsOf_length, bitsOf_length, List.length_cons] at hlen
          simp at hlen
      | cons y ys =>
          obtain ⟨hhead, htail⟩ := List.append_inj h (by simp)
          rw [byteBits_injective hhead, ih htail]

lemma bitsOf_drop (bytes : List UInt8) (n : ℕ) :
    bitsOf (bytes.drop n) = (bitsOf bytes).drop (8 * n) := by
  induction n generalizing bytes with
  | zero => rfl
  | succ n ih =>
      cases bytes with
      | nil => rfl
      | cons b bytes =>
          rw [List.drop_succ_cons, ih, bitsOf_cons, Nat.mul_succ, Nat.add_comm, ← List.drop_drop,
            List.drop_left' (byteBits_length b)]

lemma bitsOf_take (bytes : List UInt8) (n : ℕ) :
    bitsOf (bytes.take n) = (bitsOf bytes).take (8 * n) := by
  induction n generalizing bytes with
  | zero => rfl
  | succ n ih =>
      cases bytes with
      | nil => rfl
      | cons b bytes =>
          have hbyte : (byteBits b).take (8 + 8 * n) = byteBits b :=
            List.take_of_length_le (by rw [byteBits_length]; omega)
          rw [List.take_succ_cons, bitsOf_cons, ih, bitsOf_cons, Nat.mul_succ, Nat.add_comm,
            List.take_append, hbyte, byteBits_length, Nat.add_sub_cancel_left]

/-- A byte enters the register bit by bit. -/
lemma crcByte_eq (poly r : BitVec 16) (b : UInt8) :
    crcByte poly r b = crcBits poly r (byteBits b) := by
  have htop : b.toBitVec.setWidth 16 <<< 8 = topBits (byteBits b) := by
    refine BitVec.eq_of_getMsbD_eq fun i hi => ?_
    rw [getMsbD_topBits, getD_byteBits, BitVec.getMsbD_shiftLeft, BitVec.getMsbD_setWidth]
    simp [hi]
  rw [crcBits_eq_iterate poly r (by simp), crcByte, htop, byteBits_length]

lemma crc16_eq (poly r : BitVec 16) (bytes : List UInt8) :
    crc16 poly r bytes = crcBits poly r (bitsOf bytes) := by
  induction bytes generalizing r with
  | nil => rfl
  | cons b bytes ih =>
      rw [bitsOf_cons, crcBits_append, ← crcByte_eq, ← ih]
      rfl

end Fernq
