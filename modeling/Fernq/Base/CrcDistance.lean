import Mathlib.Tactic
import Mathlib.Dynamics.PeriodicPts.Defs
import Fernq.Base.Crc

/-!
How many bit errors a cyclic redundancy check finds.

* `flips`: the number of places in which two bit strings differ.
* `registerParity_crcBits`: a polynomial with an odd number of terms keeps the parity of what has
  entered the register, so an odd number of errors changes it (`crcBits_ne_of_odd`).
* `crcBits_pair_eq_zero_iff`: two errors cancel exactly when their distance is a multiple of the
  period of the polynomial.
* `crcBits_ne_of_flips_le_three`: up to three errors in a string no longer than the period are
  found.
-/

namespace Fernq

/-! ### Differences -/

/-- The number of places in which two bit strings differ. -/
def flips (xs ys : List Bool) : ℕ := (List.zipWith xor xs ys).count true

lemma getElem?_zipWith_xor {xs ys : List Bool} (hlen : xs.length = ys.length) (i : ℕ) :
    (List.zipWith xor xs ys)[i]? = some true ↔ xs[i]? ≠ ys[i]? := by
  rw [List.getElem?_zipWith]
  by_cases hi : i < xs.length
  · rw [List.getElem?_eq_getElem hi, List.getElem?_eq_getElem (hlen ▸ hi)]
    simp
  · rw [List.getElem?_eq_none (by omega), List.getElem?_eq_none (by omega)]
    simp

/-- What is the same in front does not count. -/
lemma flips_append (before xs ys : List Bool) :
    flips (before ++ xs) (before ++ ys) = flips xs ys := by
  induction before with
  | nil => rfl
  | cons b before ih =>
      rw [flips, List.cons_append, List.cons_append, List.zipWith_cons_cons,
        List.count_cons_of_ne (by simp)]
      exact ih

/-- Registers agree when the difference of what has entered them leaves nothing. -/
lemma crcBits_eq_iff {w : ℕ} {poly r : BitVec w} {xs ys : List Bool}
    (hlen : xs.length = ys.length) :
    crcBits poly r xs = crcBits poly r ys ↔ crcBits poly 0 (List.zipWith xor xs ys) = 0 := by
  have hxor :
      crcBits poly 0 (List.zipWith xor xs ys) = crcBits poly r xs ^^^ crcBits poly r ys := by
    rw [← crcBits_xor poly r r hlen, BitVec.xor_self]
    rfl
  rw [hxor]
  exact BitVec.xor_eq_zero_iff.symm

/-- The first set bit of a string. -/
lemma exists_first_set {bits : List Bool} (h : 0 < bits.count true) :
    ∃ n rest, bits = List.replicate n false ++ true :: rest ∧
      bits.count true = rest.count true + 1 := by
  induction bits with
  | nil => simp at h
  | cons b bits ih =>
      cases b with
      | true => exact ⟨0, bits, rfl, List.count_cons_self⟩
      | false =>
          rw [List.count_cons_of_ne (by decide)] at h ⊢
          obtain ⟨n, rest, rfl, hcount⟩ := ih h
          exact ⟨n + 1, rest, rfl, hcount⟩

lemma eq_replicate_of_count {bits : List Bool} (h : bits.count true = 0) :
    bits = List.replicate bits.length false := by
  refine eq_replicate_false fun i hi => ?_
  exact List.count_eq_zero.mp h (List.mem_of_getElem? hi)

/-! ### Odd numbers of errors -/

/-- Whether the number of set bits is odd. -/
def parity (bits : List Bool) : Bool := bits.foldr xor false

@[simp] lemma parity_nil : parity [] = false := rfl

@[simp] lemma parity_cons (b : Bool) (bits : List Bool) :
    parity (b :: bits) = xor b (parity bits) := rfl

@[simp] lemma parity_append (xs ys : List Bool) :
    parity (xs ++ ys) = xor (parity xs) (parity ys) := by
  induction xs with
  | nil => simp
  | cons x xs ih => rw [List.cons_append, parity_cons, ih, parity_cons, Bool.xor_assoc]

lemma parity_eq_true_iff (bits : List Bool) : parity bits = true ↔ Odd (bits.count true) := by
  induction bits with
  | nil => simp
  | cons b bits ih =>
      cases b with
      | false => rw [parity_cons, Bool.false_xor, ih, List.count_cons_of_ne (by decide)]
      | true =>
          rw [parity_cons, Bool.true_xor, List.count_cons_self, Nat.odd_add_one, ← ih]
          simp

section Parity

variable {w : ℕ} (poly r s : BitVec w)

/-- The bits of a register, from the top. -/
def registerBits : List Bool := List.ofFn fun i : Fin w => r.getMsbD i

/-- Whether the number of set bits of a register is odd. -/
def registerParity : Bool := parity (registerBits r)

lemma getElem?_registerBits (i : ℕ) :
    (registerBits r)[i]? = if i < w then some (r.getMsbD i) else none := by
  rw [registerBits, List.getElem?_ofFn]
  split <;> rfl

lemma registerBits_xor :
    registerBits (r ^^^ s) = List.zipWith xor (registerBits r) (registerBits s) := by
  refine List.ext_getElem? fun i => ?_
  rw [List.getElem?_zipWith, getElem?_registerBits, getElem?_registerBits, getElem?_registerBits]
  by_cases hi : i < w
  · simp [hi]
  · simp [hi]

lemma parity_zipWith_xor {xs ys : List Bool} (hlen : xs.length = ys.length) :
    parity (List.zipWith xor xs ys) = xor (parity xs) (parity ys) := by
  induction xs generalizing ys with
  | nil =>
      rw [List.eq_nil_of_length_eq_zero hlen.symm]
      rfl
  | cons x xs ih =>
      cases ys with
      | nil => cases hlen
      | cons y ys =>
          rw [List.zipWith_cons_cons, parity_cons, ih (Nat.succ.inj hlen), parity_cons, parity_cons,
            Bool.xor_assoc, Bool.xor_assoc, Bool.xor_left_comm y]

lemma registerParity_xor :
    registerParity (r ^^^ s) = xor (registerParity r) (registerParity s) := by
  rw [registerParity, registerBits_xor, parity_zipWith_xor (by simp [registerBits])]
  rfl

/-- A shift loses the top bit. -/
lemma registerParity_shiftLeft : registerParity (r <<< 1) = xor (registerParity r) r.msb := by
  cases w with
  | zero => rw [BitVec.of_length_zero (x := r)]; rfl
  | succ w =>
      have htop : registerBits r = r.msb :: (registerBits r).tail := by
        rw [registerBits, List.ofFn_succ, BitVec.msb_eq_getMsbD_zero]
        rfl
      have hshift : registerBits (r <<< 1) = (registerBits r).tail ++ [false] := by
        refine List.ext_getElem? fun i => ?_
        rw [getElem?_registerBits, BitVec.getMsbD_shiftLeft, List.getElem?_append,
          List.getElem?_tail, getElem?_registerBits, List.length_tail, registerBits,
          List.length_ofFn]
        rcases lt_trichotomy i w with hi | rfl | hi
        · simp [hi, show i < w + 1 from by omega]
        · simp
        · simp [show ¬ i < w + 1 from by omega, show ¬ i < w from by omega,
            show i - w ≠ 0 from by omega]
      calc registerParity (r <<< 1) = parity (registerBits r).tail := by
            rw [registerParity, hshift, parity_append, parity_cons, parity_nil, Bool.xor_false,
              Bool.xor_false]
        _ = xor (parity (r.msb :: (registerBits r).tail)) r.msb := by
            rw [parity_cons, Bool.xor_comm r.msb, Bool.xor_assoc, Bool.xor_self, Bool.xor_false]
        _ = xor (registerParity r) r.msb := by rw [← htop, registerParity]

/-- A bit step keeps the parity when the polynomial has an odd number of terms below the one that is
not written. -/
lemma registerParity_crcShift (hodd : registerParity poly = true) :
    registerParity (crcShift poly r) = registerParity r := by
  unfold crcShift
  cases hmsb : r.msb with
  | true =>
      rw [if_pos rfl, registerParity_xor, registerParity_shiftLeft, hodd, hmsb]
      simp
  | false =>
      rw [if_neg Bool.false_ne_true, registerParity_shiftLeft, hmsb]
      simp

lemma parity_replicate_false (n : ℕ) : parity (List.replicate n false) = false := by
  induction n with
  | zero => rfl
  | succ n ih => rw [List.replicate_succ, parity_cons, ih, Bool.false_xor]

lemma registerParity_topBits (hw : 0 < w) (b : Bool) :
    registerParity (topBits [b] : BitVec w) = b := by
  have hbits : registerBits (topBits [b] : BitVec w) = b :: List.replicate (w - 1) false := by
    refine List.ext_getElem? fun i => ?_
    rw [getElem?_registerBits, getMsbD_topBits]
    cases i with
    | zero => simp [hw]
    | succ i =>
        rw [List.getElem?_cons_succ, List.getElem?_replicate]
        by_cases hi : i + 1 < w
        · simp [hi, show i < w - 1 from by omega]
        · simp [hi, show ¬ i < w - 1 from by omega]
  rw [registerParity, hbits, parity_cons, parity_replicate_false, Bool.xor_false]

/-- The register keeps the parity of what has entered it. -/
theorem registerParity_crcBits (hw : 0 < w) (hodd : registerParity poly = true)
    (bits : List Bool) :
    registerParity (crcBits poly r bits) = xor (registerParity r) (parity bits) := by
  induction bits generalizing r with
  | nil => simp [crcBits]
  | cons b bits ih =>
      calc registerParity (crcBits poly r (b :: bits))
          = xor (registerParity (crcShift poly (r ^^^ topBits [b]))) (parity bits) := ih _
        _ = xor (xor (registerParity r) b) (parity bits) := by
            rw [registerParity_crcShift poly _ hodd, registerParity_xor,
              registerParity_topBits hw]
        _ = xor (registerParity r) (parity (b :: bits)) := by rw [parity_cons, Bool.xor_assoc]

variable {poly r}

/-- An odd number of errors is found. -/
theorem crcBits_ne_of_odd (hw : 0 < w) (hodd : registerParity poly = true) {xs ys : List Bool}
    (hlen : xs.length = ys.length) (hflips : Odd (flips xs ys)) :
    crcBits poly r xs ≠ crcBits poly r ys := by
  intro h
  have hx := registerParity_crcBits poly r hw hodd xs
  rw [h, registerParity_crcBits poly r hw hodd ys] at hx
  have hparity : parity (List.zipWith xor xs ys) = true := (parity_eq_true_iff _).mpr hflips
  rw [parity_zipWith_xor hlen] at hparity
  revert hx hparity
  cases registerParity r <;> cases parity xs <;> cases parity ys <;> decide

end Parity

/-! ### The period of a polynomial -/

section Period

variable {w : ℕ} {poly r : BitVec w}

/-- The number of bit steps after which a single bit is back where it was. -/
noncomputable def crcPeriod (poly : BitVec w) : ℕ := Function.minimalPeriod (crcShift poly) 1

/-- Bits of one register shifted into the multiples of another, from the top. -/
def crcMulBits (poly a : BitVec w) (bits : List Bool) : BitVec w :=
  bits.foldl (fun r b => crcShift poly r ^^^ if b then a else 0) 0

/-- The product of two registers as polynomials. -/
def crcMul (poly a b : BitVec w) : BitVec w := crcMulBits poly a (registerBits b)

lemma crcShift_iterate_xor (n : ℕ) (a b : BitVec w) :
    (crcShift poly)^[n] (a ^^^ b) = (crcShift poly)^[n] a ^^^ (crcShift poly)^[n] b := by
  induction n generalizing a b with
  | zero => rfl
  | succ n ih => simp only [Function.iterate_succ_apply, crcShift_xor, ih]

/-- A product with what has been shifted is the product, shifted. -/
lemma crcMulBits_iterate (n : ℕ) (a : BitVec w) (bits : List Bool) :
    crcMulBits poly ((crcShift poly)^[n] a) bits
      = (crcShift poly)^[n] (crcMulBits poly a bits) := by
  induction bits using List.reverseRecOn with
  | nil => exact (crcShift_iterate_zero poly n).symm
  | append_singleton bits b ih =>
      have hstep : ∀ a, crcMulBits poly a (bits ++ [b])
          = crcShift poly (crcMulBits poly a bits) ^^^ if b then a else 0 := fun a => by
        rw [crcMulBits, List.foldl_append]
        rfl
      have hcomm : crcShift poly ((crcShift poly)^[n] (crcMulBits poly a bits))
          = (crcShift poly)^[n] (crcShift poly (crcMulBits poly a bits)) := by
        rw [← Function.iterate_succ_apply, Function.iterate_succ_apply']
      rw [hstep, hstep, ih, hcomm, crcShift_iterate_xor]
      cases b with
      | true => rfl
      | false =>
          rw [if_neg Bool.false_ne_true, if_neg Bool.false_ne_true]
          exact congrArg _ (crcShift_iterate_zero poly n).symm

/-- Bits enter a clear register from below. -/
lemma crcMulBits_take (b : BitVec w) {k : ℕ} (hk : k ≤ w) :
    crcMulBits poly 1 ((registerBits b).take k) = b >>> (w - k) := by
  induction k with
  | zero =>
      rw [List.take_zero, Nat.sub_zero, BitVec.ushiftRight_eq_zero (le_refl w)]
      rfl
  | succ k ih =>
      have hget : (registerBits b)[k]? = some (b.getMsbD k) := by
        rw [getElem?_registerBits, if_pos (by omega)]
      rw [List.take_add_one, hget, Option.toList_some, crcMulBits, List.foldl_append, ← crcMulBits,
        ih (by omega), List.foldl_cons, List.foldl_nil]
      have hmsb : (b >>> (w - k)).msb = false := by
        rw [BitVec.msb_ushiftRight]
        simp
        omega
      rw [crcShift, hmsb, if_neg Bool.false_ne_true]
      have hbit : ∀ i, (if b.getMsbD k then (1 : BitVec w) else 0).getLsbD i
          = (decide (i = 0) && b.getLsbD (w - (k + 1))) := fun i => by
        rw [BitVec.getMsbD_eq_getLsbD, decide_eq_true (by omega : k < w), Bool.true_and,
          show w - 1 - k = w - (k + 1) from by omega]
        cases b.getLsbD (w - (k + 1)) <;> simp [show 0 < w from by omega]
      refine BitVec.eq_of_getLsbD_eq fun i hi => ?_
      rw [BitVec.getLsbD_xor, hbit, BitVec.getLsbD_shiftLeft, BitVec.getLsbD_ushiftRight,
        BitVec.getLsbD_ushiftRight]
      cases i with
      | zero => simp
      | succ i => simp [hi, show w - k + i = w - (k + 1) + (i + 1) from by omega]

/-- Bit steps from one are multiplied. -/
theorem crcShift_iterate_add (m n : ℕ) :
    (crcShift poly)^[m + n] 1 = crcMul poly ((crcShift poly)^[m] 1) ((crcShift poly)^[n] 1) := by
  have hone : ∀ b : BitVec w, crcMulBits poly 1 (registerBits b) = b := fun b => by
    calc crcMulBits poly 1 (registerBits b)
        = crcMulBits poly 1 ((registerBits b).take w) := by
          rw [List.take_of_length_le (by simp [registerBits])]
      _ = b := by rw [crcMulBits_take b (le_refl w), Nat.sub_self, BitVec.ushiftRight_zero]
  rw [crcMul, crcMulBits_iterate, hone, Function.iterate_add_apply]

/-- A single bit at the top comes from the bottom. -/
lemma topBits_true (hw : 0 < w) : (topBits [true] : BitVec w) = (crcShift poly)^[w - 1] 1 := by
  have hone : ∀ k < w, (crcShift poly)^[k] (1 : BitVec w) = BitVec.twoPow w k := by
    intro k hk
    induction k with
    | zero => rw [Function.iterate_zero_apply, BitVec.twoPow_zero]; rfl
    | succ k ih =>
        rw [Function.iterate_succ_apply', ih (by omega), crcShift, BitVec.msb_twoPow,
          if_neg (by simp; omega), BitVec.twoPow_eq, BitVec.twoPow_eq, BitVec.shiftLeft_add]
  rw [hone _ (by omega)]
  simp [topBits]

/-- The period is `n` when a bit is back after `n` steps, and not after `n / p` steps for a prime
factor `p` of `n`. -/
lemma crcPeriod_eq {n : ℕ}
    (hback : Function.IsPeriodicPt (crcShift poly) n 1)
    (hprime : ∀ p, p.Prime → p ∣ n →
      ¬ Function.IsPeriodicPt (crcShift poly) (n / p) 1) : crcPeriod poly = n := by
  obtain ⟨k, hk⟩ : crcPeriod poly ∣ n := Function.IsPeriodicPt.minimalPeriod_dvd hback
  have hone : k = 1 := by
    by_contra hne
    have hp := Nat.minFac_prime hne
    obtain ⟨m, hm⟩ := Nat.minFac_dvd k
    have hn' : n = k.minFac * (crcPeriod poly * m) := by
      calc n = crcPeriod poly * (k.minFac * m) := by rw [← hm, ← hk]
        _ = k.minFac * (crcPeriod poly * m) := Nat.mul_left_comm ..
    refine hprime _ hp ⟨_, hn'⟩ ?_
    rw [Function.isPeriodicPt_iff_minimalPeriod_dvd, hn', Nat.mul_div_cancel_left _ hp.pos]
    exact ⟨m, rfl⟩
  rw [hk, hone, Nat.mul_one]

/-! ### Two errors -/

/-- What a set bit, `d` clear bits and a set bit leave. -/
lemma crcBits_pair (i d n : ℕ) :
    crcBits poly 0 (List.replicate i false ++
        true :: (List.replicate d false ++ true :: List.replicate n false))
      = (crcShift poly)^[n + 1] ((crcShift poly)^[d + 1] (topBits [true]) ^^^ topBits [true]) := by
  have hset : ∀ (r : BitVec w) (bits : List Bool),
      crcBits poly r (true :: bits) = crcBits poly (crcShift poly (r ^^^ topBits [true])) bits :=
    fun _ _ => rfl
  rw [crcBits_append, crcBits_replicate_false, crcShift_iterate_zero, hset, crcBits_append,
    crcBits_replicate_false, hset, crcBits_replicate_false, ← Function.iterate_succ_apply,
    ← Function.iterate_succ_apply]
  simp

/-- Two errors cancel exactly when their distance is a multiple of the period. -/
theorem crcBits_pair_eq_zero_iff (hpoly : poly.getLsbD 0 = true) (i d n : ℕ) :
    crcBits poly 0 (List.replicate i false ++
        true :: (List.replicate d false ++ true :: List.replicate n false)) = 0
      ↔ crcPeriod poly ∣ d + 1 := by
  have hback : (crcShift poly)^[d + 1] (topBits [true]) ^^^ topBits [true]
      = (crcShift poly)^[w - 1] ((crcShift poly)^[d + 1] 1 ^^^ 1) := by
    rw [topBits_true (BitVec.lt_of_getLsbD hpoly), ← Function.iterate_add_apply, Nat.add_comm,
      Function.iterate_add_apply, crcShift_iterate_xor]
  rw [crcBits_pair, crcShift_iterate_eq_zero_iff hpoly, hback, crcShift_iterate_eq_zero_iff hpoly,
    crcPeriod, ← Function.isPeriodicPt_iff_minimalPeriod_dvd]
  exact BitVec.xor_eq_zero_iff

/-- A string with exactly two set bits. -/
lemma eq_of_two_set {bits : List Bool} {i j : ℕ} (hij : i < j)
    (hset : ∀ k : ℕ, bits[k]? = some true ↔ k = i ∨ k = j) :
    bits = List.replicate i false ++ true :: (List.replicate (j - i - 1) false ++
      true :: List.replicate (bits.length - j - 1) false) := by
  have hj : j < bits.length := (List.getElem?_eq_some_iff.mp ((hset j).mpr (.inr rfl))).1
  refine List.ext_getElem? fun k => ?_
  have hk := hset k
  rcases lt_or_ge k bits.length with hlt | hge
  · rw [List.getElem?_eq_getElem hlt, Option.some.injEq] at hk
    rw [List.getElem?_eq_getElem hlt, List.getElem?_append, List.length_replicate]
    split_ifs with hki
    · rw [List.getElem?_replicate, if_pos hki, Option.some.injEq, ← Bool.not_eq_true, hk]
      omega
    · rw [List.getElem?_cons]
      split_ifs with hzero
      · exact congrArg some (hk.mpr (.inl (by omega)))
      · rw [List.getElem?_append, List.length_replicate]
        split_ifs with hkj
        · rw [List.getElem?_replicate, if_pos hkj, Option.some.injEq, ← Bool.not_eq_true, hk]
          omega
        · rw [List.getElem?_cons]
          split_ifs with hzero'
          · exact congrArg some (hk.mpr (.inr (by omega)))
          · rw [List.getElem?_replicate, if_pos (by omega), Option.some.injEq, ← Bool.not_eq_true,
              hk]
            omega
  · rw [List.getElem?_eq_none hge, List.getElem?_eq_none]
    simp only [List.length_append, List.length_cons, List.length_replicate]
    omega

/-- Strings that differ in two places. -/
theorem crcBits_eq_iff_of_pair (hpoly : poly.getLsbD 0 = true) {xs ys : List Bool}
    (hlen : xs.length = ys.length) {i j : ℕ} (hij : i < j)
    (hpair : ∀ k : ℕ, xs[k]? ≠ ys[k]? ↔ k = i ∨ k = j) :
    crcBits poly r xs = crcBits poly r ys ↔ crcPeriod poly ∣ j - i := by
  have hset : ∀ k : ℕ, (List.zipWith xor xs ys)[k]? = some true ↔ k = i ∨ k = j :=
    fun k => (getElem?_zipWith_xor hlen k).trans (hpair k)
  rw [crcBits_eq_iff hlen, eq_of_two_set hij hset, crcBits_pair_eq_zero_iff hpoly,
    Nat.sub_add_cancel (by omega)]

/-- Up to three errors in strings that are not longer than the period are found. -/
theorem crcBits_ne_of_flips_le_three (hpoly : poly.getLsbD 0 = true)
    (hodd : registerParity poly = true) {xs ys : List Bool} (hlen : xs.length = ys.length)
    (hperiod : xs.length ≤ crcPeriod poly) (hpos : 0 < flips xs ys) (hle : flips xs ys ≤ 3) :
    crcBits poly r xs ≠ crcBits poly r ys := by
  have hw : 0 < w := BitVec.lt_of_getLsbD hpoly
  obtain htwo | hone : flips xs ys = 2 ∨ Odd (flips xs ys) := by
    rw [Nat.odd_iff]
    omega
  · intro h
    rw [crcBits_eq_iff hlen] at h
    have hbits : (List.zipWith xor xs ys).length ≤ crcPeriod poly := by
      rw [List.length_zipWith]
      omega
    unfold flips at htwo
    -- the two set bits, and what is between, before and behind them
    obtain ⟨i, rest, hrest, hcount⟩ := exists_first_set (htwo ▸ Nat.two_pos)
    obtain ⟨d, last, rfl, hcount'⟩ := exists_first_set (by omega : 0 < rest.count true)
    rw [eq_replicate_of_count (by omega : last.count true = 0)] at hrest
    rw [hrest] at hbits
    rw [hrest, crcBits_pair_eq_zero_iff hpoly] at h
    have hd := Nat.le_of_dvd (by omega) h
    simp only [List.length_append, List.length_cons, List.length_replicate] at hbits
    omega
  · exact crcBits_ne_of_odd hw hodd hlen hone

end Period

end Fernq
