import Mathlib.Tactic
import Fernq.Base.Outcome

/-!
Bytes: big-endian numbers and UTF-8 text, as lists of bytes.

* `beEncode n v`, `beDecode bs`: the `n` big-endian bytes of a number and the number
  that bytes spell; `beDecode_beEncode` and `beEncode_beDecode` are the two inverses.
* `readBe16`, `readBe32`: a big-endian number read byte by byte at an offset;
  `readBe16_eq`, `readBe32_eq` give the value in bounds, and
  `readBe16_eq_panicked_iff`, `readBe32_eq_panicked_iff` say when a byte is missing, and
  `drop_of_readBe32` what a number that was read says about the bytes.
* `utf8Bytes`, `fromUtf8`: the bytes of a string, and the string that bytes encode
  when they are valid UTF-8 (`fromUtf8_eq_some_iff`).
-/

namespace Fernq

/-! ### Big-endian numbers -/

/-- The low `n` bytes of `v`, most significant first. -/
def beEncode : ℕ → ℕ → List UInt8
  | 0, _ => []
  | n + 1, v => UInt8.ofNat (v / 256 ^ n) :: beEncode n v

/-- The number that bytes spell, most significant first. -/
def beDecode : List UInt8 → ℕ
  | [] => 0
  | b :: bs => b.toNat * 256 ^ bs.length + beDecode bs

@[simp] lemma beEncode_length (n v : ℕ) : (beEncode n v).length = n := by
  induction n with
  | zero => rfl
  | succ n ih => rw [beEncode, List.length_cons, ih]

lemma beDecode_lt (bs : List UInt8) : beDecode bs < 256 ^ bs.length := by
  induction bs with
  | nil => simp [beDecode]
  | cons b bs ih =>
      have hb : b.toNat < 256 := b.toNat_lt
      have h1 : (b.toNat + 1) * 256 ^ bs.length ≤ 256 * 256 ^ bs.length :=
        Nat.mul_le_mul_right _ hb
      rw [beDecode, List.length_cons, pow_succ]
      linarith

/-- Reading back what was written gives the number, up to the width. -/
lemma beDecode_beEncode (n v : ℕ) : beDecode (beEncode n v) = v % 256 ^ n := by
  induction n with
  | zero => simp [beEncode, beDecode, Nat.mod_one]
  | succ n ih =>
      have hb : (UInt8.ofNat (v / 256 ^ n)).toNat = v / 256 ^ n % 256 := by simp
      rw [beEncode, beDecode, ih, beEncode_length, hb, pow_succ, Nat.mod_mul]
      ring

lemma beDecode_beEncode_of_lt {n v : ℕ} (h : v < 256 ^ n) : beDecode (beEncode n v) = v := by
  rw [beDecode_beEncode, Nat.mod_eq_of_lt h]

lemma beEncode_add_mul (n v k : ℕ) : beEncode n (k * 256 ^ n + v) = beEncode n v := by
  induction n generalizing k with
  | zero => rfl
  | succ n ih =>
      have hp : k * 256 ^ (n + 1) + v = k * 256 * 256 ^ n + v := by ring
      rw [beEncode, beEncode, hp, ih]
      congr 1
      rw [Nat.add_comm, Nat.add_mul_div_right _ _ (by positivity)]
      apply UInt8.toNat_inj.mp
      simp

/-- Writing what was read gives the bytes back: the encoding of a number at a given
width is unique. -/
lemma beEncode_beDecode (bs : List UInt8) : beEncode bs.length (beDecode bs) = bs := by
  induction bs with
  | nil => rfl
  | cons b bs ih =>
      have hlt := beDecode_lt bs
      rw [List.length_cons, beEncode, beDecode, beEncode_add_mul, ih]
      congr 1
      rw [Nat.add_comm, Nat.add_mul_div_right _ _ (by positivity), Nat.div_eq_of_lt hlt]
      simp

/-! ### Reading a number at an offset -/

section Read

variable {ε : Type}

/-- `u16::from_be_bytes([bytes[o], bytes[o + 1]])`. -/
def readBe16 (bytes : List UInt8) (o : ℕ) : Outcome ε ℕ := do
  let b0 ← index bytes o
  let b1 ← index bytes (o + 1)
  return beDecode [b0, b1]

/-- `u32::from_be_bytes([bytes[o], bytes[o + 1], bytes[o + 2], bytes[o + 3]])`. -/
def readBe32 (bytes : List UInt8) (o : ℕ) : Outcome ε ℕ := do
  let b0 ← index bytes o
  let b1 ← index bytes (o + 1)
  let b2 ← index bytes (o + 2)
  let b3 ← index bytes (o + 3)
  return beDecode [b0, b1, b2, b3]

lemma readBe16_eq {bytes : List UInt8} {o : ℕ} (h : o + 2 ≤ bytes.length) :
    (readBe16 bytes o : Outcome ε ℕ) = .ok (beDecode ((bytes.drop o).take 2)) := by
  rw [readBe16, index_of_lt (by omega), Outcome.ok_bind, index_of_lt (by omega),
    Outcome.ok_bind, List.drop_eq_getElem_cons (by omega), List.drop_eq_getElem_cons (by omega)]
  rfl

lemma readBe32_eq {bytes : List UInt8} {o : ℕ} (h : o + 4 ≤ bytes.length) :
    (readBe32 bytes o : Outcome ε ℕ) = .ok (beDecode ((bytes.drop o).take 4)) := by
  rw [readBe32, index_of_lt (by omega), Outcome.ok_bind, index_of_lt (by omega),
    Outcome.ok_bind, index_of_lt (by omega), Outcome.ok_bind, index_of_lt (by omega),
    Outcome.ok_bind, List.drop_eq_getElem_cons (by omega), List.drop_eq_getElem_cons (by omega),
    List.drop_eq_getElem_cons (by omega), List.drop_eq_getElem_cons (by omega)]
  rfl

lemma readBe16_eq_panicked_iff {bytes : List UInt8} {o : ℕ} :
    (readBe16 bytes o : Outcome ε ℕ) = .panicked ↔ bytes.length < o + 2 := by
  constructor
  · intro h
    by_contra hle
    rw [readBe16_eq (by omega)] at h
    cases h
  · intro h
    by_cases h0 : o < bytes.length
    · rw [readBe16, index_of_lt h0, Outcome.ok_bind, index_of_le (by omega)]
      rfl
    · rw [readBe16, index_of_le (by omega)]
      rfl

lemma readBe32_eq_panicked_iff {bytes : List UInt8} {o : ℕ} :
    (readBe32 bytes o : Outcome ε ℕ) = .panicked ↔ bytes.length < o + 4 := by
  constructor
  · intro h
    by_contra hle
    rw [readBe32_eq (by omega)] at h
    cases h
  · intro h
    have hlast : (index bytes (o + 3) : Outcome ε UInt8) = .panicked := index_of_le (by omega)
    simp only [readBe32, hlast, Outcome.bind_eq_panicked, Outcome.panicked_bind]
    by_cases h0 : o < bytes.length
    · by_cases h1 : o + 1 < bytes.length
      · by_cases h2 : o + 2 < bytes.length
        · simp [index_of_lt h0, index_of_lt h1, index_of_lt h2]
        · simp [index_of_lt h0, index_of_lt h1, index_of_le (not_lt.mp h2)]
      · simp [index_of_lt h0, index_of_le (not_lt.mp h1)]
    · simp [index_of_le (not_lt.mp h0)]

lemma readBe32_ne_err {bytes : List UInt8} {o : ℕ} {e : ε} : readBe32 bytes o ≠ .err e := by
  simp [readBe32, Outcome.bind_eq_err, index_ne_err]

/-- A number written after a prefix is read back. -/
lemma readBe16_append {p s : List UInt8} {o v : ℕ} (ho : p.length = o) (hv : v < 256 ^ 2) :
    (readBe16 (p ++ (beEncode 2 v ++ s)) o : Outcome ε ℕ) = .ok v := by
  subst ho
  rw [readBe16_eq (by simp), List.drop_left, List.take_left' (beEncode_length 2 v),
    beDecode_beEncode_of_lt hv]

/-- A number written after a prefix is read back. -/
lemma readBe32_append {p s : List UInt8} {o v : ℕ} (ho : p.length = o) (hv : v < 256 ^ 4) :
    (readBe32 (p ++ (beEncode 4 v ++ s)) o : Outcome ε ℕ) = .ok v := by
  subst ho
  rw [readBe32_eq (by simp), List.drop_left, List.take_left' (beEncode_length 4 v),
    beDecode_beEncode_of_lt hv]

/-- What is left at an offset, cut once more. -/
lemma drop_eq_append_drop (bytes : List UInt8) (o n : ℕ) :
    bytes.drop o = (bytes.drop o).take n ++ bytes.drop (o + n) := by
  rw [← List.drop_drop, List.take_append_drop]

/-- A part of the right length is the encoding of the number it spells. -/
lemma drop_eq_beEncode_append {bytes : List UInt8} {o n : ℕ} (h : o + n ≤ bytes.length) :
    bytes.drop o = beEncode n (beDecode ((bytes.drop o).take n)) ++ bytes.drop (o + n) := by
  have hlen : ((bytes.drop o).take n).length = n := by
    rw [List.length_take, List.length_drop]
    omega
  calc bytes.drop o = (bytes.drop o).take n ++ bytes.drop (o + n) := drop_eq_append_drop ..
    _ = beEncode n (beDecode ((bytes.drop o).take n)) ++ bytes.drop (o + n) := by
        conv_lhs => rw [← beEncode_beDecode ((bytes.drop o).take n), hlen]

/-- A number that was read is written at the offset, and fits its four bytes. -/
lemma drop_of_readBe32 {bytes : List UInt8} {o v : ℕ}
    (h : (readBe32 bytes o : Outcome ε ℕ) = .ok v) :
    o + 4 ≤ bytes.length ∧ v < 2 ^ 32 ∧ bytes.drop o = beEncode 4 v ++ bytes.drop (o + 4) := by
  have hle : o + 4 ≤ bytes.length := by
    by_contra hlt
    rw [readBe32_eq_panicked_iff.mpr (by omega)] at h
    cases h
  rw [readBe32_eq hle, Outcome.ok.injEq] at h
  refine ⟨hle, ?_, ?_⟩
  · have hlt := beDecode_lt ((bytes.drop o).take 4)
    have hlen : ((bytes.drop o).take 4).length = 4 := by
      rw [List.length_take, List.length_drop]
      omega
    rw [h, hlen] at hlt
    exact hlt.trans_eq (by norm_num)
  · rw [← h]
    exact drop_eq_beEncode_append hle

end Read

/-! ### UTF-8 text -/

/-- The UTF-8 bytes of a string. -/
def utf8Bytes (s : String) : List UInt8 := s.toByteArray.data.toList

/-- The string that bytes encode, when they are valid UTF-8. -/
def fromUtf8 (bs : List UInt8) : Option String := String.fromUTF8? ⟨bs.toArray⟩

@[simp] lemma utf8Bytes_length (s : String) : (utf8Bytes s).length = s.utf8ByteSize := rfl

lemma utf8ByteSize_replicate (c : Char) (n : ℕ) :
    (String.ofList (List.replicate n c)).utf8ByteSize = n * c.utf8Size := by
  induction n with
  | zero => simp
  | succ n ih =>
      rw [List.replicate_succ, String.ofList_cons, String.utf8ByteSize_append,
        String.utf8ByteSize_singleton, ih, Nat.succ_mul, Nat.add_comm]

/-- Bytes decode to a string exactly when they are its encoding. -/
lemma fromUtf8_eq_some_iff {bs : List UInt8} {s : String} :
    fromUtf8 bs = some s ↔ utf8Bytes s = bs := by
  unfold fromUtf8 String.fromUTF8?
  constructor
  · intro h
    split at h
    · rw [← Option.some.inj h]; simp [utf8Bytes, String.fromUTF8]
    · cases h
  · rintro rfl
    have hv : (⟨(utf8Bytes s).toArray⟩ : ByteArray) = s.toByteArray := by
      simp [utf8Bytes]
    rw [dif_pos (hv ▸ s.isValidUTF8)]
    congr 1

@[simp] lemma fromUtf8_utf8Bytes (s : String) : fromUtf8 (utf8Bytes s) = some s :=
  fromUtf8_eq_some_iff.mpr rfl

end Fernq
