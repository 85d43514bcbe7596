import Mathlib.Tactic
import Fernq.Base.Stream
import Fernq.Protocol.Bounds
import Fernq.Protocol.RoundTrip

/-!
What `decode_basic` looks at (`fernq-core/src/protocol/decoder.rs`): the magic, the frame length,
and the bytes of the frame itself.

* `announcedLen`, `checkFrame`: the length a buffer announces, and the checks of a frame that is
  there; `ChecksumRight` is the first of them.
* `DecodesTo`: the ways the decoder returns, in the order of its checks; `decodesTo_decodeBasic`
  says that there are no others.
* `decodeBasic_append_of_ok`, `decodeBasic_append_of_err`, `decodeBasic_append_of_incomplete`: what
  more bytes change.
* `acceptedAs_iff`: a header that decodes and the body it announces are accepted exactly when the
  checksum is right.
* `frameDecoder`: the decoder as an incremental one; `decodeBasic_chunking`: a loop that buffers and
  decodes does not see how the bytes were cut.
-/

namespace Fernq

variable {b s frame : List UInt8}

/-- The frame length a buffer announces. -/
def announcedLen (bytes : List UInt8) : ℕ := beDecode ((bytes.drop 7).take 4)

/-- The checks of the version, the type and the flags of a frame. -/
def checkKind (frame : List UInt8) : Outcome ProtocolError (MessageType × MessageFlags) := do
  let versionByte ← index frame magicLen
  let _version ← validateVersion versionByte
  let typeByte ← index frame (magicLen + versionLen)
  let msgType ← MessageType.tryFrom typeByte
  let flagsByte ← index frame (magicLen + versionLen + typeLen)
  let flags ← MessageFlags.tryFrom flagsByte
  return (msgType, flags)

/-- The bytes a checksum is over, from the version on, and the two bytes that hold it. -/
def checkedBytes (frame : List UInt8) : List UInt8 :=
  (frame.drop magicLen).take (frame.length - 2 - magicLen)

def storedCrc (frame : List UInt8) : BitVec 16 :=
  BitVec.ofNat 16 (beDecode (frame.drop (frame.length - 2)))

/-- The last two bytes of a frame are the checksum of the bytes before them. -/
def ChecksumRight (frame : List UInt8) : Prop := netCrc (checkedBytes frame) = storedCrc frame

instance (frame : List UInt8) : Decidable (ChecksumRight frame) :=
  inferInstanceAs (Decidable (_ = _))

/-- The checks of a frame that is there, after its magic: checksum, version, type and flags. -/
def checkFrame (frame : List UInt8) : Outcome ProtocolError (MessageType × MessageFlags) :=
  if ChecksumRight frame then checkKind frame
  else .err (.crcMismatch (storedCrc frame) (netCrc (checkedBytes frame)))

lemma announcedLen_lt (bytes : List UInt8) : announcedLen bytes < 2 ^ 32 := by
  have hlt := beDecode_lt ((bytes.drop 7).take 4)
  have hlen : ((bytes.drop 7).take 4).length ≤ 4 := List.length_take_le ..
  calc announcedLen bytes < 256 ^ ((bytes.drop 7).take 4).length := hlt
    _ ≤ 256 ^ 4 := Nat.pow_le_pow_right (by decide) hlen
    _ = 2 ^ 32 := by norm_num

/-- The checks look at the front of the bytes alone. -/
lemma checkKind_append (h : 7 ≤ b.length) (s : List UInt8) : checkKind (b ++ s) = checkKind b := by
  rw [checkKind, index_append_left (by simp only [magicLen]; omega),
    index_append_left (by simp only [magicLen, versionLen]; omega),
    index_append_left (by simp only [magicLen, versionLen, typeLen]; omega)]
  rfl

lemma checkKind_ne_panicked (h : 7 ≤ b.length) : checkKind b ≠ .panicked := by
  have h4 : (index b magicLen : Outcome ProtocolError UInt8) = .ok _ :=
    index_of_lt (by simp only [magicLen]; omega)
  have h5 : (index b (magicLen + versionLen) : Outcome ProtocolError UInt8) = .ok _ :=
    index_of_lt (by simp only [magicLen, versionLen]; omega)
  have h6 : (index b (magicLen + versionLen + typeLen) : Outcome ProtocolError UInt8) = .ok _ :=
    index_of_lt (by simp only [magicLen, versionLen, typeLen]; omega)
  simp [checkKind, h4, h5, h6, Outcome.bind_eq_panicked, validateVersion_ne_panicked,
    MessageType.tryFrom_ne_panicked, MessageFlags.tryFrom_ne_panicked]

lemma checkFrame_ne_panicked (h : 11 ≤ frame.length) : checkFrame frame ≠ .panicked := by
  unfold checkFrame
  split
  · exact checkKind_ne_panicked (by omega)
  · simp

lemma checkFrame_eq_ok_iff {v : MessageType × MessageFlags} :
    checkFrame frame = .ok v ↔ ChecksumRight frame ∧ checkKind frame = .ok v := by
  unfold checkFrame
  split
  · rename_i h
    simp [h]
  · rename_i h
    simp [h]

/-! ### The decoder, check by check -/

/-- What the decoder returns for a buffer. -/
inductive DecodesTo (b : List UInt8) :
    Outcome ProtocolError (MessageType × MessageFlags × List UInt8 × List UInt8) → Prop
  | short : b.length < 11 → DecodesTo b (.err (.incompleteFrame 11 b.length "fixed header"))
  | magicErr (e : ProtocolError) : 11 ≤ b.length → validateMagic (b.take 4) = .err e →
      DecodesTo b (.err e)
  | part (magic : ℕ) : 11 ≤ b.length → validateMagic (b.take 4) = .ok magic →
      b.length < 11 + announcedLen b →
      DecodesTo b (.err (.incompleteFrame (11 + announcedLen b) b.length "complete frame"))
  | frameErr (magic : ℕ) (e : ProtocolError) : 11 + announcedLen b ≤ b.length →
      validateMagic (b.take 4) = .ok magic → checkFrame (b.take (11 + announcedLen b)) = .err e →
      DecodesTo b (.err e)
  | frame (magic : ℕ) (t : MessageType) (f : MessageFlags) : 11 + announcedLen b ≤ b.length →
      validateMagic (b.take 4) = .ok magic →
      checkFrame (b.take (11 + announcedLen b)) = .ok (t, f) →
      DecodesTo b
        (.ok (t, f, b.take (11 + announcedLen b), b.drop (11 + announcedLen b)))

/-- The magic is looked at first, and then the frame length. -/
lemma decodeBasic_of_le (h : 11 ≤ b.length) :
    decodeBasic b = do
      let _magic ← validateMagic (b.take 4)
      if b.length < 11 + announcedLen b then
        .err (.incompleteFrame (11 + announcedLen b) b.length "complete frame")
      else do
        let (msgType, flags) ← checkFrame (b.take (11 + announcedLen b))
        return (msgType, flags, b.take (11 + announcedLen b), b.drop (11 + announcedLen b)) := by
  have hfix : fixedHeaderLen = 11 := rfl
  have hlt := announcedLen_lt b
  have hmagic : (slice b 0 magicLen : Outcome ProtocolError (List UInt8)) = .ok (b.take 4) :=
    slice_of_le (Nat.zero_le _) (by simp only [magicLen]; omega)
  have hread : (readBe32 b (magicLen + versionLen + typeLen + flagsLen)
      : Outcome ProtocolError ℕ) = .ok (announcedLen b) :=
    readBe32_eq (by simp only [magicLen, versionLen, typeLen, flagsLen]; omega)
  rw [decodeBasic, hfix, if_neg (by omega), hmagic, Outcome.ok_bind, hread]
  refine bind_congr fun magic => ?_
  rw [Outcome.ok_bind, checkedAdd_of_lt (by omega), Outcome.okOr_some, Outcome.ok_bind]
  by_cases hpart : b.length < 11 + announcedLen b
  · rw [if_pos hpart, if_pos hpart]
  rw [if_neg hpart, if_neg hpart]
  have hcur : (b.take (11 + announcedLen b)).length = 11 + announcedLen b :=
    List.length_take_of_le (by omega)
  have hframe : (slice b 0 (11 + announcedLen b) : Outcome ProtocolError (List UInt8)) =
      .ok (b.take (11 + announcedLen b)) := slice_of_le (Nat.zero_le _) (by omega)
  have hrest : (slice b (11 + announcedLen b) b.length
      : Outcome ProtocolError (List UInt8)) = .ok (b.drop (11 + announcedLen b)) := by
    rw [slice_of_le (by omega) le_rfl, List.take_of_length_le (by simp)]
  set cur := b.take (11 + announcedLen b) with hdef
  have hchecked : (slice cur magicLen (11 + announcedLen b - 2)
      : Outcome ProtocolError (List UInt8)) = .ok (checkedBytes cur) := by
    rw [slice_of_le (by simp only [magicLen]; omega) (by omega), checkedBytes, hcur]
  have hcrc : (readBe16 cur (11 + announcedLen b - 2) : Outcome ProtocolError ℕ) =
      .ok (beDecode (cur.drop (cur.length - 2))) := by
    rw [readBe16_eq (by omega), ← hcur, List.take_of_length_le (by rw [List.length_drop]; omega)]
  have hkind : checkKind b = checkKind cur := by
    calc checkKind b = checkKind (cur ++ b.drop (11 + announcedLen b)) := by
          rw [hdef, List.take_append_drop]
      _ = checkKind cur := checkKind_append (by omega) _
  rw [hframe, Outcome.ok_bind, hrest, Outcome.ok_bind, checkedSub_of_le (by omega),
    Outcome.okOr_some, Outcome.ok_bind, hchecked, Outcome.ok_bind, hcrc, Outcome.ok_bind,
    checkFrame, ← hkind]
  by_cases hright : ChecksumRight cur
  · have hcrc' : ¬ netCrc (checkedBytes cur) ≠
        BitVec.ofNat 16 (beDecode (cur.drop (cur.length - 2))) := not_not.mpr hright
    rw [if_pos hright, if_neg hcrc', checkKind]
    simp only [Outcome.bind_assoc, Outcome.pure_eq, Outcome.ok_bind]
  · have hcrc' : netCrc (checkedBytes cur) ≠
        BitVec.ofNat 16 (beDecode (cur.drop (cur.length - 2))) := hright
    rw [if_neg hright, if_pos hcrc']
    rfl

lemma DecodesTo.eq
    {x : Outcome ProtocolError (MessageType × MessageFlags × List UInt8 × List UInt8)}
    (h : DecodesTo b x) : decodeBasic b = x := by
  cases h with
  | short hshort => exact if_pos hshort
  | magicErr e hlen hmagic => rw [decodeBasic_of_le hlen, hmagic, Outcome.err_bind]
  | part magic hlen hmagic hpart =>
      rw [decodeBasic_of_le hlen, hmagic, Outcome.ok_bind, if_pos hpart]
  | frameErr magic e hlen hmagic hcheck =>
      rw [decodeBasic_of_le (by omega), hmagic, Outcome.ok_bind, if_neg (by omega), hcheck,
        Outcome.err_bind]
  | frame magic t f hlen hmagic hcheck =>
      rw [decodeBasic_of_le (by omega), hmagic, Outcome.ok_bind, if_neg (by omega), hcheck]
      rfl

/-- The decoder returns one of these, and aborts on no buffer. -/
theorem decodesTo_decodeBasic (b : List UInt8) : DecodesTo b (decodeBasic b) := by
  suffices h : ∃ x, DecodesTo b x by
    obtain ⟨x, hx⟩ := h
    rwa [hx.eq]
  by_cases hlen : 11 ≤ b.length
  · cases hmagic : validateMagic (b.take 4) with
    | err e => exact ⟨_, .magicErr e hlen hmagic⟩
    | panicked => exact absurd hmagic validateMagic_ne_panicked
    | ok magic =>
        by_cases hpart : b.length < 11 + announcedLen b
        · exact ⟨_, .part magic hlen hmagic hpart⟩
        · cases hcheck : checkFrame (b.take (11 + announcedLen b)) with
          | ok v => exact ⟨_, .frame magic v.1 v.2 (by omega) hmagic hcheck⟩
          | err e => exact ⟨_, .frameErr magic e (by omega) hmagic hcheck⟩
          | panicked =>
              refine absurd hcheck (checkFrame_ne_panicked ?_)
              rw [List.length_take]
              omega
  · exact ⟨_, .short (by omega)⟩

lemma decodeBasic_ne_panicked (b : List UInt8) : decodeBasic b ≠ .panicked := by
  intro h
  have hd := decodesTo_decodeBasic b
  rw [h] at hd
  cases hd

/-! ### More bytes -/

/-- An error that more bytes may mend. -/
def ProtocolError.isIncomplete : ProtocolError → Bool
  | .incompleteFrame .. => true
  | _ => false

lemma validateMagic_not_incomplete {bytes : List UInt8} {e : ProtocolError}
    (h : validateMagic bytes = .err e) : e.isIncomplete = false := by
  unfold validateMagic at h
  split at h
  · cases h
    rfl
  · rcases Outcome.bind_eq_err.mp h with hread | ⟨magic, -, hmagic⟩
    · exact absurd hread readBe32_ne_err
    · split at hmagic <;> cases hmagic
      rfl

lemma validateVersion_not_incomplete {byte : UInt8} {e : ProtocolError}
    (h : validateVersion byte = .err e) : e.isIncomplete = false := by
  unfold validateVersion at h
  split at h <;> cases h
  rfl

lemma MessageType.tryFrom_not_incomplete {byte : UInt8} {e : ProtocolError}
    (h : MessageType.tryFrom byte = .err e) : e.isIncomplete = false := by
  unfold MessageType.tryFrom at h
  split_ifs at h
  cases h
  rfl

lemma MessageFlags.tryFrom_not_incomplete {byte : UInt8} {e : ProtocolError}
    (h : MessageFlags.tryFrom byte = .err e) : e.isIncomplete = false := by
  unfold MessageFlags.tryFrom at h
  split at h <;> cases h
  rfl

lemma checkKind_not_incomplete {e : ProtocolError} (h : checkKind frame = .err e) :
    e.isIncomplete = false := by
  rw [checkKind] at h
  obtain hindex | ⟨versionByte, -, h⟩ := Outcome.bind_eq_err.mp h
  · exact absurd hindex index_ne_err
  obtain hversion | ⟨_, -, h⟩ := Outcome.bind_eq_err.mp h
  · exact validateVersion_not_incomplete hversion
  obtain hindex | ⟨typeByte, -, h⟩ := Outcome.bind_eq_err.mp h
  · exact absurd hindex index_ne_err
  obtain htype | ⟨_, -, h⟩ := Outcome.bind_eq_err.mp h
  · exact MessageType.tryFrom_not_incomplete htype
  obtain hindex | ⟨flagsByte, -, h⟩ := Outcome.bind_eq_err.mp h
  · exact absurd hindex index_ne_err
  obtain hflags | ⟨_, -, h⟩ := Outcome.bind_eq_err.mp h
  · exact MessageFlags.tryFrom_not_incomplete hflags
  · cases h

/-- Once the frame is there, no check asks for more. -/
lemma checkFrame_not_incomplete {e : ProtocolError} (h : checkFrame frame = .err e) :
    e.isIncomplete = false := by
  unfold checkFrame at h
  split at h
  · exact checkKind_not_incomplete h
  · cases h
    rfl

lemma announcedLen_append (h : 11 ≤ b.length) : announcedLen (b ++ s) = announcedLen b := by
  unfold announcedLen
  rw [List.drop_append_of_le_length (by omega),
    List.take_append_of_le_length (by rw [List.length_drop]; omega)]

/-- The front of a buffer is there whatever follows. -/
lemma take_eq_take_append {n : ℕ} (h : n ≤ b.length) (s : List UInt8) :
    b.take n = (b ++ s).take n :=
  (List.take_append_of_le_length h).symm

/-- A frame that is there stays there, and what follows it grows. -/
theorem decodeBasic_append_of_ok {t : MessageType} {f : MessageFlags} {cur rest : List UInt8}
    (h : decodeBasic b = .ok (t, f, cur, rest)) (s : List UInt8) :
    decodeBasic (b ++ s) = .ok (t, f, cur, rest ++ s) := by
  have hd := decodesTo_decodeBasic b
  rw [h] at hd
  cases hd with
  | frame magic _ _ hlen hmagic hcheck =>
      have hann : announcedLen (b ++ s) = announcedLen b := announcedLen_append (by omega)
      have htake : b.take (11 + announcedLen b) = (b ++ s).take (11 + announcedLen b) :=
        take_eq_take_append hlen s
      have hdrop : (b ++ s).drop (11 + announcedLen b) = b.drop (11 + announcedLen b) ++ s :=
        List.drop_append_of_le_length hlen
      rw [take_eq_take_append (by omega) s] at hmagic
      rw [htake, ← hann] at hcheck
      have hframe := DecodesTo.frame (b := b ++ s) magic t f
        (by rw [hann, List.length_append]; omega) hmagic hcheck
      rw [hann, ← htake, hdrop] at hframe
      exact hframe.eq

/-- The frame and what follows it are the buffer. -/
lemma append_of_decodeBasic {t : MessageType} {f : MessageFlags} {cur rest : List UInt8}
    (h : decodeBasic b = .ok (t, f, cur, rest)) : cur ++ rest = b := by
  have hd := decodesTo_decodeBasic b
  rw [h] at hd
  cases hd with
  | frame magic _ _ hlen hmagic hcheck => exact List.take_append_drop ..

/-- A frame has the length it announces. -/
lemma length_of_decodeBasic {t : MessageType} {f : MessageFlags} {cur rest : List UInt8}
    (h : decodeBasic b = .ok (t, f, cur, rest)) : cur.length = 11 + announcedLen b := by
  have hd := decodesTo_decodeBasic b
  rw [h] at hd
  cases hd with
  | frame magic _ _ hlen hmagic hcheck => exact List.length_take_of_le hlen

/-- A frame that is accepted has passed all checks. -/
lemma checks_of_decodeBasic {t : MessageType} {f : MessageFlags} {cur rest : List UInt8}
    (h : decodeBasic b = .ok (t, f, cur, rest)) :
    (∃ magic, validateMagic (b.take 4) = .ok magic) ∧ checkFrame cur = .ok (t, f) := by
  have hd := decodesTo_decodeBasic b
  rw [h] at hd
  cases hd with
  | frame magic _ _ hlen hmagic hcheck => exact ⟨⟨magic, hmagic⟩, hcheck⟩

/-- A refusal stands. -/
theorem decodeBasic_append_of_err {e : ProtocolError} (h : decodeBasic b = .err e)
    (he : e.isIncomplete = false) (s : List UInt8) : decodeBasic (b ++ s) = .err e := by
  have hd := decodesTo_decodeBasic b
  rw [h] at hd
  cases hd with
  | short hlen => cases he
  | part magic hlen hmagic hpart => cases he
  | magicErr _ hlen hmagic =>
      rw [take_eq_take_append (by omega) s] at hmagic
      exact (DecodesTo.magicErr e (by rw [List.length_append]; omega) hmagic).eq
  | frameErr magic _ hlen hmagic hcheck =>
      have hann : announcedLen (b ++ s) = announcedLen b := announcedLen_append (by omega)
      rw [take_eq_take_append (by omega) s] at hmagic
      rw [take_eq_take_append hlen s, ← hann] at hcheck
      exact (DecodesTo.frameErr magic e (by rw [hann, List.length_append]; omega) hmagic
        hcheck).eq

/-- A buffer that is too short stays too short until it has what was asked for. -/
theorem decodeBasic_append_of_incomplete {r n : ℕ} {c : String}
    (h : decodeBasic b = .err (.incompleteFrame r n c)) :
    b.length < r ∧ ∀ s : List UInt8, (b ++ s).length < r →
      decodeBasic (b ++ s) = .err (.incompleteFrame r (b ++ s).length c) := by
  have hd := decodesTo_decodeBasic b
  rw [h] at hd
  cases hd with
  | short hlen => exact ⟨hlen, fun s hs => (DecodesTo.short hs).eq⟩
  | magicErr _ hlen hmagic => cases validateMagic_not_incomplete hmagic
  | frameErr magic _ hlen hmagic hcheck => cases checkFrame_not_incomplete hcheck
  | part magic hlen hmagic hpart =>
      refine ⟨hpart, fun s hs => ?_⟩
      have hann : announcedLen (b ++ s) = announcedLen b := announcedLen_append hlen
      rw [take_eq_take_append (by omega) s] at hmagic
      have hstill := DecodesTo.part (b := b ++ s) magic (by rw [List.length_append]; omega)
        hmagic (by rw [hann]; exact hs)
      rw [hann] at hstill
      exact hstill.eq

/-! ### The header alone -/

/-- With its magic there, the header is decoded by the checks of a frame and the frame length. -/
lemma decodeHeader_of_magic (h : magicLen ≤ b.length) :
    decodeHeader b = do
      let _magic ← validateMagic (b.take 4)
      let (msgType, flags) ← checkKind b
      let frameLength ← readBe32 b (magicLen + versionLen + typeLen + flagsLen)
      return (msgType, flags, frameLength) := by
  have hmagic : (slice b 0 magicLen : Outcome ProtocolError (List UInt8)) = .ok (b.take 4) :=
    slice_of_le (Nat.zero_le _) h
  rw [decodeHeader, if_neg (not_lt.mpr h), hmagic, Outcome.ok_bind, checkKind]
  simp only [Outcome.bind_assoc, Outcome.pure_eq, Outcome.ok_bind]

/-- The header decoder makes the checks of the whole frame besides the checksum. -/
lemma decodeHeader_of_le (h : 11 ≤ b.length) :
    decodeHeader b = do
      let _magic ← validateMagic (b.take 4)
      let (msgType, flags) ← checkKind b
      return (msgType, flags, announcedLen b) := by
  have hread : (readBe32 b (magicLen + versionLen + typeLen + flagsLen)
      : Outcome ProtocolError ℕ) = .ok (announcedLen b) :=
    readBe32_eq (by simp only [magicLen, versionLen, typeLen, flagsLen]; omega)
  rw [decodeHeader_of_magic (by simp only [magicLen]; omega), hread]
  rfl

/-- `decode_basic` accepts the bytes as one whole frame with this type, flags and frame length. -/
def AcceptedAs (frame : List UInt8) (t : MessageType) (f : MessageFlags) (n : ℕ) : Prop :=
  decodeBasic frame = .ok (t, f, frame, []) ∧ frame.length = fixedHeaderLen + n

/-- A header that decodes, with the body it announces, is a frame that `decode_basic` accepts
exactly when its checksum is right. -/
theorem acceptedAs_iff {header body : List UInt8} {t : MessageType} {f : MessageFlags} {n : ℕ}
    (hlen : header.length = fixedHeaderLen) (hbody : body.length = n)
    (hdec : decodeHeader header = .ok (t, f, n)) :
    AcceptedAs (header ++ body) t f n ↔ ChecksumRight (header ++ body) := by
  have hfix : fixedHeaderLen = 11 := rfl
  rw [decodeHeader_of_le (by omega)] at hdec
  obtain ⟨magic, hmagic, hdec⟩ := Outcome.bind_eq_ok.mp hdec
  obtain ⟨kind, hkind, hdec⟩ := Outcome.bind_eq_ok.mp hdec
  obtain ⟨rfl, rfl, hann⟩ : kind.1 = t ∧ kind.2 = f ∧ announcedLen header = n := by
    simpa using hdec
  have hframe : (header ++ body).length = 11 + announcedLen (header ++ body) := by
    rw [announcedLen_append (by omega), List.length_append]
    omega
  rw [take_eq_take_append (by omega) body] at hmagic
  rw [← checkKind_append (by omega) body] at hkind
  constructor
  · rintro ⟨hok, -⟩
    exact (checkFrame_eq_ok_iff.mp (checks_of_decodeBasic hok).2).1
  · intro hright
    have hcheck := checkFrame_eq_ok_iff.mpr ⟨hright, hkind⟩
    have hd := DecodesTo.frame (b := header ++ body) magic kind.1 kind.2 hframe.ge hmagic
      (by rw [← hframe, List.take_length]; exact hcheck)
    rw [← hframe, List.take_length, List.drop_length] at hd
    exact ⟨hd.eq, by rw [List.length_append]; omega⟩

/-! ### The decoder as an incremental one -/

/-- What a buffer-and-decode loop makes of one call; a call that aborted would be one that asks for
more, but none does (`decodeBasic_ne_panicked`). -/
def decodeNext (bytes : List UInt8) : Decoded ProtocolError DecodedFrame UInt8 :=
  match decodeBasic bytes with
  | .ok (msgType, flags, currentFrame, remaining) =>
      .item ⟨msgType, flags, currentFrame⟩ remaining
  | .err e => if e.isIncomplete then .more else .failed e
  | .panicked => .more

variable {d : DecodedFrame} {rest : List UInt8} {e : ProtocolError}

lemma decodeNext_eq_item_iff :
    decodeNext b = .item d rest ↔
      decodeBasic b = .ok (d.messageType, d.flags, d.frame, rest) := by
  unfold decodeNext
  constructor
  · intro h
    split at h
    · rename_i heq
      cases h
      exact heq
    · split at h <;> cases h
    · cases h
  · intro h
    rw [h]

lemma decodeNext_eq_failed_iff :
    decodeNext b = .failed e ↔ decodeBasic b = .err e ∧ e.isIncomplete = false := by
  unfold decodeNext
  cases hdec : decodeBasic b with
  | ok v => simp
  | panicked => simp
  | err e' => cases he : e'.isIncomplete <;> simp <;> grind

/-- `decode_basic` as an incremental decoder: its frames and its refusals stand whatever
follows. -/
def frameDecoder : IncrementalDecoder ProtocolError DecodedFrame UInt8 where
  decode := decodeNext
  shorter h := by
    have hdec := decodeNext_eq_item_iff.mp h
    have hlen := congrArg List.length (append_of_decodeBasic hdec)
    have hframe := length_of_decodeBasic hdec
    rw [List.length_append] at hlen
    omega
  item_append h s := by
    rw [decodeNext_eq_item_iff]
    exact decodeBasic_append_of_ok (decodeNext_eq_item_iff.mp h) s
  failed_append h s := by
    rw [decodeNext_eq_failed_iff] at h ⊢
    exact ⟨decodeBasic_append_of_err h.1 h.2 s, h.2⟩

/-- A buffer-and-decode loop over the chunks of a stream, from an empty buffer. -/
def decodeLoop (chunks : List (List UInt8)) : Drained ProtocolError DecodedFrame UInt8 :=
  chunks.foldl frameDecoder.feed ⟨[], .ok []⟩

lemma decodeLoop_eq (chunks : List (List UInt8)) :
    decodeLoop chunks = frameDecoder.drain chunks.flatten := by
  have hempty : frameDecoder.drain [] = ⟨[], .ok []⟩ := IncrementalDecoder.drain_of_more rfl
  calc decodeLoop chunks
      = chunks.foldl frameDecoder.feed (frameDecoder.drain []) := by rw [hempty]; rfl
    _ = frameDecoder.drain ([] ++ chunks.flatten) := IncrementalDecoder.foldl_feed ..
    _ = frameDecoder.drain chunks.flatten := by rw [List.nil_append]

/-- Decoding is independent of chunking: frames and refusals stand under every extension, a frame
that is not there yet asks for the same length until that is there, and a loop that buffers and
decodes finds the same frames and the same first refusal however the stream was cut. -/
theorem decodeBasic_chunking :
    (∀ b s t f cur rest, decodeBasic b = .ok (t, f, cur, rest) →
      cur ++ rest = b ∧ decodeBasic (b ++ s) = .ok (t, f, cur, rest ++ s)) ∧
    (∀ b s e, decodeBasic b = .err e → (∀ r n c, e ≠ .incompleteFrame r n c) →
      decodeBasic (b ++ s) = .err e) ∧
    (∀ b r n c, decodeBasic b = .err (.incompleteFrame r n c) →
      b.length < r ∧ ∀ s : List UInt8, (b ++ s).length < r →
        decodeBasic (b ++ s) = .err (.incompleteFrame r (b ++ s).length c)) ∧
    ∀ chunks chunks' : List (List UInt8), chunks.flatten = chunks'.flatten →
      decodeLoop chunks = decodeLoop chunks' := by
  refine ⟨?_, ?_, ?_, ?_⟩
  · intro b s t f cur rest h
    exact ⟨append_of_decodeBasic h, decodeBasic_append_of_ok h s⟩
  · intro b s e h he
    have hhard : e.isIncomplete = false := by
      cases e with
      | incompleteFrame r n c => exact absurd rfl (he r n c)
      | _ => rfl
    exact decodeBasic_append_of_err h hhard s
  · intro b r n c h
    exact decodeBasic_append_of_incomplete h
  · intro chunks chunks' h
    rw [decodeLoop_eq, decodeLoop_eq, h]

end Fernq
