import Mathlib.Tactic
import Fernq.Protocol.Decoder
import Fernq.Protocol.Encoder

/-!
When the field parsers stay inside their slice.  Both check the 41 bytes of a message
frame with empty names and then follow two length fields that the sender chose.

* `NameInside`: a name read at an offset does not leave the slice, and when it is
  accepted what is read next does not either.
* `readName_bind_ne_panicked_iff`: the condition for one name.
* `NamesInside`, `FieldsInside`: the conditions for the two parsers, and
  `getMessageSourceTarget_ne_panicked_iff`, `parseMessage_ne_panicked_iff`: they are
  exact.
* `overrunFrame`: a frame of 41 bytes with a well-formed head that announces a source
  name of 128 bytes; both parsers abort on it.
-/

namespace Fernq

/-- The length field of the name at `offset`. -/
def nameLen (bytes : List UInt8) (offset : ℕ) : ℕ := beDecode ((bytes.drop offset).take 2)

/-- The bytes of the name at `offset`. -/
def nameBytes (bytes : List UInt8) (offset : ℕ) : List UInt8 :=
  (bytes.drop (offset + 2)).take (nameLen bytes offset)

/-- The name at `offset` is read inside the slice: its length field is, and the length is
refused or the name is inside too, and after a valid name `next` holds. -/
def NameInside (bytes : List UInt8) (offset : ℕ) (next : Prop) : Prop :=
  offset + 2 ≤ bytes.length ∧
    (maxNameLength < nameLen bytes offset ∨ nameLen bytes offset = 0 ∨
      (offset + 2 + nameLen bytes offset ≤ bytes.length ∧
        (fromUtf8 (nameBytes bytes offset) = none ∨ next)))

instance (bytes : List UInt8) (offset : ℕ) (next : Prop) [Decidable next] :
    Decidable (NameInside bytes offset next) :=
  inferInstanceAs (Decidable (_ ∧ (_ ∨ _ ∨ (_ ∧ (_ ∨ _)))))

/-- The offset of the target name. -/
def targetOffset (bytes : List UInt8) : ℕ := 29 + nameLen bytes 27

/-- The two names are inside the slice, and after two valid names `next` holds. -/
def NamesInside (bytes : List UInt8) (next : Prop) : Prop :=
  bytes.length < messageFixedLen ∨
    NameInside bytes 27 (NameInside bytes (targetOffset bytes) next)

/-- All fields are inside the slice: after two valid names there is room for the two stream
numbers and the checksum. -/
def FieldsInside (bytes : List UInt8) : Prop :=
  NamesInside bytes
    (41 + nameLen bytes 27 + nameLen bytes (targetOffset bytes) ≤ bytes.length)

instance (bytes : List UInt8) (next : Prop) [Decidable next] :
    Decidable (NamesInside bytes next) :=
  inferInstanceAs (Decidable (_ ∨ _))

instance (bytes : List UInt8) : Decidable (FieldsInside bytes) :=
  inferInstanceAs (Decidable (NamesInside bytes _))

section Name

variable {bytes : List UInt8} {nameType : String} {offset : ℕ}

/-- What reading a name does, case by case on its length field. -/
lemma readName_eq (h : offset + 2 ≤ bytes.length) :
    readName bytes nameType 2 offset
      = if maxNameLength < nameLen bytes offset then
          .err (.nameTooLong nameType (nameLen bytes offset) maxNameLength)
        else if nameLen bytes offset = 0 then .err (.emptyName nameType)
        else if offset + 2 + nameLen bytes offset ≤ bytes.length then
          match fromUtf8 (nameBytes bytes offset) with
          | some name => .ok (name, offset + 2 + nameLen bytes offset)
          | none => .err (.invalidName nameType)
        else .panicked := by
  rw [readName, readBe16_eq h, Outcome.ok_bind,
    show beDecode ((bytes.drop offset).take 2) = nameLen bytes offset from rfl]
  split_ifs with h1 h2 h3
  · rfl
  · rfl
  · rw [slice_of_le (by omega) h3, Outcome.ok_bind, Nat.add_sub_cancel_left,
      show (bytes.drop (offset + 2)).take (nameLen bytes offset) = nameBytes bytes offset from rfl]
    cases fromUtf8 (nameBytes bytes offset) <;> rfl
  · rw [slice_eq_panicked_iff.mpr (Or.inr (by omega)), Outcome.panicked_bind]

/-- The value of a name that was read: the length field is in range, the name is inside, and
it is followed by the next field. -/
lemma readName_eq_ok_iff {name : String} {next : ℕ} :
    readName bytes nameType 2 offset = .ok (name, next)
      ↔ offset + 2 ≤ bytes.length ∧ nameLen bytes offset ≤ maxNameLength ∧
        nameLen bytes offset ≠ 0 ∧ offset + 2 + nameLen bytes offset ≤ bytes.length ∧
        fromUtf8 (nameBytes bytes offset) = some name ∧
        next = offset + 2 + nameLen bytes offset := by
  by_cases h : offset + 2 ≤ bytes.length
  · rw [readName_eq h]
    split_ifs with h1 h2 h3
    · simp [h1]
    · simp [h2]
    · cases hname : fromUtf8 (nameBytes bytes offset) with
      | none => simp
      | some s =>
          simp only [Outcome.ok.injEq, Prod.mk.injEq, Option.some.injEq]
          exact ⟨fun he => ⟨h, not_lt.mp h1, h2, h3, he.1, he.2.symm⟩,
            fun he => ⟨he.2.2.2.2.1, he.2.2.2.2.2.symm⟩⟩
    · simp [h3]
  · rw [readName, readBe16_eq_panicked_iff.mpr (by omega), Outcome.panicked_bind]
    simp [h]

/-- A name that was read has 1 to 128 bytes. -/
lemma utf8ByteSize_of_readName {name : String} {next : ℕ}
    (h : readName bytes nameType 2 offset = .ok (name, next)) :
    0 < name.utf8ByteSize ∧ name.utf8ByteSize ≤ maxNameLength := by
  obtain ⟨-, hmax, hpos, hin, hname, -⟩ := readName_eq_ok_iff.mp h
  have hlen : name.utf8ByteSize = nameLen bytes offset := by
    rw [← utf8Bytes_length, fromUtf8_eq_some_iff.mp hname, nameBytes, List.length_take,
      List.length_drop]
    omega
  rw [hlen]
  exact ⟨Nat.pos_of_ne_zero hpos, hmax⟩

/-- A name read before something else: the sequence aborts unless the name is inside and what
follows a valid name does not abort. -/
lemma readName_bind_ne_panicked_iff {α : Type} {k : String × ℕ → Outcome ProtocolError α}
    {next : Prop}
    (hk : ∀ name, fromUtf8 (nameBytes bytes offset) = some name →
      (k (name, offset + 2 + nameLen bytes offset) ≠ .panicked ↔ next)) :
    (readName bytes nameType 2 offset >>= k) ≠ .panicked ↔ NameInside bytes offset next := by
  rw [NameInside]
  by_cases h : offset + 2 ≤ bytes.length
  · rw [readName_eq h]
    split_ifs with h1 h2 h3
    · simp [h, h1]
    · simp [h, h2]
    · cases hname : fromUtf8 (nameBytes bytes offset) with
      | none => simp [h, h3]
      | some s => simp [h, h1, h2, h3, hk s hname]
    · simp [h, h1, h2, h3]
  · rw [readName, readBe16_eq_panicked_iff.mpr (by omega), Outcome.panicked_bind]
    simp [h]

end Name

variable {bytes : List UInt8}

/-! ### The fixed header -/

lemma validateMagic_ne_panicked : validateMagic bytes ≠ .panicked := by
  rw [validateMagic]
  split_ifs with hlen
  · simp
  · rw [readBe32_eq (by omega), Outcome.ok_bind]
    split_ifs <;> simp

lemma validateVersion_ne_panicked (byte : UInt8) : validateVersion byte ≠ .panicked := by
  rw [validateVersion]
  split_ifs <;> simp

lemma MessageType.tryFrom_ne_panicked (byte : UInt8) :
    MessageType.tryFrom byte ≠ .panicked := by
  rw [MessageType.tryFrom]
  split_ifs <;> simp

lemma MessageFlags.tryFrom_ne_panicked (byte : UInt8) :
    MessageFlags.tryFrom byte ≠ .panicked := by
  rw [MessageFlags.tryFrom]
  split_ifs <;> simp

/-- The fixed header is read inside its 11 bytes. -/
theorem decodeHeader_ne_panicked (h : fixedHeaderLen ≤ bytes.length) :
    decodeHeader bytes ≠ .panicked := by
  have hlen : 11 ≤ bytes.length := h
  intro hp
  rw [decodeHeader, if_neg (by simp only [magicLen]; omega)] at hp
  simp only [Outcome.bind_eq_panicked, slice_eq_panicked_iff, index_eq_panicked_iff,
    readBe32_eq_panicked_iff, validateMagic_ne_panicked, validateVersion_ne_panicked,
    MessageType.tryFrom_ne_panicked, MessageFlags.tryFrom_ne_panicked, Outcome.pure_eq, magicLen,
    versionLen, typeLen, flagsLen, reduceCtorEq, and_false, exists_const, or_false,
    false_or] at hp
  omega

/-! ### The parsers -/

/-- A slice of at least 41 bytes has its channel id inside. -/
lemma exists_channelId (h : messageFixedLen ≤ bytes.length) :
    ∃ raw id, (slice bytes fixedHeaderLen (fixedHeaderLen + channelIdLen)
        : Outcome ProtocolError (List UInt8)) = .ok raw ∧ ChannelId.tryFromSlice raw = .ok id := by
  have hlen : 41 ≤ bytes.length := h
  have hraw : ((bytes.drop fixedHeaderLen).take (fixedHeaderLen + channelIdLen
      - fixedHeaderLen)).length = 16 := by
    rw [List.length_take, List.length_drop, Nat.add_sub_cancel_left]
    simp only [fixedHeaderLen, magicLen, versionLen, typeLen, flagsLen, frameLengthLen,
      channelIdLen]
    omega
  refine ⟨_, _, slice_of_le (Nat.le_add_right _ _) (le_trans (by decide) hlen),
    ChannelId.tryFromSlice_eq_ok hraw⟩

/-- The two stream numbers and the payload after them are inside exactly when eight bytes and
the checksum are left. -/
lemma readTail_ne_panicked_iff {α : Type} {offset : ℕ} (f : ℕ → ℕ → List UInt8 → α) :
    (do
      let totalLen ← readBe32 bytes offset
      let streamOffset ← readBe32 bytes (offset + totalStreamLen)
      let payload ← slice bytes (offset + totalStreamLen + streamOffsetLen) (bytes.length - 2)
      return f totalLen streamOffset payload : Outcome ProtocolError α) ≠ .panicked
      ↔ offset + 10 ≤ bytes.length := by
  simp only [totalStreamLen, streamOffsetLen]
  by_cases h4 : offset + 4 ≤ bytes.length
  · rw [readBe32_eq h4, Outcome.ok_bind]
    by_cases h8 : offset + 4 + 4 ≤ bytes.length
    · rw [readBe32_eq h8, Outcome.ok_bind]
      by_cases h10 : offset + 10 ≤ bytes.length
      · rw [slice_of_le (by omega) (by omega), Outcome.ok_bind]
        simp [h10]
      · rw [slice_eq_panicked_iff.mpr (Or.inl (by omega)), Outcome.panicked_bind]
        simp [h10]
    · rw [readBe32_eq_panicked_iff.mpr (by omega), Outcome.panicked_bind]
      simp only [ne_eq, not_true_eq_false, false_iff]
      omega
  · rw [readBe32_eq_panicked_iff.mpr (by omega), Outcome.panicked_bind]
    simp only [ne_eq, not_true_eq_false, false_iff]
    omega

/-- The router's parser aborts exactly when a name it follows is not inside. -/
theorem getMessageSourceTarget_ne_panicked_iff :
    getMessageSourceTarget bytes ≠ .panicked ↔ NamesInside bytes True := by
  rw [getMessageSourceTarget, NamesInside]
  split_ifs with hlen
  · simp [hlen]
  · rw [or_iff_right hlen]
    refine readName_bind_ne_panicked_iff fun source _ => ?_
    refine readName_bind_ne_panicked_iff fun target _ => ?_
    simp

/-- The endpoint's parser aborts exactly when a field it follows is not inside. -/
theorem parseMessage_ne_panicked_iff :
    parseMessage bytes ≠ .panicked ↔ FieldsInside bytes := by
  rw [parseMessage, FieldsInside, NamesInside]
  split_ifs with hlen
  · simp [hlen]
  · obtain ⟨raw, id, hraw, hid⟩ := exists_channelId (not_lt.mp hlen)
    rw [or_iff_right hlen, hraw, Outcome.ok_bind, hid, Outcome.ok_bind]
    have h27 : fixedHeaderLen + channelIdLen = 27 := rfl
    rw [h27]
    refine readName_bind_ne_panicked_iff fun source _ => ?_
    refine readName_bind_ne_panicked_iff fun target _ => ?_
    have h29 : 27 + 2 + nameLen bytes 27 = targetOffset bytes := rfl
    dsimp only
    rw [readTail_ne_panicked_iff fun totalLen streamOffset payload =>
      ((⟨id, source, target, totalLen, streamOffset⟩ : MessageHeader), payload), h29]
    simp only [targetOffset]
    omega

/-- The endpoint's parser returns the source name it read. -/
lemma readName_of_parseMessage {header : MessageHeader} {payload : List UInt8}
    (h : parseMessage bytes = .ok (header, payload)) :
    ∃ next, readName bytes "source" 2 27 = .ok (header.source, next) := by
  rw [parseMessage] at h
  split_ifs at h
  simp only [Outcome.bind_eq_ok, Prod.exists] at h
  obtain ⟨_, _, _, _, source, next, hsource, _, _, _, _, _, _, _, _, _, h⟩ := h
  cases h
  exact ⟨next, hsource⟩

/-- **The field parsers stay inside their slice exactly when its fields do.**  Neither parser
aborts on a slice if and only if the slice is too short to be looked at, or each name length
is refused or leads to a name inside the slice, and two valid names leave room for the stream
numbers and the checksum. -/
theorem field_parsers_in_bounds_iff (bytes : List UInt8) :
    (getMessageSourceTarget bytes ≠ .panicked ∧ parseMessage bytes ≠ .panicked)
      ↔ FieldsInside bytes := by
  rw [getMessageSourceTarget_ne_panicked_iff, parseMessage_ne_panicked_iff]
  refine and_iff_right_of_imp ?_
  rintro (hshort | ⟨h2, hrefused | hempty | ⟨hin, hutf8 | ⟨h2', hrest⟩⟩⟩)
  · exact Or.inl hshort
  · exact Or.inr ⟨h2, Or.inl hrefused⟩
  · exact Or.inr ⟨h2, Or.inr (Or.inl hempty)⟩
  · exact Or.inr ⟨h2, Or.inr (Or.inr ⟨hin, Or.inl hutf8⟩)⟩
  · refine Or.inr ⟨h2, Or.inr (Or.inr ⟨hin, Or.inr ⟨h2', ?_⟩⟩)⟩
    rcases hrest with hrefused | hempty | ⟨hin', _⟩
    · exact Or.inl hrefused
    · exact Or.inr (Or.inl hempty)
    · exact Or.inr (Or.inr ⟨hin', Or.inr trivial⟩)

/-- A frame of 41 bytes with a well-formed head, whose source length says 128. -/
def overrunFrame : List UInt8 :=
  frameHead .body (.new true true false) 30 ++
    (List.replicate 16 0 ++ ([0, 128] ++ List.replicate 12 0))

/-- The head of `overrunFrame` is accepted, and both field parsers abort on it. -/
theorem overrunFrame_out_of_bounds :
    decodeHeader (overrunFrame.take fixedHeaderLen) = .ok (.body, .new true true false, 30)
      ∧ ¬ (getMessageSourceTarget overrunFrame ≠ .panicked
        ∧ parseMessage overrunFrame ≠ .panicked) := by
  decide

end Fernq
