import Mathlib.Tactic
import Fernq.Protocol.Framing

/-!
Decoders that read the same bytes (`fernq-core/src/protocol/decoder.rs`): `decode_header` and
`decode_basic` both read the fixed header, and `get_channel_id`, `get_message_source_target` and
`parse_message` the same fields.

* `header_decoders_agree_iff`: the two header decoders agree, save on the lengths between their two
  guards.
* `parseMessage_eq`: the endpoint's parser reads the router's fields first.
* `router_reads_endpoint_names`: the router and the endpoint read the same channel and names.
-/

namespace Fernq

variable {b bytes : List UInt8}

/-! ### The fixed header -/

/-- The two header decoders agree on a byte string: nothing outside is looked at, less than a fixed
header is incomplete to both, and a frame of the one has its header read by the other. -/
structure HeaderDecodersAgree (b : List UInt8) : Prop where
  in_bounds : decodeHeader b ≠ .panicked
  incomplete : b.length < fixedHeaderLen →
    (∃ required context, decodeHeader b = .err (.incompleteFrame required b.length context)) ∧
      ∃ required context, decodeBasic b = .err (.incompleteFrame required b.length context)
  frame : ∀ t f cur rest, decodeBasic b = .ok (t, f, cur, rest) →
    decodeHeader b = .ok (t, f, cur.length - fixedHeaderLen)

/-- With its magic there, the header is never found incomplete. -/
lemma decodeHeader_not_incomplete {e : ProtocolError} (hlen : magicLen ≤ b.length)
    (h : decodeHeader b = .err e) : e.isIncomplete = false := by
  rw [decodeHeader_of_magic hlen] at h
  obtain hmagic | ⟨_, -, h⟩ := Outcome.bind_eq_err.mp h
  · exact validateMagic_not_incomplete hmagic
  obtain hkind | ⟨_, -, h⟩ := Outcome.bind_eq_err.mp h
  · exact checkKind_not_incomplete hkind
  obtain hread | ⟨_, -, h⟩ := Outcome.bind_eq_err.mp h
  · exact absurd hread readBe32_ne_err
  · cases h

/-- The header of an accepted frame is decoded to its type, flags and length. -/
lemma decodeHeader_of_decodeBasic {t : MessageType} {f : MessageFlags} {cur rest : List UInt8}
    (h : decodeBasic b = .ok (t, f, cur, rest)) :
    decodeHeader b = .ok (t, f, cur.length - fixedHeaderLen) := by
  have hlen := length_of_decodeBasic h
  have hb := append_of_decodeBasic h
  obtain ⟨⟨magic, hmagic⟩, hcheck⟩ := checks_of_decodeBasic h
  have hkind : checkKind b = .ok (t, f) := by
    rw [← hb, checkKind_append (by omega)]
    exact (checkFrame_eq_ok_iff.mp hcheck).2
  have hannounced : cur.length - fixedHeaderLen = announcedLen b := by
    rw [hlen]
    exact Nat.add_sub_cancel_left ..
  rw [decodeHeader_of_le (by rw [← hb, List.length_append]; omega), hmagic, Outcome.ok_bind, hkind,
    hannounced]
  rfl

/-- **The two header decoders** agree on a byte string exactly when it is shorter than the magic
or has a whole fixed header: between these lengths `decode_header` looks at bytes that are not
there, or blames one that is. -/
theorem header_decoders_agree_iff (b : List UInt8) :
    HeaderDecodersAgree b ↔ b.length < magicLen ∨ fixedHeaderLen ≤ b.length := by
  constructor
  · intro h
    by_contra hbetween
    rw [not_or, not_lt, not_le] at hbetween
    obtain ⟨required, context, hheader⟩ := (h.incomplete hbetween.2).1
    cases decodeHeader_not_incomplete hbetween.1 hheader
  · rintro (hshort | hlong)
    · have hheader : decodeHeader b = .err (.incompleteFrame magicLen b.length "fixed header") :=
        if_pos hshort
      have hfix : b.length < fixedHeaderLen := hshort.trans (by decide)
      have hbasic : decodeBasic b
          = .err (.incompleteFrame fixedHeaderLen b.length "fixed header") := if_pos hfix
      refine ⟨by simp [hheader], fun _ => ⟨⟨_, _, hheader⟩, ⟨_, _, hbasic⟩⟩, ?_⟩
      intro t f cur rest h
      exact decodeHeader_of_decodeBasic h
    · refine ⟨decodeHeader_ne_panicked hlong, fun hshort => absurd hlong (not_le.mpr hshort), ?_⟩
      intro t f cur rest h
      exact decodeHeader_of_decodeBasic h

/-- The magic alone: the version is looked for behind the end. -/
theorem magic_alone_is_out_of_bounds :
    decodeHeader (beEncode 4 magicNumber) = .panicked ∧
      decodeBasic (beEncode 4 magicNumber) = .err (.incompleteFrame 11 4 "fixed header") ∧
      ¬ HeaderDecodersAgree (beEncode 4 magicNumber) := by
  have hheader : decodeHeader (beEncode 4 magicNumber) = .panicked := by decide
  exact ⟨hheader, by decide, fun h => h.in_bounds hheader⟩

/-! ### The fields of a message -/

/-- An error without the text that says where the bytes ran out. -/
def ProtocolError.withoutContext : ProtocolError → ProtocolError
  | .incompleteFrame required actual _ => .incompleteFrame required actual ""
  | e => e

lemma slice_ne_err {ε α : Type} {xs : List α} {i j : ℕ} {e : ε} : slice xs i j ≠ .err e := by
  unfold slice
  split <;> simp

/-- The two numbers of a stream and the payload, behind the names. -/
def readTail (bytes : List UInt8) (offset : ℕ) : Outcome ProtocolError (ℕ × ℕ × List UInt8) := do
  let totalLen ← readBe32 bytes offset
  let streamOffset ← readBe32 bytes (offset + totalStreamLen)
  let payload ← slice bytes (offset + totalStreamLen + streamOffsetLen) (bytes.length - 2)
  return (totalLen, streamOffset, payload)

lemma readTail_ne_err {offset : ℕ} {e : ProtocolError} : readTail bytes offset ≠ .err e := by
  simp [readTail, Outcome.bind_eq_err, readBe32_ne_err, slice_ne_err]

/-- The endpoint's parser reads the channel, the two names and the rest. -/
lemma parseMessage_eq (h : messageFixedLen ≤ bytes.length) :
    parseMessage bytes = do
      let channelId ← getChannelId bytes
      let (source, offset) ← readName bytes "source" 2 27
      let (target, offset) ← readName bytes "target" 2 offset
      let (totalLen, streamOffset, payload) ← readTail bytes offset
      return (⟨channelId, source, target, totalLen, streamOffset⟩, payload) := by
  rw [parseMessage, if_neg (not_lt.mpr h), getChannelId, if_neg (not_lt.mpr h), Outcome.bind_assoc]
  simp only [readTail, Outcome.bind_assoc, Outcome.pure_eq, Outcome.ok_bind]
  rfl

/-- **The router and the endpoint read the same names.**  Of a message that the endpoint accepts
the router reads the same channel, source and target, and a message that the endpoint refuses, the
router refuses for the same reason. -/
theorem router_reads_endpoint_names (bytes : List UInt8) :
    (∀ header payload, parseMessage bytes = .ok (header, payload) →
      getChannelId bytes = .ok header.channelId ∧
        getMessageSourceTarget bytes = .ok (header.source, header.target)) ∧
    ∀ e, parseMessage bytes = .err e → ∃ e', getMessageSourceTarget bytes = .err e' ∧
      e'.withoutContext = e.withoutContext := by
  by_cases hlen : bytes.length < messageFixedLen
  · have hparse : parseMessage bytes = _ := if_pos hlen
    have hnames : getMessageSourceTarget bytes = _ := if_pos hlen
    rw [hparse, hnames]
    refine ⟨by simp, ?_⟩
    rintro e ⟨⟩
    exact ⟨_, rfl, rfl⟩
  · obtain ⟨raw, id, hraw, hid⟩ := exists_channelId (not_lt.mp hlen)
    have hchannel : getChannelId bytes = .ok id := by
      rw [getChannelId, if_neg hlen, hraw, Outcome.ok_bind, hid]
    have hnames : getMessageSourceTarget bytes = do
        let (source, offset) ← readName bytes "source" 2 27
        let (target, _) ← readName bytes "target" 2 offset
        return (source, target) := if_neg hlen
    rw [parseMessage_eq (not_lt.mp hlen), hnames, hchannel, Outcome.ok_bind]
    -- the first name that is not read decides both
    cases hsource : readName bytes "source" 2 27 with
    | panicked => simp
    | err e => simp
    | ok v =>
        obtain ⟨source, offset⟩ := v
        simp only [Outcome.ok_bind]
        cases htarget : readName bytes "target" 2 offset with
        | panicked => simp
        | err e => simp
        | ok v =>
            obtain ⟨target, offset'⟩ := v
            simp only [Outcome.ok_bind]
            cases htail : readTail bytes offset' with
            | panicked => simp
            | err e => exact absurd htail readTail_ne_err
            | ok v =>
                refine ⟨?_, by simp⟩
                rintro header payload ⟨⟩
                exact ⟨rfl, rfl⟩

end Fernq
