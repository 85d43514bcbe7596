import Mathlib.Tactic
import Fernq.Base.Bytes
import Fernq.Base.Crc
import Fernq.Protocol.Error

/-!
The vocabulary of a frame (`fernq-core/src/protocol.rs`,
`fernq-core/src/protocol/frame.rs`): constants, message types, flags and channel
identifiers.

A frame is laid out as magic (4 bytes), version (1), type (1), flags (1), frame
length (4), and then the part the length counts: channel id (16), source length (2),
source, target length (2), target, total stream length (4), stream offset (4),
payload and checksum (2).

* `fixedHeaderLen` (11) and `messageFixedLen` (41): the bytes before the counted part,
  and the bytes of a frame with empty names and payload.
* `MessageType`, `MessageFlags`, `Uuid`, `ChannelId`: flags always have their reserved
  bits clear and identifiers always have 16 bytes, by construction.
* `MessageType.tryFrom_asU8`, `MessageFlags.tryFrom_asU8`: a type or flags written as a
  byte is read back.
* `ChannelId.assignTarget`, `ChannelId.assignTargetFast`: the worker a channel is assigned to;
  `assignTargetFast_lt` bounds it, and `assignTarget_of_assignTargetFast` says that both agree.
-/

namespace Fernq

/-! ### Constants -/

def magicNumber : ℕ := 20262351

def version : UInt8 := 1

def magicLen : ℕ := 4
def versionLen : ℕ := 1
def typeLen : ℕ := 1
def flagsLen : ℕ := 1
def frameLengthLen : ℕ := 4
def channelIdLen : ℕ := 16
def sourceLenSize : ℕ := 2
def targetLenSize : ℕ := 2
def totalStreamLen : ℕ := 4
def streamOffsetLen : ℕ := 4
def crcLen : ℕ := 2

/-- 固定头部长度: the bytes up to the end of the frame length, 11. -/
def fixedHeaderLen : ℕ := magicLen + versionLen + typeLen + flagsLen + frameLengthLen

/-- The bytes of a message frame besides its names and its payload, 41. -/
def messageFixedLen : ℕ :=
  fixedHeaderLen + channelIdLen + sourceLenSize + targetLenSize + totalStreamLen
    + streamOffsetLen + crcLen

def maxFrameSize : ℕ := 8 * 1024
def maxStreamLength : ℕ := 8 * 1024 * 1024
def maxNameLength : ℕ := 128

/-- `NET_CRC`: CRC-16/XMODEM. -/
def netCrc (bytes : List UInt8) : BitVec 16 := crc16 0x1021 0 bytes

/-- The check value of the algorithm, the checksum of the digits `123456789`. -/
example : netCrc (utf8Bytes "123456789") = 0x31C3 := by decide +kernel

/-! ### Magic and version -/

/-- 验证输入的4字节是否为合法魔数. -/
def validateMagic (bytes : List UInt8) : Outcome ProtocolError ℕ :=
  if bytes.length ≠ 4 then
    .err (.invalidFrameLength s!"magic validation requires 4 bytes, got {bytes.length}")
  else do
    let magic ← readBe32 bytes 0
    if magic ≠ magicNumber then
      .err (.invalidMagic magic magicNumber)
    else
      return magic

/-- 验证版本号是否匹配. -/
def validateVersion (byte : UInt8) : Outcome ProtocolError UInt8 :=
  if byte ≠ version then .err (.invalidVersion byte version) else .ok byte

lemma validateMagic_beEncode : validateMagic (beEncode 4 magicNumber) = .ok magicNumber := by
  decide

lemma validateVersion_version : validateVersion version = .ok version := by
  decide

lemma validateVersion_eq_ok_iff {byte v : UInt8} :
    validateVersion byte = .ok v ↔ byte = version ∧ v = version := by
  unfold validateVersion
  split_ifs with h
  · simp [h]
  · rw [ne_eq, not_not] at h
    simp [h, eq_comm]

/-- The magic that is accepted is written with the four bytes of the magic number. -/
lemma eq_of_validateMagic {bytes : List UInt8} {magic : ℕ} (h : validateMagic bytes = .ok magic) :
    bytes = beEncode 4 magicNumber := by
  unfold validateMagic at h
  split_ifs at h with hlen
  obtain ⟨m, hread, h⟩ := Outcome.bind_eq_ok.mp h
  split_ifs at h with hmagic
  obtain ⟨-, -, hbytes⟩ := drop_of_readBe32 hread
  rw [not_not] at hmagic hlen
  rwa [List.drop_zero, Nat.zero_add, List.drop_of_length_le hlen.le, List.append_nil, hmagic]
    at hbytes

/-! ### Message types -/

/-- 消息类型定义（1字节）. -/
inductive MessageType where
  | header
  | body
  | ping
  | pong
  deriving DecidableEq, Repr

namespace MessageType

/-- 编码为 u8. -/
def asU8 : MessageType → UInt8
  | header => 0x01
  | body => 0x02
  | ping => 0x03
  | pong => 0x04

/-- The type a byte stands for. -/
def tryFrom (value : UInt8) : Outcome ProtocolError MessageType :=
  if value = 0x01 then .ok header
  else if value = 0x02 then .ok body
  else if value = 0x03 then .ok ping
  else if value = 0x04 then .ok pong
  else .err (.unknownMessageType value)

@[simp] lemma tryFrom_asU8 (t : MessageType) : tryFrom t.asU8 = .ok t := by
  cases t <;> rfl

lemma tryFrom_eq_ok_iff {value : UInt8} {t : MessageType} :
    tryFrom value = .ok t ↔ value = t.asU8 := by
  constructor
  · intro h
    unfold tryFrom at h
    split_ifs at h with h1 h2 h3 h4 <;> cases h <;> assumption
  · rintro rfl
    exact tryFrom_asU8 t

end MessageType

/-! ### Flags -/

/-- The bits that must be zero in a flags byte. -/
def reservedMask : UInt8 := 0b00011111

/-- 消息标志位（1 字节）: END_STREAM, END_CHANNEL and IS_RESPONSE from the top bit down. -/
structure MessageFlags where
  bits : UInt8
  reserved_eq_zero : bits &&& reservedMask = 0
  deriving DecidableEq, Repr

namespace MessageFlags

def endStreamBit : UInt8 := 0b10000000
def endChannelBit : UInt8 := 0b01000000
def isResponseBit : UInt8 := 0b00100000

/-- 创建 flags（从三个 bool 参数）. -/
def new (endStream endChannel isResponse : Bool) : MessageFlags where
  bits :=
    (if endStream then endStreamBit else 0) ||| (if endChannel then endChannelBit else 0)
      ||| (if isResponse then isResponseBit else 0)
  reserved_eq_zero := by
    cases endStream <;> cases endChannel <;> cases isResponse <;> decide

/-- 编码为 u8. -/
def asU8 (f : MessageFlags) : UInt8 := f.bits

def endStream (f : MessageFlags) : Bool := f.bits &&& endStreamBit != 0
def endChannel (f : MessageFlags) : Bool := f.bits &&& endChannelBit != 0
def isResponse (f : MessageFlags) : Bool := f.bits &&& isResponseBit != 0
def isRequest (f : MessageFlags) : Bool := !f.isResponse

/-- The flags a byte stands for, when its reserved bits are clear. -/
def tryFrom (value : UInt8) : Outcome ProtocolError MessageFlags :=
  if h : value &&& reservedMask = 0 then .ok ⟨value, h⟩ else .err (.invalidFlags value)

variable (s c r : Bool)

@[simp] lemma endStream_new : (new s c r).endStream = s := by
  cases s <;> cases c <;> cases r <;> decide

@[simp] lemma endChannel_new : (new s c r).endChannel = c := by
  cases s <;> cases c <;> cases r <;> decide

@[simp] lemma isResponse_new : (new s c r).isResponse = r := by
  cases s <;> cases c <;> cases r <;> decide

@[simp] lemma isRequest_new : (new s c r).isRequest = !r := by
  rw [isRequest, isResponse_new]

@[simp] lemma tryFrom_asU8 (f : MessageFlags) : tryFrom f.asU8 = .ok f :=
  dif_pos f.reserved_eq_zero

lemma tryFrom_eq_ok_iff {value : UInt8} {f : MessageFlags} :
    tryFrom value = .ok f ↔ value = f.asU8 := by
  constructor
  · intro h
    unfold tryFrom at h
    split at h <;> cases h
    rfl
  · rintro rfl
    exact tryFrom_asU8 f

/-- Flags are what their three bits say. -/
lemma eq_new (f : MessageFlags) : f = new f.endStream f.endChannel f.isResponse := by
  have hbyte : ∀ n < 256, UInt8.ofNat n &&& reservedMask = 0 →
      UInt8.ofNat n = (new (UInt8.ofNat n &&& endStreamBit != 0)
        (UInt8.ofNat n &&& endChannelBit != 0) (UInt8.ofNat n &&& isResponseBit != 0)).bits := by
    decide +kernel
  have hbits := hbyte f.bits.toNat f.bits.toNat_lt
  rw [UInt8.ofNat_toNat] at hbits
  cases f with
  | mk bits h => exact mk.injEq .. ▸ hbits h

end MessageFlags

/-! ### Identifiers -/

/-- A universally unique identifier: 16 bytes. -/
structure Uuid where
  bytes : List UInt8
  bytes_length : bytes.length = 16
  deriving DecidableEq, Repr

/-- 通道 ID 封装. -/
structure ChannelId where
  uuid : Uuid
  deriving DecidableEq, Repr

namespace ChannelId

/-- 借用返回 16 字节切片. -/
def asBytes (id : ChannelId) : List UInt8 := id.uuid.bytes

@[simp] lemma asBytes_length (id : ChannelId) : id.asBytes.length = 16 := id.uuid.bytes_length

/-- 尝试从字节切片构造（长度必须为 16）. -/
def tryFromSlice (bytes : List UInt8) : Outcome ProtocolError ChannelId :=
  if h : bytes.length = 16 then .ok ⟨⟨bytes, h⟩⟩ else .err (.invalidUuidLength 16 bytes.length)

@[simp] lemma tryFromSlice_asBytes (id : ChannelId) : tryFromSlice id.asBytes = .ok id :=
  dif_pos id.asBytes_length

lemma tryFromSlice_eq_ok {bytes : List UInt8} (h : bytes.length = 16) :
    tryFromSlice bytes = .ok ⟨⟨bytes, h⟩⟩ :=
  dif_pos h

lemma tryFromSlice_eq_ok_iff {bytes : List UInt8} {id : ChannelId} :
    tryFromSlice bytes = .ok id ↔ id.asBytes = bytes := by
  constructor
  · intro h
    unfold tryFromSlice at h
    split at h <;> cases h
    rfl
  · rintro rfl
    exact tryFromSlice_asBytes id

/-- 获取 UUID 后 8 字节作为 u64. -/
def hashU64 (id : ChannelId) : ℕ := beDecode (id.asBytes.drop 8)

/-- 标准分配：后 8 字节对总数取模（支持任意正整数）. -/
def assignTarget (id : ChannelId) (totalTargets : ℕ) : Outcome ProtocolError ℕ :=
  if totalTargets = 0 then .err (.invalidTargetCount 0 "must be greater than 0")
  else .ok (id.hashU64 % totalTargets)

/-- `n.is_power_of_two()`. -/
def isPowerOfTwo (n : ℕ) : Bool := n != 0 && n &&& (n - 1) == 0

/-- 超快分配：位运算版本（目标数必须是 2 的幂）. -/
def assignTargetFast (id : ChannelId) (totalTargets : ℕ) : Outcome ProtocolError ℕ :=
  if !isPowerOfTwo totalTargets then
    .err (.invalidTargetCount totalTargets
      "must be power of 2 for fast path (e.g., 16, 32, 64, 128)")
  else
    .ok (id.hashU64 &&& (totalTargets - 1))

lemma assignTargetFast_eq_ok {id : ChannelId} {n : ℕ} (h : isPowerOfTwo n = true) :
    id.assignTargetFast n = .ok (id.hashU64 &&& (n - 1)) := by
  rw [assignTargetFast, h]
  rfl

/-- The worker a channel is assigned to is one of the `n`. -/
lemma assignTargetFast_lt {id : ChannelId} {n w : ℕ} (h : id.assignTargetFast n = .ok w) :
    w < n := by
  by_cases hp : isPowerOfTwo n = true
  · rw [assignTargetFast_eq_ok hp, Outcome.ok.injEq] at h
    have hn : n ≠ 0 := by
      rintro rfl
      exact absurd hp (by decide)
    have hle : id.hashU64 &&& (n - 1) ≤ n - 1 := Nat.and_le_right
    omega
  · simp [assignTargetFast, hp] at h

lemma isPowerOfTwo_iff {n : ℕ} : isPowerOfTwo n = true ↔ ∃ k, n = 2 ^ k := by
  have hcore : n ≠ 0 ∧ n &&& (n - 1) = 0 ↔ ∃ k, n = 2 ^ k :=
    Nat.ne_zero_and_sub_one_eq_zero_iff_isPowerOfTwo
  rw [← hcore, isPowerOfTwo, Bool.and_eq_true, bne_iff_ne, beq_iff_eq]

lemma exists_assignTargetFast_eq_err {id : ChannelId} {n : ℕ} (h : ¬ ∃ k, n = 2 ^ k) :
    ∃ e, id.assignTargetFast n = .err e := by
  rw [← isPowerOfTwo_iff, Bool.not_eq_true] at h
  rw [assignTargetFast, h]
  exact ⟨_, rfl⟩

/-- The fast assignment accepts the powers of two. -/
lemma exists_assignTargetFast_iff {id : ChannelId} {n : ℕ} :
    (∃ w, id.assignTargetFast n = .ok w) ↔ ∃ k, n = 2 ^ k := by
  refine ⟨fun h => ?_, fun h => ⟨_, assignTargetFast_eq_ok (isPowerOfTwo_iff.mpr h)⟩⟩
  obtain ⟨w, hw⟩ := h
  by_contra hp
  obtain ⟨e, he⟩ : ∃ e, id.assignTargetFast n = .err e := exists_assignTargetFast_eq_err hp
  rw [hw] at he
  cases he

/-- 位与运算：`x % 2^k == x & (2^k - 1)`: where the fast assignment gives a worker, the plain one
gives the same. -/
lemma assignTarget_of_assignTargetFast {id : ChannelId} {n w : ℕ}
    (h : id.assignTargetFast n = .ok w) : id.assignTarget n = .ok w := by
  obtain ⟨k, rfl⟩ := exists_assignTargetFast_iff.mp ⟨w, h⟩
  rw [assignTargetFast_eq_ok (isPowerOfTwo_iff.mpr ⟨k, rfl⟩), Outcome.ok.injEq,
    Nat.and_two_pow_sub_one_eq_mod] at h
  rw [assignTarget, if_neg (by positivity), h]

end ChannelId

/-- The fields of a message frame besides its payload. -/
structure MessageHeader where
  channelId : ChannelId
  source : String
  target : String
  totalLen : ℕ
  streamOffset : ℕ
  deriving DecidableEq, Repr

end Fernq
