import Mathlib.Tactic
import Fernq.Protocol.Frame

/-!
The frame decoders (`fernq-core/src/protocol/decoder.rs`).  Every index and every slice
of the source is a step that may abort.

* `decodeHeader`: the fixed header alone.
* `decodeBasic`: a whole frame with its checksum, and what follows it.
* `getChannelId`, `getMessageSourceTarget`, `parseMessage`: the fields of a message
  frame.
* `readName`: the length-prefixed name both field parsers read twice.
-/

namespace Fernq

/-- 初级解码，只解码固定协议头: type, flags and frame length. -/
def decodeHeader (bytes : List UInt8) :
    Outcome ProtocolError (MessageType × MessageFlags × ℕ) :=
  if bytes.length < magicLen then
    .err (.incompleteFrame magicLen bytes.length "fixed header")
  else do
    let head ← slice bytes 0 magicLen
    let _magic ← validateMagic head
    let versionByte ← index bytes magicLen
    let _version ← validateVersion versionByte
    let typeByte ← index bytes (magicLen + versionLen)
    let msgType ← MessageType.tryFrom typeByte
    let flagsByte ← index bytes (magicLen + versionLen + typeLen)
    let flags ← MessageFlags.tryFrom flagsByte
    let frameLength ← readBe32 bytes (magicLen + versionLen + typeLen + flagsLen)
    return (msgType, flags, frameLength)

/-- 初级解码: type, flags, the current frame and the remaining bytes. -/
def decodeBasic (bytes : List UInt8) :
    Outcome ProtocolError (MessageType × MessageFlags × List UInt8 × List UInt8) :=
  if bytes.length < fixedHeaderLen then
    .err (.incompleteFrame fixedHeaderLen bytes.length "fixed header")
  else do
    let head ← slice bytes 0 magicLen
    let _magic ← validateMagic head
    let frameLength ← readBe32 bytes (magicLen + versionLen + typeLen + flagsLen)
    let totalFrameLen ← Outcome.okOr (checkedAdd fixedHeaderLen frameLength)
      (.lengthOverflow "total frame length calculation")
    if bytes.length < totalFrameLen then
      .err (.incompleteFrame totalFrameLen bytes.length "complete frame")
    else do
      let currentFrame ← slice bytes 0 totalFrameLen
      let remaining ← slice bytes totalFrameLen bytes.length
      let crcOffset ← Outcome.okOr (checkedSub totalFrameLen 2)
        (.malformedFrame "frame too short for CRC")
      let checked ← slice currentFrame magicLen crcOffset
      let receivedCrc ← readBe16 currentFrame crcOffset
      if netCrc checked ≠ BitVec.ofNat 16 receivedCrc then
        .err (.crcMismatch (BitVec.ofNat 16 receivedCrc) (netCrc checked))
      else do
        let versionByte ← index bytes magicLen
        let _version ← validateVersion versionByte
        let typeByte ← index bytes (magicLen + versionLen)
        let msgType ← MessageType.tryFrom typeByte
        let flagsByte ← index bytes (magicLen + versionLen + typeLen)
        let flags ← MessageFlags.tryFrom flagsByte
        return (msgType, flags, currentFrame, remaining)

/-- 获取当前帧的通道id. -/
def getChannelId (bytes : List UInt8) : Outcome ProtocolError ChannelId :=
  if bytes.length < messageFixedLen then
    .err (.incompleteFrame messageFixedLen bytes.length "channel id")
  else do
    let raw ← slice bytes fixedHeaderLen (fixedHeaderLen + channelIdLen)
    ChannelId.tryFromSlice raw

/-- A name with its length before it: the name, and the offset after it. -/
def readName (bytes : List UInt8) (nameType : String) (lenSize offset : ℕ) :
    Outcome ProtocolError (String × ℕ) := do
  let len ← readBe16 bytes offset
  if len > maxNameLength then
    .err (.nameTooLong nameType len maxNameLength)
  else if len = 0 then
    .err (.emptyName nameType)
  else do
    let raw ← slice bytes (offset + lenSize) (offset + lenSize + len)
    let name ← Outcome.okOr (fromUtf8 raw) (.invalidName nameType)
    return (name, offset + lenSize + len)

/-- 获取信息来源和目标. -/
def getMessageSourceTarget (bytes : List UInt8) : Outcome ProtocolError (String × String) :=
  if bytes.length < messageFixedLen then
    .err (.incompleteFrame messageFixedLen bytes.length "fixed header")
  else do
    let (sourceName, offset) ←
      readName bytes "source" sourceLenSize (fixedHeaderLen + channelIdLen)
    let (targetName, _) ← readName bytes "target" targetLenSize offset
    return (sourceName, targetName)

/-- 解析消息: the header fields and the payload. -/
def parseMessage (bytes : List UInt8) : Outcome ProtocolError (MessageHeader × List UInt8) :=
  if bytes.length < messageFixedLen then
    .err (.incompleteFrame messageFixedLen bytes.length "channel id")
  else do
    let raw ← slice bytes fixedHeaderLen (fixedHeaderLen + channelIdLen)
    let chanId ← ChannelId.tryFromSlice raw
    let (sourceName, offset) ←
      readName bytes "source" sourceLenSize (fixedHeaderLen + channelIdLen)
    let (targetName, offset) ← readName bytes "target" targetLenSize offset
    let totalLen ← readBe32 bytes offset
    let streamOffset ← readBe32 bytes (offset + totalStreamLen)
    let payload ← slice bytes (offset + totalStreamLen + streamOffsetLen) (bytes.length - 2)
    return (⟨chanId, sourceName, targetName, totalLen, streamOffset⟩, payload)

end Fernq
