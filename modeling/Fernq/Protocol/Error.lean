import Mathlib.Tactic

/-!
The errors of the protocol (`fernq-core/src/protocol/error.rs`), each variant with
the data it carries.
-/

namespace Fernq

/-- 协议错误类型: why a call of the protocol library failed. -/
inductive ProtocolError where
  | unknownMessageType (value : UInt8)
  | invalidFlags (value : UInt8)
  | invalidMagic (received expected : ℕ)
  | invalidVersion (received expected : UInt8)
  | invalidFrameLength (message : String)
  | incompleteFrame (required actual : ℕ) (context : String)
  | nameTooLong (nameType : String) (length max : ℕ)
  | streamTooLong (length max : ℕ)
  | lengthOverflow (context : String)
  | invalidOffset (offset total : ℕ)
  | crcMismatch (received calculated : BitVec 16)
  | malformedFrame (message : String)
  | emptyName (nameType : String)
  | invalidUuidLength (expected actual : ℕ)
  | invalidUuidFormat (message : String)
  | invalidTargetCount (received : ℕ) (reason : String)
  | invalidName (nameType : String)
  | invalidProtocol (url : String)
  | emptyAddress
  | invalidPort (port : String)
  | invalidUtf8
  | missingUuid
  | missingName
  | missingPassword
  | emptyPassword
  | invalidJson (message : String)
  | invalidHeaderType (headerType : String)
  | invalidContentType (contentType : String)
  | missingPath
  | missingState
  | unexpectedBody
  | missingBody
  | invalidStateCode (code : ℤ)
  deriving DecidableEq, Repr

end Fernq
