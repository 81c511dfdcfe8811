import SolanaStablecoin.Backend.Indexer
import SolanaStablecoin.Base.Checked
import SolanaStablecoin.Base.Chunks
import SolanaStablecoin.Base.Layout

/-! The circuit-breaker endpoint (`circuit_breaker.rs`): a signed transaction comes in base64, is
taken apart, and is passed on if it looks like the breaker's. The answer of the cluster and the
audit log are left out. -/

namespace SolanaStablecoin.Backend

/-- What stops a computation: a panic, or a message for the caller. -/
inductive Failure where
  | panic
  | error (message : String)
deriving DecidableEq

/-- `as_bytes`. -/
def asBytes (s : String) : List UInt8 := s.toList.flatMap String.utf8EncodeChar

/-- Hexadecimal digits, as `{:#x}` prints them. -/
def hex (n : Nat) : String := "0x" ++ String.ofList (Nat.toDigits 16 n)

/-- A position of a buffer, which must be inside. -/
def index (buf : List UInt8) (i : Nat) : Except Failure UInt8 := buf[i]?.okOr .panic

/-- `buf[start..stop]`. -/
def slice (buf : List UInt8) (start stop : Nat) : Except Failure (List UInt8) :=
  if start ≤ stop ∧ stop ≤ buf.length then .ok ((buf.drop start).take (stop - start))
  else .error .panic

/-! ## Encoding helpers -/

def chars : List UInt8 :=
  asBytes "ABCDEFGHIJKLMNOPQRSTUVWXYZabcdefghijklmnopqrstuvwxyz0123456789+/"

/-- The character for the last six bits. -/
def base64Char (n : UInt32) : Char := .ofUInt8 (chars.getD (n &&& 0x3f).toNat 0)

/-- No chunk is empty. -/
def encodeChunk (chunk : List UInt8) : List Char :=
  let b0 := (chunk.getD 0 0).toUInt32
  let b1 := (chunk.getD 1 0).toUInt32
  let b2 := (chunk.getD 2 0).toUInt32
  let n := b0 <<< 16 ||| b1 <<< 8 ||| b2
  [ base64Char (n >>> 18), base64Char (n >>> 12),
    if chunk.length > 1 then base64Char (n >>> 6) else '=',
    if chunk.length > 2 then base64Char n else '=' ]

def base64Encode (data : List UInt8) : String :=
  .ofList ((Chunks.chunks 3 data).flatMap encodeChunk)

def charVal (c : UInt8) : Except Failure UInt32 :=
  if 'A'.toUInt8 ≤ c ∧ c ≤ 'Z'.toUInt8 then .ok (c - 'A'.toUInt8).toUInt32
  else if 'a'.toUInt8 ≤ c ∧ c ≤ 'z'.toUInt8 then .ok (c - 'a'.toUInt8 + 26).toUInt32
  else if '0'.toUInt8 ≤ c ∧ c ≤ '9'.toUInt8 then .ok (c - '0'.toUInt8 + 52).toUInt32
  else if c = '+'.toUInt8 then .ok 62
  else if c = '/'.toUInt8 then .ok 63
  else if c = '='.toUInt8 then .ok 0
  else .error (.error ("invalid base64 character: " ++ hex c.toNat))

def decodeChunk (chunk : List UInt8) : Except Failure (List UInt8) := do
  let v0 ← charVal (← index chunk 0)
  let v1 ← charVal (← index chunk 1)
  let c2 ← index chunk 2
  let v2 ← charVal c2
  let c3 ← index chunk 3
  let v3 ← charVal c3
  let n := v0 <<< 18 ||| v1 <<< 12 ||| v2 <<< 6 ||| v3
  pure ([(n >>> 16 &&& 0xff).toUInt8] ++
    (if c2 ≠ '='.toUInt8 then [(n >>> 8 &&& 0xff).toUInt8] else []) ++
    if c3 ≠ '='.toUInt8 then [(n &&& 0xff).toUInt8] else [])

def base64Decode (s : String) : Except Failure (List UInt8) := do
  let s := asBytes (trim s)
  require (s.length % 4 = 0)
    (.error ("base64 length " ++ s.length.repr ++ " not a multiple of 4"))
  let out ← (Chunks.chunks 4 s).mapM decodeChunk
  pure out.flatten

/-! ## Transaction validation -/

/-- What comes from other crates: the digest, and addresses in base 58. -/
structure Sdk where
  sha256 : List UInt8 → List UInt8
  pubkeyFromStr : String → Option (List UInt8)
  pubkeyToString : List UInt8 → String
  length_sha256 (data : List UInt8) : (sha256 data).length = 32

def programId : String := "ApQTVMKdtUUrGXgL6Hhzt9W2JFyLt6vGnHuimcdXe811"

def flagCircuitBreaker : Nat := 1

variable (sdk : Sdk)

def anchorDiscriminator (namespaceName : String) : List UInt8 :=
  (sdk.sha256 (asBytes namespaceName)).take 8

/-- The loop goes round three times at most: the shift stops it. -/
def readCompactU16.go (buf : List UInt8) (offset : Nat) :
    Nat → UInt16 → Nat → Nat → Except Failure (Option (UInt16 × Nat))
  | 0, _, _, _ => pure none
  | rounds + 1, val, shift, consumed => do
    if offset + consumed ≥ buf.length then pure none
    else
      let byte ← index buf (offset + consumed)
      let consumed := consumed + 1
      let val := val ||| (byte &&& 0x7f).toUInt16 <<< .ofNat shift
      if byte &&& 0x80 = 0 then pure (some (val, consumed))
      else
        let shift := shift + 7
        if shift ≥ 16 then pure none
        else go buf offset rounds val shift consumed

/-- The number and how many bytes it takes. -/
def readCompactU16 (buf : List UInt8) (offset : Nat) : Except Failure (Option (UInt16 × Nat)) :=
  readCompactU16.go buf offset 3 0 0 0

/-- A length at the cursor, which moves behind it. -/
def readLength (txBytes : List UInt8) (cursor : Nat) (what : String) :
    Except Failure (Nat × Nat) := do
  let (n, consumed) ← (← readCompactU16 txBytes cursor).okOr (.error ("failed to read " ++ what))
  pure (n.toNat, cursor + consumed)

/-- Skips the signatures. -/
def readSignatures (txBytes : List UInt8) : Except Failure Nat := do
  let (numSigs, cursor) ← readLength txBytes 0 "signature count"
  require (numSigs ≠ 0) (.error "transaction has no signatures")
  require (numSigs ≤ 8) (.error ("unexpectedly many signatures: " ++ numSigs.repr))
  let sigsEnd := cursor + numSigs * 64
  require (sigsEnd ≤ txBytes.length) (.error "transaction truncated in signature section")
  let _firstSig ← slice txBytes cursor (cursor + 64)
  pure sigsEnd

/-- `tx_bytes[start..start + 32].try_into().unwrap()`. -/
def readKey (txBytes : List UInt8) (start : Nat) : Except Failure (List UInt8) := do
  let key ← slice txBytes start (start + 32)
  require (key.length = 32) .panic
  pure key

/-- The fee payer and all account keys, from the header up to the blockhash. -/
def readKeys (txBytes : List UInt8) (cursor : Nat) :
    Except Failure (List UInt8 × List (List UInt8) × Nat) := do
  require (cursor + 3 ≤ txBytes.length) (.error "transaction truncated before message header")
  let numRequiredSignatures ← index txBytes cursor
  let (numKeys, cursor) ← readLength txBytes (cursor + 3) "account key count"
  require (numKeys ≠ 0 ∧ numRequiredSignatures ≠ 0) (.error "no account keys or no signers")
  let keysEnd := cursor + numKeys * 32
  require (keysEnd ≤ txBytes.length) (.error "transaction truncated in account keys section")
  let feePayer ← readKey txBytes cursor
  let allKeys ← (List.range numKeys).mapM fun i => readKey txBytes (cursor + i * 32)
  require (keysEnd + 32 ≤ txBytes.length) (.error "transaction truncated before blockhash")
  pure (feePayer, allKeys, keysEnd + 32)

/-- The data of the first instruction, which must be one of the program. -/
def readInstruction (txBytes : List UInt8) (cursor : Nat) (allKeys : List (List UInt8)) :
    Except Failure (List UInt8) := do
  let (numIxs, cursor) ← readLength txBytes cursor "instruction count"
  require (numIxs ≠ 0) (.error "transaction contains no instructions")
  require (cursor < txBytes.length)
    (.error "transaction truncated before instruction program index")
  let programIndex ← index txBytes cursor
  require (programIndex.toNat < allKeys.length)
    (.error ("program index " ++ programIndex.toNat.repr ++ " out of range"))
  let ixProgramId ← allKeys[programIndex.toNat]?.okOr .panic
  let expectedProgram ← (sdk.pubkeyFromStr programId).okOr
    (.error "internal: invalid PROGRAM_ID constant")
  require (ixProgramId = expectedProgram)
    (.error ("instruction targets unexpected program " ++ sdk.pubkeyToString ixProgramId ++
      ", expected " ++ sdk.pubkeyToString expectedProgram))
  let (numIxAccounts, cursor) ← readLength txBytes (cursor + 1) "instruction account count"
  let (dataLen, cursor) ← readLength txBytes (cursor + numIxAccounts) "instruction data length"
  require (cursor + dataLen ≤ txBytes.length)
    (.error "transaction truncated in instruction data")
  slice txBytes cursor (cursor + dataLen)

def expectedIx (enabled : Bool) : String :=
  if enabled then "global:set_feature_flag" else "global:clear_feature_flag"

/-- The discriminator and the flag. -/
def checkData (ixData : List UInt8) (enabled : Bool) : Except Failure Unit := do
  require (16 ≤ ixData.length)
    (.error ("instruction data too short: " ++ ixData.length.repr ++ " bytes"))
  let discriminator ← slice ixData 0 8
  require (discriminator = anchorDiscriminator sdk (expectedIx enabled))
    (.error ("instruction discriminator mismatch — expected " ++ expectedIx enabled ++
      " discriminator"))
  let flagBytes ← slice ixData 8 16
  let flagVal := Layout.ofLeBytes flagBytes
  require (flagVal = flagCircuitBreaker)
    (.error ("instruction flag value mismatch: got " ++ hex flagVal ++ ", expected " ++
      hex flagCircuitBreaker))

/-- The signer and the bytes to send. The mint is not looked at. -/
def validateCircuitBreakerTx (txBytes : List UInt8) (_mint : String) (enabled : Bool) :
    Except Failure (String × List UInt8) := do
  require (1 + 64 + 3 + 1 + 32 + 32 ≤ txBytes.length) (.error "transaction too short")
  let cursor ← readSignatures txBytes
  let (feePayer, allKeys, cursor) ← readKeys txBytes cursor
  let ixData ← readInstruction sdk txBytes cursor allKeys
  checkData sdk ixData enabled
  pure (sdk.pubkeyToString feePayer, txBytes)

structure CircuitBreakerRequest where
  mint : String
  enabled : Bool
  signedTransaction : String

/-- The text is put before the message of a failure. -/
def Failure.within (text : String) : Failure → Failure
  | panic => .panic
  | error message => .error (text ++ message)

/-- The signer and the bytes that are sent for a request. -/
def setCircuitBreaker (req : CircuitBreakerRequest) : Except Failure (String × List UInt8) := do
  let _ ← (sdk.pubkeyFromStr req.mint).okOr (.error ("Invalid mint pubkey: " ++ req.mint))
  let txBytes ← (base64Decode req.signedTransaction).mapError
    (.within "signed_transaction: invalid base64 — ")
  (validateCircuitBreakerTx sdk txBytes req.mint req.enabled).mapError
    (.within "Transaction validation failed: ")

end SolanaStablecoin.Backend
