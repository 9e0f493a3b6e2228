/-
Key, IV, identifier, AAD and nonce construction.  The CBOR encoders write into
fixed buffers at hand-maintained offsets; a write past the end is a panic.
-/
import Oscore.SeqNum
import Oscore.Crypto

namespace Oscore

open Rust

/-- `"LICHEN OSCORE sender context\0"` -/
def contextIdLabel : Bytes :=
  [0x4c, 0x49, 0x43, 0x48, 0x45, 0x4e, 0x20, 0x4f, 0x53, 0x43, 0x4f, 0x52,
    0x45, 0x20, 0x73, 0x65, 0x6e, 0x64, 0x65, 0x72, 0x20, 0x63, 0x6f, 0x6e,
    0x74, 0x65, 0x78, 0x74, 0x00]

/-- Stable identifier for one directional OSCORE sender context. -/
abbrev ContextId := Digest

/-- One hashed field: its length in one byte, then its bytes. -/
def lengthPrefixed (part : Bytes) : Bytes :=
  UInt8.ofNat part.length :: part

/-- Everything `derive_context_id` feeds to the hash. -/
def contextIdPreimage (masterSecret masterSalt : Bytes)
    (idContext : Option Bytes) (senderId : Bytes) : Bytes :=
  contextIdLabel ++ lengthPrefixed masterSecret ++ lengthPrefixed masterSalt ++
    (match idContext with
      | some bytes => 1 :: lengthPrefixed bytes
      | none => [0]) ++
    lengthPrefixed senderId

def deriveContextId (C : Crypto) (masterSecret : Key) (masterSalt : Bytes)
    (idContext : Option Bytes) (senderId : Bytes) : ContextId :=
  C.sha256 (contextIdPreimage masterSecret.val masterSalt idContext senderId)

/-- A CBOR string head as the encoders of this crate write it: major type and
length in one byte below 24, else a second byte with the length. -/
def cborHead (major : UInt8) (length : Nat) : Bytes :=
  if length ≤ 23 then [major ||| UInt8.ofNat length]
  else [major + 0x18, UInt8.ofNat length]

def keyType : Bytes := [0x4b, 0x65, 0x79]

def ivType : Bytes := [0x49, 0x56]

/-- HKDF info `[id, id_context, alg_aead, type, L]`; the result is
`buf[..off]`. -/
def buildInfoCbor (id : Bytes) (idContext : Option Bytes) (typeStr : Bytes)
    (outLen : Nat) : Outcome OscoreError (HVec 64) := do
  let buf ← expect (HVec.empty.extend [0x85])
  let buf ← expect (buf.extend (cborHead 0x40 id.length))
  let buf ← expect (buf.extend id)
  let buf ← match idContext with
    | some idContext => do
        let buf ← expect (buf.extend (cborHead 0x40 idContext.length))
        expect (buf.extend idContext)
    | none => expect (buf.extend [0xf6])
  let buf ← expect (buf.extend [algAead])
  let buf ← expect (buf.extend (cborHead 0x60 typeStr.length))
  let buf ← expect (buf.extend typeStr)
  if outLen ≤ 23 then
    expect (buf.extend [UInt8.ofNat outLen])
  else if outLen ≤ 255 then
    expect (buf.extend [0x18, UInt8.ofNat outLen])
  else
    throw (.err .invalidParam)

def deriveKey (C : Crypto) (masterSecret : Key) (masterSalt id : Bytes)
    (idContext : Option Bytes) : Outcome OscoreError Key := do
  let info ← buildInfoCbor id idContext keyType keyLen
  return C.hkdfExpand (C.hkdfExtract masterSalt masterSecret.val) info.toList
    keyLen

def deriveIv (C : Crypto) (masterSecret : Key) (masterSalt : Bytes)
    (idContext : Option Bytes) : Outcome OscoreError Nonce := do
  let info ← buildInfoCbor [] idContext ivType nonceLen
  return C.hkdfExpand (C.hkdfExtract masterSalt masterSecret.val) info.toList
    nonceLen

/-- `"Encrypt0"` -/
def encrypt0 : Bytes := [0x45, 0x6e, 0x63, 0x72, 0x79, 0x70, 0x74, 0x30]

/-- The `aad_array`, built in a 64-byte buffer of its own. -/
def buildAadArray (requestKid requestPiv : Bytes) :
    Outcome OscoreError (HVec 64) := do
  let inner ← expect (HVec.empty.extend [0x85])
  let inner ← expect (inner.extend [0x01])
  let inner ← expect (inner.extend [0x81])
  let inner ← expect (inner.extend [algAead])
  failIf (requestKid.length > 23) .invalidParam
  let inner ← expect (inner.extend [0x40 ||| UInt8.ofNat requestKid.length])
  let inner ← expect (inner.extend requestKid)
  failIf (requestPiv.length > 23) .invalidParam
  let inner ← expect (inner.extend [0x40 ||| UInt8.ofNat requestPiv.length])
  let inner ← expect (inner.extend requestPiv)
  expect (inner.extend [0x40])

/-- `Enc_structure` of RFC 8613 Section 5.4 in a buffer of `capacity` bytes. -/
def buildAadCbor (requestKid requestPiv : Bytes) (capacity : Nat) :
    Outcome OscoreError (HVec capacity) := do
  let inner ← buildAadArray requestKid requestPiv
  let ioff := inner.toList.length
  let buf ← okOr (HVec.empty.extend [0x83]) .invalidParam
  let buf ← okOr (buf.extend (0x68 :: encrypt0)) .invalidParam
  let buf ← okOr (buf.extend [0x40]) .invalidParam
  let buf ← okOr (buf.extend (cborHead 0x40 ioff)) .invalidParam
  okOr (buf.extend inner.toList) .invalidParam

/-- The ID field of a nonce: left-padded to seven bytes. -/
def nonceIdField (senderId : Bytes) : Bytes :=
  if senderId.length ≤ nonceIdLen then
    List.replicate (nonceIdLen - senderId.length) 0 ++ senderId
  else
    List.replicate nonceIdLen 0

/-- The PIV field of a nonce: left-padded to five bytes. -/
def noncePivField (piv : Bytes) : Bytes :=
  if piv ≠ [] ∧ piv.length ≤ pivMaxLen then
    List.replicate (pivMaxLen - piv.length) 0 ++ piv
  else
    List.replicate pivMaxLen 0

theorem length_nonceIdField (senderId : Bytes) :
    (nonceIdField senderId).length = 7 := by
  unfold nonceIdField
  split
  · rename_i h
    simp only [List.length_append, List.length_replicate, nonceIdLen,
      nonceIdEnd] at h ⊢
    omega
  · simp

theorem length_noncePivField (piv : Bytes) :
    (noncePivField piv).length = 5 := by
  unfold noncePivField
  split
  · rename_i h
    simp only [List.length_append, List.length_replicate, pivMaxLen] at h ⊢
    omega
  · simp

def computeNonce (senderId piv : Bytes) (commonIv : Nonce) : Nonce :=
  let nonce := UInt8.ofNat senderId.length ::
    (nonceIdField senderId ++ noncePivField piv)
  ⟨List.zipWith (· ^^^ ·) nonce commonIv.val, by
    simp [nonce, length_nonceIdField, length_noncePivField, commonIv.property]⟩

end Oscore
