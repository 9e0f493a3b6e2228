/-
Constants, errors and the third-party primitives of the crate.  The primitives
and the overflow-check setting of the build profile are one parameter; what a
result relies on is a named hypothesis about it.
-/
import Oscore.Lib.Rust
import Mathlib.Tactic

namespace Oscore

open Rust

/-! Capacities of the crate. -/

@[simp] abbrev keyLen : Nat := 16
@[simp] abbrev nonceLen : Nat := 13
@[simp] abbrev tagLen : Nat := 8
@[simp] abbrev saltMaxLen : Nat := 8
@[simp] abbrev pivMaxLen : Nat := 5
@[simp] abbrev idContextCapacity : Nat := 8
@[simp] abbrev nonceIdEnd : Nat := 8
@[simp] abbrev nonceIdLen : Nat := nonceIdEnd - 1
@[simp] abbrev windowSize : Nat := 32

/-- `OSCORE_OPTION_MAX_LEN` -/
@[simp] abbrev oscoreOptionMaxLen : Nat :=
  1 + pivMaxLen + 1 + idContextCapacity + nonceIdLen

/-- `CT_CAP`: capacity of a protected message. -/
@[simp] abbrev ctCap : Nat := 280

/-- `PT_CAP`: capacity of a plaintext being unprotected. -/
@[simp] abbrev ptCap : Nat := 256

/-- `OUT_CAP` and `RECEIVER_OUTPUT_CAP`: capacity of the released options and
payload. -/
@[simp] abbrev outCap : Nat := 128

/-- AES-CCM-16-64-128 -/
abbrev algAead : UInt8 := 10

structure BufferTooSmall where
  needed : Nat
  available : Nat
deriving Repr, DecidableEq

inductive OscoreError where
  | invalidParam
  | noContext
  | replay
  | encryptFailed
  | decryptFailed
  | bufferTooSmall (sizes : BufferTooSmall)
  | keyDerivation
  | seqExhausted
  | entropyFailure
deriving Repr, DecidableEq

abbrev Key := Block keyLen
abbrev Nonce := Block nonceLen
abbrev Tag := Block tagLen
abbrev Digest := Block 32

/-- The `sha2`, `hmac`, `hkdf` and `ccm` crates.  AES-CCM works in place, so a
ciphertext without its tag is as long as the plaintext. -/
structure Crypto where
  /-- Whether the build profile checks integer overflow. -/
  overflowChecks : Bool
  sha256 : Bytes → Digest
  hmacSha256 : Bytes → Bytes → Digest
  hkdfExpand : Digest → Bytes → (length : Nat) → Block length
  ccmEncrypt : Key → Nonce → Bytes → Bytes → Option (Bytes × Tag)
  ccmDecrypt : Key → Nonce → Bytes → Bytes → Tag → Option Bytes
  ccmEncrypt_length : ∀ key nonce aad plaintext ciphertext tag,
    ccmEncrypt key nonce aad plaintext = some (ciphertext, tag) →
      ciphertext.length = plaintext.length
  ccmDecrypt_length : ∀ key nonce aad ciphertext tag plaintext,
    ccmDecrypt key nonce aad ciphertext tag = some plaintext →
      plaintext.length = ciphertext.length

namespace Crypto

/-- HKDF-Extract is HMAC keyed by the salt. -/
def hkdfExtract (C : Crypto) (salt ikm : Bytes) : Digest :=
  C.hmacSha256 salt ikm

/-- AES-CCM with a two-byte length field encrypts every message below 2^16
bytes, and decryption returns what was encrypted. -/
def AeadCorrect (C : Crypto) : Prop :=
  ∀ key nonce aad plaintext, plaintext.length < 2 ^ 16 →
    ∃ ciphertext tag,
      C.ccmEncrypt key nonce aad plaintext = some (ciphertext, tag) ∧
      C.ccmDecrypt key nonce aad ciphertext tag = some plaintext

/-- An HMAC key shorter than the 64-byte block is padded with zero bytes. -/
def padBlock (key : Bytes) : Bytes :=
  key ++ List.replicate (64 - key.length) 0

/-- HMAC uses a key of at most one block only through its padded form. -/
def HmacPads (C : Crypto) : Prop :=
  ∀ key message, key.length ≤ 64 →
    C.hmacSha256 (padBlock key) message = C.hmacSha256 key message

/-! A stand-in for the primitives, to run the model on concrete inputs. -/

/-- The low bytes of a number. -/
def blockOfNat (length value : Nat) : Block length :=
  ⟨(List.range length).map fun i => UInt8.ofNat (value >>> (8 * i)), by simp⟩

/-- An injective number of a byte string. -/
def mix (bytes : Bytes) : Nat :=
  bytes.foldl (fun acc byte => acc * 257 + byte.toNat + 1) 0

def standInTag (key : Key) (nonce : Nonce) (aad body : Bytes) : Tag :=
  blockOfNat tagLen (mix (key.val ++ nonce.val ++ aad ++ body))

def sampleKey : Key := blockOfNat keyLen 7

/-- Checksums in the place of hashes, and a tag over the plaintext. -/
def standIn : Crypto where
  overflowChecks := true
  sha256 input := blockOfNat 32 (mix input)
  hmacSha256 key message := blockOfNat 32 (mix (padBlock key ++ message))
  hkdfExpand prk info length := blockOfNat length (mix (prk.val ++ info))
  ccmEncrypt key nonce aad plaintext :=
    some (plaintext, standInTag key nonce aad plaintext)
  ccmDecrypt key nonce aad ciphertext tag :=
    if tag = standInTag key nonce aad ciphertext then some ciphertext else none
  ccmEncrypt_length := by
    rintro key nonce aad plaintext ciphertext tag ⟨⟩
    rfl
  ccmDecrypt_length := by
    intro key nonce aad ciphertext tag plaintext h
    split at h
    · cases h
      rfl
    · cases h

theorem standIn_aeadCorrect : standIn.AeadCorrect := by
  intro key nonce aad plaintext _
  exact ⟨plaintext, standInTag key nonce aad plaintext, rfl, if_pos rfl⟩

theorem padBlock_padBlock {key : Bytes} (hkey : key.length ≤ 64) :
    padBlock (padBlock key) = padBlock key := by
  have hlength : (padBlock key).length = 64 := by
    simp only [padBlock, List.length_append, List.length_replicate]
    omega
  rw [padBlock, hlength, Nat.sub_self, List.replicate_zero, List.append_nil]

theorem standIn_hmacPads : standIn.HmacPads := by
  intro key message hkey
  simp only [standIn, padBlock_padBlock hkey]

end Crypto

end Oscore
