/-
What the two roles share: their keys and protocol state, how a failure wipes
them, and the parts of the messages that one side makes and the other undoes.
-/
import Oscore.Edhoc.Transcript
import Oscore.Unprotect

namespace Oscore.Edhoc

open Rust

/-- A use of a primitive: an agreement with a peer key, a hash, an expansion, a
signature made, a signature verified under a key. -/
inductive Query where
  | agreed (publicKey : Bytes32)
  | hashed (input : Bytes)
  | expanded (prk : Bytes32) (info : Bytes)
  | signed (message signature : Bytes)
  | verified (publicKey : Bytes32) (message signature : Bytes)
deriving DecidableEq

/-- The fields that `EdhocInitiator` and `EdhocResponder` and their states have
in common.  The log `asked` is no part of the code: nothing reads it. -/
structure Endpoint where
  privkey : Bytes32
  pubkey : Bytes32
  ephSecret : Option Bytes32
  ephPublic : Bytes32
  msg1 : HVec 64
  prk2e : Bytes32
  prk3e2m : Bytes32
  prk4e3m : Bytes32
  th2 : Bytes32
  th3 : Bytes32
  th4 : Bytes32
  completed : Bool
  lifecycle : Lifecycle
  asked : List Query
deriving DecidableEq

namespace Endpoint

/-- The keys from their seeds, and the default state. -/
def new (X : Suite) (seed ephSeed : Bytes32) : Endpoint where
  privkey := (X.fromSeed seed).1
  pubkey := (X.fromSeed seed).2
  ephSecret := some ephSeed
  ephPublic := X.publicKey ephSeed
  msg1 := HVec.empty
  prk2e := zeros 32
  prk3e2m := zeros 32
  prk4e3m := zeros 32
  th2 := zeros 32
  th3 := zeros 32
  th4 := zeros 32
  completed := false
  lifecycle := .created
  asked := []

/-- `zeroize` of the keys and of the state; a buffer keeps its length. -/
def wipe (self : Endpoint) (lifecycle : Lifecycle) : Endpoint :=
  { self with
    privkey := zeros 32
    ephSecret := none
    msg1 := ⟨List.replicate self.msg1.toList.length 0, by
      rw [List.length_replicate]
      exact self.msg1.length_le⟩
    prk2e := zeros 32
    prk3e2m := zeros 32
    prk4e3m := zeros 32
    th2 := zeros 32
    th3 := zeros 32
    th4 := zeros 32
    completed := false
    lifecycle }

/-- What a failure and `zeroize` leave behind. -/
structure Wiped (endpoint : Endpoint) : Prop where
  privkey : endpoint.privkey = zeros 32
  ephSecret : endpoint.ephSecret = none
  prk2e : endpoint.prk2e = zeros 32
  prk3e2m : endpoint.prk3e2m = zeros 32
  prk4e3m : endpoint.prk4e3m = zeros 32
  th2 : endpoint.th2 = zeros 32
  th3 : endpoint.th3 = zeros 32
  th4 : endpoint.th4 = zeros 32
  completed : endpoint.completed = false

theorem wiped_wipe (self : Endpoint) (lifecycle : Lifecycle) :
    (self.wipe lifecycle).Wiped :=
  ⟨rfl, rfl, rfl, rfl, rfl, rfl, rfl, rfl, rfl⟩

/-- How often the ephemeral secret was used. -/
def agreements (self : Endpoint) : Nat :=
  (self.asked.filter fun query => query matches .agreed _).length

/-- The agreements made, and the one that is still possible. -/
def budget (self : Endpoint) : Nat :=
  self.agreements + if self.ephSecret = none then 0 else 1

theorem budget_of_none {self : Endpoint} (h : self.ephSecret = none) :
    self.budget = self.agreements := by
  rw [budget, if_pos h, Nat.add_zero]

theorem budget_of_some {self : Endpoint} {secret : Bytes32}
    (h : self.ephSecret = some secret) :
    self.budget = self.agreements + 1 := by
  rw [budget, if_neg (by simp [h])]

/-- The outcome of a failure that wipes the state. -/
structure Poisoned (before after : Endpoint) : Prop where
  wiped : after.Wiped
  lifecycle : after.lifecycle = .failed
  budget_le : after.budget ≤ before.budget

theorem poisoned_wipe {before self : Endpoint}
    (h : self.agreements ≤ before.budget) :
    before.Poisoned (self.wipe .failed) :=
  ⟨self.wiped_wipe _, rfl, by
    rw [budget_of_none rfl]
    exact h⟩

end Endpoint

/-! Message parts. -/

/-- An authenticated plaintext, with the credential it was signed for. -/
structure Authenticated where
  credential : HVec 80
  plaintext : HVec 128
  queries : List Query

/-- The bytes as an array, if they are as many. -/
def toBlock (n : Nat) (bytes : Bytes) : Option (Block n) :=
  if h : bytes.length = n then some ⟨bytes, h⟩ else none

/-- `block.copy_from_slice(bytes)`, which panics on any other length. -/
def copyFromSlice (n : Nat) (bytes : Bytes) : Outcome EdhocError (Block n) :=
  expect (toBlock n bytes)

/-- Encrypt or decrypt with KEYSTREAM_2. -/
def xorKeystream2 (X : Suite) (prk2e th2 : Bytes32) (text : Bytes) :
    Outcome EdhocError (HVec 128) := do
  let keystream2 ← edhocKdf X prk2e labelKeystream2 th2.val text.length
  extendErr HVec.empty (List.zipWith (· ^^^ ·) text keystream2.val)

/-- `K_3` and `IV_3` -/
def message3Keys (X : Suite) (prk3e2m th3 : Bytes32) :
    Outcome EdhocError (Key × Nonce) := do
  let k3 ← edhocKdf X prk3e2m labelK3 th3.val keyLen
  let iv3 ← edhocKdf X prk3e2m labelIv3 th3.val nonceLen
  return (k3, iv3)

/-- `A_3` -/
def buildA3 (th3 : Bytes32) : Outcome EdhocError (HVec 64) := do
  let a3 ← pushErr HVec.empty 0x83
  let a3 ← pushErr a3 0x68
  let a3 ← extendErr a3 encrypt0
  let a3 ← pushErr a3 0x40
  let a3 ← pushErr a3 0x58
  let a3 ← pushErr a3 32
  extendErr a3 th3.val

/-- A signature at the end of a plaintext verifies under a valid key, over the
structure of the ID_CRED, the transcript hash, the credential and the MAC. -/
structure Verified (X : Suite) (mac : Block 32) (th : Bytes32)
    (idCred plaintext : Bytes) (peer : PeerCredential)
    (signature : Block X.sigLen) : Prop where
  validPoint : X.validPoint peer.publicKey = true
  decodes : X.decodes peer.publicKey = true
  /-- A credential of this crate holds the key. -/
  holdsKey : ∀ pubkey, peer.credential = credentialBytes pubkey →
    peer.publicKey = pubkey
  verify : X.verify peer.publicKey
    (signatureBytes idCred th peer.credential mac.val) signature = true
  suffix : signature.val <:+ plaintext

variable {X : Suite}

theorem toBlock_eq_some {n : Nat} {bytes : Bytes} {block : Block n} :
    toBlock n bytes = some block ↔ block.val = bytes := by
  unfold toBlock
  by_cases h : bytes.length = n
  · rw [dif_pos h, Option.some.injEq, Subtype.ext_iff]
    exact eq_comm
  · rw [dif_neg h]
    refine iff_of_false (by simp) ?_
    rintro rfl
    exact h block.property

theorem copyFromSlice_meets {n : Nat} {bytes : Bytes}
    (h : bytes.length = n) :
    (copyFromSlice n bytes).Meets (·.val = bytes) := by
  rw [copyFromSlice, toBlock, dif_pos h]
  exact rfl

theorem copyFromSlice_val {n : Nat} (block : Block n) :
    copyFromSlice n block.val = .ok block := by
  rw [copyFromSlice, toBlock_eq_some.mpr rfl]
  rfl

/-- A byte string behind this offset is a signature and ends the plaintext. -/
def SignatureAt (X : Suite) (plaintext : Bytes) (offset : Nat) : Prop :=
  offset ≤ plaintext.length ∧
    ∀ value n, parseBstr (plaintext.drop offset) = .ok (value, n) →
      value.length = X.sigLen ∧ value <:+ plaintext

/-- The check of the signature in a plaintext. -/
theorem signatureAt_of_read {plaintext : Bytes} {offset : Nat}
    {item : Bytes × Nat} (hoffset : offset ≤ plaintext.length)
    (hitem : parseBstr (plaintext.drop offset) = .ok item)
    (hcheck : ¬ (item.1.length ≠ X.sigLen ∨
      offset + item.2 ≠ plaintext.length)) :
    SignatureAt X plaintext offset := by
  refine ⟨hoffset, fun value n hvalue => ?_⟩
  cases Except.ok.inj (hitem.symm.trans hvalue)
  obtain ⟨hlen, hend⟩ := not_or.mp hcheck
  refine ⟨not_not.mp hlen, ?_⟩
  obtain ⟨head, rest, -, hdata, hn⟩ :=
    (parseBstr_meets (plaintext.drop offset)).of_ok hitem
  simp only at hdata hn hend
  have hlength := congrArg List.length hdata
  simp only [List.length_drop, List.length_append] at hlength
  have hrest : rest = [] := List.length_eq_zero_iff.mp (by omega)
  rw [hrest, List.append_nil] at hdata
  exact (List.suffix_append head value).trans
    (hdata ▸ List.drop_suffix offset plaintext)

theorem length_bstr_signature (signature : Block X.sigLen) :
    (Cbor.bstr signature.val).length ≤ 66 := by
  rw [Cbor.bstr, List.length_append, signature.property]
  rcases X.sigLen_eq with h | h <;> rw [h] <;> decide

theorem bstrMax_of_signature (signature : Block X.sigLen) :
    signature.val.length ≤ Cbor.bstrMax := by
  rw [signature.property]
  rcases X.sigLen_eq with h | h <;> rw [h] <;> decide

/-- A signature fits behind the other fields of a plaintext. -/
theorem exists_signedPlaintext (fields : Bytes) (h : fields.length ≤ 24)
    (signature : Block X.sigLen) :
    ∃ out : HVec 128,
      extendErr HVec.empty (fields ++ Cbor.bstr signature.val) = .ok out ∧
        out.toList = fields ++ Cbor.bstr signature.val := by
  have hlength := length_bstr_signature signature
  refine exists_extendErr_empty ?_
  rw [List.length_append]
  omega

/-- What a role signs: ID_CRED and credential of its own, and a MAC. -/
def signedBytes (X : Suite) (pubkey prk th : Bytes32) (label : Nat)
    (context : Bytes) : Bytes :=
  signatureBytes (idCredBytes X pubkey) th (credentialBytes pubkey)
    (X.hkdfExpand prk (kdfInfo label context 32) 32).val

def ownSignature (X : Suite) (privkey pubkey prk th : Bytes32) (label : Nat)
    (context : Bytes) : Block X.sigLen :=
  X.sign privkey pubkey (signedBytes X pubkey prk th label context)

def signQueries (X : Suite) (privkey pubkey prk th : Bytes32) (label : Nat)
    (context : Bytes) : List Query :=
  [.signed (signedBytes X pubkey prk th label context)
      (ownSignature X privkey pubkey prk th label context).val,
    .expanded prk (kdfInfo label context 32)]

theorem exists_signedBytes (X : Suite) (pubkey prk th : Bytes32) (label : Nat)
    (context : Bytes) :
    ∃ m, buildSignatureStructure (idCredBytes X pubkey) th
        (credentialBytes pubkey)
        (X.hkdfExpand prk (kdfInfo label context 32) 32).val = .ok m ∧
      m.toList = signedBytes X pubkey prk th label context := by
  have hid := length_idCredBytes (X := X) pubkey
  have hcred := length_credentialBytes pubkey
  have hmac := (X.hkdfExpand prk (kdfInfo label context 32) 32).property
  exact buildSignatureStructure_of_le (le_of_eq_of_le hid (by decide))
    (le_of_eq hcred) (le_of_eq hmac) th

theorem plaintext_le (plaintext : HVec 128) :
    plaintext.toList.length ≤ Cbor.bstrMax :=
  le_trans plaintext.length_le (by decide)

theorem xorKeystream2_meets (prk2e th2 : Bytes32) (text : Bytes) :
    (xorKeystream2 X prk2e th2 text).Meets fun _ => True :=
  (edhocKdf_whole _ _ _ _).meets.bind fun _ _ =>
    (extendErr_meets _ _).mono fun _ _ => trivial

theorem zipWith_xor_cancel {text keystream : Bytes}
    (h : text.length ≤ keystream.length) :
    List.zipWith (· ^^^ ·) (List.zipWith (· ^^^ ·) text keystream) keystream =
      text := by
  induction text generalizing keystream with
  | nil => rfl
  | cons byte text ih =>
      cases keystream with
      | nil => simp at h
      | cons key keystream =>
          simp only [List.zipWith_cons_cons, List.cons.injEq]
          refine ⟨?_, ih (by simpa using h)⟩
          rw [UInt8.xor_assoc, UInt8.xor_self, UInt8.xor_zero]

/-- What one side encrypts the other decrypts. -/
theorem exists_xorKeystream2 (X : Suite) (prk2e th2 : Bytes32)
    (text : HVec 128) :
    ∃ sealed : HVec 128,
      xorKeystream2 X prk2e th2 text.toList = .ok sealed ∧
        sealed.toList.length = text.toList.length ∧
        xorKeystream2 X prk2e th2 sealed.toList = .ok text := by
  have hth : th2.val.length ≤ 96 := by
    rw [th2.property]
    decide
  generalize hstream : X.hkdfExpand prk2e
    (kdfInfo labelKeystream2 th2.val text.toList.length)
    text.toList.length = keystream
  have hkdf : edhocKdf X prk2e labelKeystream2 th2.val text.toList.length =
      .ok keystream := by
    rw [edhocKdf_of_le (by decide) text.length_le hth, hstream]
  have hlength : (List.zipWith (· ^^^ ·) text.toList keystream.val).length =
      text.toList.length := by
    rw [List.length_zipWith, keystream.property, Nat.min_self]
  obtain ⟨sealed, hsealed, hbytes⟩ := exists_extendErr_empty (N := 128)
    (le_of_eq_of_le hlength text.length_le)
  rw [← hbytes] at hlength
  refine ⟨sealed, ?_, hlength, ?_⟩
  · rw [xorKeystream2, hkdf, Outcome.ok_bind, hsealed]
  · rw [xorKeystream2, hlength, hkdf, Outcome.ok_bind, hbytes,
      zipWith_xor_cancel (le_of_eq keystream.property.symm), extendErr_eq_ok]
    rfl

theorem exists_message3Keys (X : Suite) (prk3e2m th3 : Bytes32) :
    ∃ keys, message3Keys X prk3e2m th3 = .ok keys := by
  have hth : th3.val.length ≤ 96 := by
    rw [th3.property]
    decide
  rw [message3Keys, edhocKdf_of_le (by decide) (by decide) hth,
    Outcome.ok_bind, edhocKdf_of_le (by decide) (by decide) hth]
  exact ⟨_, rfl⟩

theorem exists_buildA3 (th3 : Bytes32) : ∃ a3, buildA3 th3 = .ok a3 := by
  simp only [buildA3, pushErr, extendErr_extendErr]
  refine ⟨_, exists_extendErr ?_⟩
  simp only [HVec.toList_empty, List.length_append, th3.property]
  decide

end Oscore.Edhoc
