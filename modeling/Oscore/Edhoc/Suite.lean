/-
Types, errors and primitives of the key exchange.  The signature scheme, the
curve and the point checks are one parameter beside those of the protected
messages, as the crate builds with either of two schemes.
-/
import Oscore.Crypto
import Oscore.Lib.Triple

namespace Oscore.Edhoc

open Rust

abbrev suite0 : UInt8 := 0

/-- `CONNECTION_ID_CAPACITY` -/
@[simp] abbrev connectionIdCapacity : Nat := 7

/-- `ID_CRED_MAX_LEN` -/
@[simp] abbrev idCredMaxLen : Nat := 64

/-- A key, a curve coordinate or a transcript hash. -/
abbrev Bytes32 := Block 32

/-- What `zeroize` leaves of an array. -/
def zeros (length : Nat) : Block length := ⟨List.replicate length 0, by simp⟩

/-- The `x25519-dalek`, `ed25519-dalek`, `schnorr48` and `curve25519-dalek`
crates. -/
structure Suite extends Crypto where
  /-- `SIG_LEN`, by feature. -/
  sigLen : Nat
  sigLen_eq : sigLen = 64 ∨ sigLen = 48
  /-- `SigningKey::from_seed` -/
  fromSeed : Bytes32 → Bytes32 × Bytes32
  sign : Bytes32 → Bytes32 → Bytes → Block sigLen
  /-- `VerifyingKey::from_bytes` returns a key. -/
  decodes : Bytes32 → Bool
  verify : Bytes32 → Bytes → Block sigLen → Bool
  /-- The bytes decompress to a torsion-free point that is not the identity. -/
  validPoint : Bytes32 → Bool
  /-- `PublicKey::from` -/
  publicKey : Bytes32 → Bytes32
  diffieHellman : Bytes32 → Bytes32 → Bytes32

/-- A stand-in for the primitives, to run the model on concrete inputs: keys
are their own public keys, and a signature is a checksum. -/
def Suite.standIn : Suite where
  toCrypto := Crypto.standIn
  sigLen := 64
  sigLen_eq := .inl rfl
  fromSeed seed := (seed, seed)
  sign _ publicKey message :=
    Crypto.blockOfNat 64 (Crypto.mix (publicKey.val ++ message))
  decodes _ := true
  verify publicKey message signature :=
    signature = Crypto.blockOfNat 64 (Crypto.mix (publicKey.val ++ message))
  validPoint _ := true
  publicKey secret := secret
  diffieHellman secret peer :=
    ⟨List.zipWith (· ^^^ ·) secret.val peer.val, by
      rw [List.length_zipWith, secret.property, peer.property, Nat.min_self]⟩

inductive EdhocError where
  | invalidState
  | invalidMessage
  | unsupportedSuite
  | signatureVerification
  | decryptFailed
  | bufferTooSmall
  | keyDerivation
deriving Repr, DecidableEq

inductive Lifecycle where
  | created
  | message1Created
  | awaitingMessage3
  | pendingMessage2
  | pendingMessage3
  | complete
  | failed
  | zeroized
deriving Repr, DecidableEq

/-- An EDHOC connection identifier in its raw byte-string form. -/
abbrev ConnectionId := HVec connectionIdCapacity

/-- `ConnectionId::new`; the only error is that of the capacity. -/
def ConnectionId.new (value : Bytes) : Outcome EdhocError ConnectionId :=
  okOr (HVec.ofBytes value) .bufferTooSmall

/-- `ConnectionId::from(u8)` -/
def ConnectionId.ofByte (value : UInt8) : ConnectionId :=
  ⟨[value], by simp⟩

/-- Credential reference carried by ID_CRED. -/
inductive IdCredReference where
  | kid (value : HVec idCredMaxLen)
  | x5t (algorithm : Int) (hash : HVec idCredMaxLen)
deriving DecidableEq

/-- Parsed ID_CRED with its map encoding. -/
structure IdCred where
  encoded : HVec idCredMaxLen
  reference : IdCredReference
deriving DecidableEq

/-- Peer authentication material supplied by the application. -/
structure PeerCredential where
  publicKey : Bytes32
  idCred : Bytes
  credential : Bytes
deriving DecidableEq

/-! Buffers. -/

variable {N : Nat}

def extendErr (buf : HVec N) (bytes : Bytes) : Outcome EdhocError (HVec N) :=
  okOr (buf.extend bytes) .bufferTooSmall

def pushErr (buf : HVec N) (byte : UInt8) : Outcome EdhocError (HVec N) :=
  extendErr buf [byte]

/-- `if data.len() <= i { return Err(InvalidMessage) }`, then `data[i]`. -/
def byteAt (data : Bytes) (i : Nat) : Outcome EdhocError UInt8 := do
  failIf (data.length ≤ i) .invalidMessage
  index data i

/-- A length check, then `(&data[first..first + len], first + len)`. -/
def takeItem (data : Bytes) (first len : Nat) :
    Outcome EdhocError (Bytes × Nat) := do
  failIf (data.length < first + len) .invalidMessage
  let value ← slice data first (first + len)
  return (value, first + len)

@[simp]
theorem extendErr_eq_ok {buf out : HVec N} {bytes : Bytes} :
    extendErr buf bytes = .ok out ↔ out.toList = buf.toList ++ bytes := by
  rw [extendErr, okOr_eq_ok, HVec.extend_eq_some]

@[simp]
theorem pushErr_eq_ok {buf out : HVec N} {byte : UInt8} :
    pushErr buf byte = .ok out ↔ out.toList = buf.toList ++ [byte] :=
  extendErr_eq_ok

theorem extendErr_meets (buf : HVec N) (bytes : Bytes) :
    (extendErr buf bytes).Meets fun out => out.toList = buf.toList ++ bytes :=
  (Outcome.Meets.okOr _ _).mono fun _ => HVec.extend_eq_some.mp

/-- Bytes that fit can be appended. -/
theorem exists_extendErr {buf : HVec N} {bytes : Bytes}
    (h : (buf.toList ++ bytes).length ≤ N) :
    extendErr buf bytes = .ok ⟨buf.toList ++ bytes, h⟩ :=
  extendErr_eq_ok.mpr rfl

theorem exists_extendErr_empty {bytes : Bytes} (h : bytes.length ≤ N) :
    ∃ out : HVec N, extendErr HVec.empty bytes = .ok out ∧
      out.toList = bytes :=
  ⟨⟨bytes, h⟩, extendErr_eq_ok.mpr rfl, rfl⟩

/-- Consecutive appends are one. -/
theorem extendErr_bind {α : Type} (buf : HVec N) (xs ys : Bytes)
    (k : HVec N → Outcome EdhocError α) :
    (extendErr buf xs >>= fun out => extendErr out ys >>= k) =
      extendErr buf (xs ++ ys) >>= k :=
  HVec.okOr_extend_bind buf xs ys _ k

theorem extendErr_extendErr (buf : HVec N) (xs ys : Bytes) :
    (extendErr buf xs >>= fun out => extendErr out ys) =
      extendErr buf (xs ++ ys) :=
  HVec.okOr_extend buf xs ys _

/-! All or nothing. -/

section AllOrNothing

variable {α β : Type}

/-- The call gives such a result where everything fits, and finds a buffer too
small everywhere else. -/
structure Whole (x : Outcome EdhocError α) (fits : Prop) (result : α → Prop) :
    Prop where
  ok : fits → ∃ a, x = .ok a ∧ result a
  error : ¬ fits → x = .error (.err .bufferTooSmall)

namespace Whole

variable {x : Outcome EdhocError α} {fits : Prop} {result : α → Prop}

theorem meets (h : Whole x fits result) :
    x.Meets fun a => fits ∧ result a := by
  by_cases hfits : fits
  · obtain ⟨a, rfl, hresult⟩ := h.ok hfits
    exact ⟨hfits, hresult⟩
  · rw [h.error hfits]
    exact .err _ _

theorem of_ok (h : Whole x fits result) {a : α} (hx : x = .ok a) :
    fits ∧ result a := h.meets.of_ok hx

theorem map (h : Whole x fits result) {f : α → β} {result' : β → Prop}
    (hf : ∀ a, result a → result' (f a)) :
    Whole (x >>= fun a => .ok (f a)) fits result' where
  ok hfits := by
    obtain ⟨a, rfl, hresult⟩ := h.ok hfits
    exact ⟨f a, rfl, hf a hresult⟩
  error hfits := by
    rw [h.error hfits]
    rfl

theorem congr (h : Whole x fits result) {fits' : Prop}
    (hiff : fits ↔ fits') : Whole x fits' result :=
  propext hiff ▸ h

end Whole

theorem extendErr_of_gt {buf : HVec N} {bytes : Bytes}
    (h : ¬ (buf.toList ++ bytes).length ≤ N) :
    extendErr buf bytes = .error (.err .bufferTooSmall) := by
  have hnone : buf.extend bytes = none := by
    rw [HVec.extend_eq_none, ← List.length_append]
    exact Nat.not_le.mp h
  rw [extendErr, hnone]
  rfl

theorem extendErr_whole (bytes : Bytes) :
    Whole (extendErr (HVec.empty : HVec N) bytes) (bytes.length ≤ N)
      (·.toList = bytes) where
  ok hfits := exists_extendErr_empty hfits
  error hfits := extendErr_of_gt hfits

/-- Whatever is appended, the only error behind it is its own. -/
theorem extendErr_bind_tooSmall (buf : HVec N) (bytes : Bytes) :
    (extendErr buf bytes >>= fun _ =>
      (.error (.err .bufferTooSmall) : Outcome EdhocError α)) =
        .error (.err .bufferTooSmall) := by
  by_cases h : (buf.toList ++ bytes).length ≤ N
  · rw [exists_extendErr h]
    rfl
  · rw [extendErr_of_gt h]
    rfl

end AllOrNothing

theorem byteAt_eq (data : Bytes) (i : Nat) :
    byteAt data i = okOr data[i]? .invalidMessage := by
  by_cases h : data.length ≤ i
  · rw [List.getElem?_eq_none h, byteAt, failIf, if_pos h]
    rfl
  · rw [byteAt, failIf_of_not _ h, index,
      List.getElem?_eq_getElem (Nat.not_le.mp h)]
    rfl

theorem byteAt_eq_ok {data : Bytes} {i : Nat} {byte : UInt8} :
    byteAt data i = .ok byte ↔ data[i]? = some byte := by
  rw [byteAt_eq, okOr_eq_ok]

theorem byteAt_meets (data : Bytes) (i : Nat) :
    (byteAt data i).Meets fun byte => data[i]? = some byte := by
  rw [byteAt_eq]
  exact Outcome.Meets.okOr _ _

/-! Lengths. -/

/-- A length that a parser can report about its input. -/
def Within (data : Bytes) (n : Nat) : Prop :=
  1 ≤ n ∧ n ≤ data.length

theorem within_of_getElem? {data : Bytes} {i : Nat} {byte : UInt8}
    (h : data[i]? = some byte) : Within data (i + 1) :=
  ⟨Nat.le_add_left _ _, (List.getElem?_eq_some_iff.mp h).1⟩

theorem within_of_not_lt {data : Bytes} {n : Nat} (hone : 1 ≤ n)
    (h : ¬ data.length < n) : Within data n :=
  ⟨hone, Nat.not_lt.mp h⟩

/-- An item behind another. -/
theorem Within.add {data : Bytes} {start size : Nat} (h : Within data start)
    (hrest : Within (data.drop start) size) : Within data (start + size) := by
  obtain ⟨hone, hle⟩ := hrest
  rw [List.length_drop] at hle
  exact ⟨h.1.trans (Nat.le_add_right _ _), by omega⟩

theorem takeItem_eq_ok {data value : Bytes} {first len n : Nat} :
    takeItem data first len = .ok (value, n) ↔
      n = first + len ∧ n ≤ data.length ∧
        value = (data.drop first).take len := by
  simp only [takeItem, Outcome.bind_eq_ok, failIf_eq_ok, slice_eq_ok,
    Outcome.pure_eq_ok, Except.ok.injEq, Prod.mk.injEq, exists_const,
    Nat.not_lt]
  constructor
  · rintro ⟨hle, _, ⟨-, -, rfl⟩, rfl, rfl⟩
    refine ⟨rfl, hle, ?_⟩
    rw [List.drop_take, Nat.add_sub_cancel_left]
  · rintro ⟨rfl, hle, rfl⟩
    refine ⟨hle, _, ⟨Nat.le_add_right _ _, hle, ?_⟩, rfl, rfl⟩
    rw [List.drop_take, Nat.add_sub_cancel_left]

theorem takeItem_meets (data : Bytes) (first len : Nat) :
    (takeItem data first len).Meets fun item =>
      item.2 = first + len ∧ item.2 ≤ data.length ∧
        item.1 = (data.drop first).take len := by
  refine (Outcome.Meets.failIf _ _).bind fun _ hle => ?_
  rw [slice_of_le (Nat.le_add_right _ _) (Nat.not_lt.mp hle)]
  refine ⟨rfl, Nat.not_lt.mp hle, ?_⟩
  rw [List.drop_take, Nat.add_sub_cancel_left]

theorem takeItem_within (data : Bytes) {first : Nat} (hfirst : 1 ≤ first)
    (len : Nat) : (takeItem data first len).Meets (Within data ·.2) :=
  (takeItem_meets data first len).mono fun _ h =>
    ⟨h.1 ▸ hfirst.trans (Nat.le_add_right _ _), h.2.1⟩

theorem index_meets {data : Bytes} {i : Nat} (h : i < data.length) :
    (index data i : Outcome EdhocError UInt8).Meets (data[i]? = some ·) := by
  rw [index, List.getElem?_eq_getElem h]
  exact rfl

theorem sliceFrom_meets (data : Bytes) {first : Nat}
    (h : first ≤ data.length) :
    (sliceFrom data first : Outcome EdhocError Bytes).Meets
      (· = data.drop first) := by
  rw [sliceFrom_of_le h]
  exact rfl

end Oscore.Edhoc
