/-
Credential handling: encoding, parsing and validation.  ID_CRED is read in all
the forms the parser accepts; what it skips is only measured.
-/
import Oscore.Edhoc.Cbor

namespace Oscore.Edhoc

open Rust

variable {N : Nat}

/-- `ID_CRED_MAX_PARAMETERS`, the capacity of the lists of seen values. -/
abbrev seenCapacity : Nat := 8

/-- Build a raw key CCS and its ID_CRED from a public key. -/
def rawKeyCredential (X : Suite) (pubkey : Bytes32) :
    Outcome EdhocError (HVec 40 × HVec 80) := do
  let kid := (X.sha256 pubkey.val).val
  let idCred ← pushErr HVec.empty 0xa1
  let idCred ← pushErr idCred 0x04
  let idCred ←
    if (kid.take 23).length ≤ 23 then pushErr idCred (0x40 ||| 8)
    else extendErr idCred [0x58, 8]
  let idCred ← extendErr idCred (kid.take 8)
  let ccs ← extendErr HVec.empty [0xa3, 0x01, 0x01, 0x20, 0x06, 0x21]
  let ccs ← encodeBstr ccs pubkey.val
  return (idCred, ccs)

/-- Encode ID_CRED: the `kid` is the start of the hash of the public key. -/
def encodeIdCred (X : Suite) (buf : HVec N) (pubkey : Bytes32) :
    Outcome EdhocError (HVec N) := do
  let kid := (X.sha256 pubkey.val).val
  let buf ← pushErr buf 0xa1
  let buf ← pushErr buf 0x04
  let buf ←
    if 8 ≤ 23 then pushErr buf (0x40 ||| 8) else extendErr buf [0x58, 8]
  extendErr buf (kid.take 8)

/-- Encode a CCS from a public key. -/
def encodeCredential (buf : HVec N) (pubkey : Bytes32) :
    Outcome EdhocError (HVec N) := do
  let buf ← extendErr buf [0xa3, 0x01, 0x01, 0x20, 0x06, 0x21]
  encodeBstr buf pubkey.val

/-! The parser of ID_CRED. -/

def tryParseCborInt (data : Bytes) : Option (Int × Nat) := do
  let first ← data[0]?
  if first ≤ 0x17 then
    return (first.toNat, 1)
  else if first = 0x18 then
    let byte ← data[1]?
    if byte < 24 then none else return (byte.toNat, 2)
  else if first = 0x19 then
    let high ← data[1]?
    let low ← data[2]?
    let val := high.toNat * 256 + low.toNat
    if val ≤ 0xff then none else return (val, 3)
  else if 0x20 ≤ first ∧ first ≤ 0x37 then
    return (-(((first - 0x20).toNat : Int) + 1), 1)
  else if first = 0x38 then
    let byte ← data[1]?
    if byte < 24 then none else return (-((byte.toNat : Int) + 1), 2)
  else if first = 0x39 then
    let high ← data[1]?
    let low ← data[2]?
    let val := high.toNat * 256 + low.toNat
    if val ≤ 0xff then none else return (-((val : Int) + 1), 3)
  else
    none

def parseCanonicalBstr (data : Bytes) : Outcome EdhocError (Bytes × Nat) := do
  let first ← byteAt data 0
  if 0x40 ≤ first ∧ first ≤ 0x57 then
    takeItem data 1 (first - 0x40).toNat
  else if first = 0x58 then
    let len ← byteAt data 1
    failIf (len.toNat < 24) .invalidMessage
    takeItem data 2 len.toNat
  else if first = 0x59 then
    let high ← byteAt data 1
    let low ← byteAt data 2
    let len := high.toNat * 256 + low.toNat
    failIf (len ≤ 0xff) .invalidMessage
    takeItem data 3 len
  else
    throw (.err .invalidMessage)

/-- `if data.len() < size { return Err(InvalidMessage) }`, then `Ok(size)`. -/
def measured (data : Bytes) (size : Nat) : Outcome EdhocError Nat := do
  failIf (data.length < size) .invalidMessage
  return size

def skipIntValue (data : Bytes) : Outcome EdhocError Nat := do
  let first ← byteAt data 0
  if first ≤ 0x17 then return 1
  else if first = 0x18 then measured data 2
  else if first = 0x19 then measured data 3
  else if 0x20 ≤ first ∧ first ≤ 0x37 then return 1
  else if first = 0x38 then measured data 2
  else if first = 0x39 then measured data 3
  else throw (.err .invalidMessage)

/-- `for _ in 0..count { offset += skip(&data[offset..])? }` -/
def skipRun (skip : Bytes → Outcome EdhocError Nat) (data : Bytes) :
    Nat → Nat → Outcome EdhocError Nat
  | 0, offset => return offset
  | count + 1, offset => do
      let rest ← sliceFrom data offset
      let size ← skip rest
      skipRun skip data count (offset + size)

/-- The body of `skip_cbor_value`.  Elements of an array are shorter than the
array, so that the fuel runs out on empty input only, which is an error. -/
def skipValue : Nat → Bytes → Outcome EdhocError Nat
  | 0, _ => throw (.err .invalidMessage)
  | fuel + 1, data => do
      let first ← byteAt data 0
      if first ≤ 0x17 then return 1
      else if first = 0x18 then measured data 2
      else if first = 0x19 then measured data 3
      else if 0x20 ≤ first ∧ first ≤ 0x37 then return 1
      else if first = 0x38 then measured data 2
      else if first = 0x39 then measured data 3
      else if 0x40 ≤ first ∧ first ≤ 0x57 then
        measured data (1 + (first - 0x40).toNat)
      else if first = 0x58 then
        let len ← byteAt data 1
        measured data (2 + len.toNat)
      else if 0x60 ≤ first ∧ first ≤ 0x77 then
        measured data (1 + (first - 0x60).toNat)
      else if first = 0x78 then
        let len ← byteAt data 1
        measured data (2 + len.toNat)
      else if 0x80 ≤ first ∧ first ≤ 0x97 then
        skipRun (skipValue fuel) data (first - 0x80).toNat 1
      else if first = 0x98 then
        let count ← byteAt data 1
        skipRun (skipValue fuel) data count.toNat 2
      else throw (.err .invalidMessage)

def skipCborValue (data : Bytes) : Outcome EdhocError Nat :=
  skipValue data.length data

/-- The loop over the elements of an `alg` array. -/
def validateAlgElements (data : Bytes) :
    Nat → Nat → List Int → Outcome EdhocError Nat
  | 0, offset, _ => return offset
  | count + 1, offset, seenValues => do
      failIf (offset ≥ data.length) .invalidMessage
      let rest ← sliceFrom data offset
      match tryParseCborInt rest with
      | some (val, len) =>
          failIf (val = 1 ∨ val = 34) .invalidMessage
          failIf (val ∈ seenValues) .invalidMessage
          failIf (seenValues.length ≥ seenCapacity) .bufferTooSmall
          validateAlgElements data count (offset + len) (seenValues ++ [val])
      | none =>
          let len ← skipCborValue rest
          validateAlgElements data count (offset + len) seenValues

/-- Validate an `alg` value: reject arrays with ambiguous or repeated values. -/
def validateAlgValue (data : Bytes) : Outcome EdhocError Nat := do
  let first ← byteAt data 0
  match skipIntValue data with
  | .ok len => return len
  | .error _ =>
      if 0x80 ≤ first ∧ first ≤ 0x97 then
        validateAlgElements data (first - 0x80).toNat 1 []
      else
        throw (.err .invalidMessage)

/-- The algorithm and the hash of an `x5t` value, and the bytes consumed. -/
def parseX5tValue (data : Bytes) :
    Outcome EdhocError ((Int × HVec idCredMaxLen) × Nat) := do
  failIf (data[0]? ≠ some 0x82) .invalidMessage
  let rest ← sliceFrom data 1
  let (alg, algLen) ← okOr (tryParseCborInt rest) .invalidMessage
  let rest ← sliceFrom data (1 + algLen)
  let (hashVal, hashLen) ← parseBstr rest
  let hash ← okOr (HVec.ofBytes hashVal) .bufferTooSmall
  return ((alg, hash), 1 + algLen + hashLen)

/-- What the parser of an ID_CRED map has found so far. -/
structure Parameters where
  seenLabels : List Int
  kidValue : Option (HVec idCredMaxLen)
  x5tValue : Option (Int × HVec idCredMaxLen)
deriving DecidableEq

/-- The value behind a label, and the bytes it takes. -/
def parseLabelled (found : Parameters) (label : Int) (data : Bytes) :
    Outcome EdhocError (Parameters × Nat) :=
  match label with
  | 1 => do
      let size ← skipIntValue data
      return (found, size)
  | 2 => do
      let size ← validateAlgValue data
      return (found, size)
  | 4 => do
      failIf (found.kidValue.isSome = true) .invalidMessage
      let (value, size) ← parseCanonicalBstr data
      let kid ← okOr (HVec.ofBytes value) .bufferTooSmall
      return ({ found with kidValue := some kid }, size)
  | 34 => do
      failIf (found.x5tValue.isSome = true) .invalidMessage
      let (value, size) ← parseX5tValue data
      return ({ found with x5tValue := some value }, size)
  | _ => do
      let size ← skipCborValue data
      return (found, size)

/-- One pair of an ID_CRED map. -/
def parseParameter (data : Bytes) (offset : Nat) (found : Parameters) :
    Outcome EdhocError (Parameters × Nat) := do
  failIf (offset ≥ data.length) .invalidMessage
  let rest ← sliceFrom data offset
  match tryParseCborInt rest with
  | some (label, labelLen) =>
      let offset := offset + labelLen
      failIf (label ∈ found.seenLabels) .invalidMessage
      failIf (found.seenLabels.length ≥ seenCapacity) .bufferTooSmall
      let found := { found with seenLabels := found.seenLabels ++ [label] }
      let rest ← sliceFrom data offset
      let (found, size) ← parseLabelled found label rest
      return (found, offset + size)
  | none =>
      let keyLen ← skipCborValue rest
      let offset := offset + keyLen
      let rest ← sliceFrom data offset
      let size ← skipCborValue rest
      return (found, offset + size)

def parseParameters (data : Bytes) :
    Nat → Nat → Parameters → Outcome EdhocError (Parameters × Nat)
  | 0, offset, found => return (found, offset)
  | count + 1, offset, found => do
      let (found, offset) ← parseParameter data offset found
      parseParameters data count offset found

/-- The compact forms of a `kid`: its own bytes behind the head of a string. -/
def compactKid (head : UInt8) (kid : Bytes) : Outcome EdhocError IdCred := do
  let encoded ← extendErr HVec.empty [0xa1, 0x04]
  let encoded ← pushErr encoded head
  let encoded ← extendErr encoded kid
  let kidVal ← extendErr HVec.empty kid
  return ⟨encoded, .kid kidVal⟩

/-- Exactly one kind of reference. -/
def chooseReference (found : Parameters) :
    Outcome EdhocError IdCredReference :=
  match found.kidValue, found.x5tValue with
  | some kid, none => return .kid kid
  | none, some (alg, hash) => return .x5t alg hash
  | _, _ => throw (.err .invalidMessage)

/-- A map of one to eight parameters. -/
def parseIdCredMap (data : Bytes) (first : UInt8) :
    Outcome EdhocError (IdCred × Nat) := do
  let numPairs := (first - 0xa0).toNat
  let (found, offset) ← parseParameters data numPairs 1 ⟨[], none, none⟩
  let reference ← chooseReference found
  let head ← slice data 0 offset
  let encoded ← extendErr HVec.empty head
  return (⟨encoded, reference⟩, offset)

/-- Parse an ID_CRED: compact `kid` forms and maps. -/
def parseIdCred (data : Bytes) : Outcome EdhocError (IdCred × Nat) := do
  let first ← byteAt data 0
  if first ≤ 0x17 then
    let cred ← compactKid 0x41 [first]
    return (cred, 1)
  else if 0x20 ≤ first ∧ first ≤ 0x37 then
    let cred ← compactKid 0x41 [first]
    return (cred, 1)
  else if first = 0x18 then
    failIf (data.length < 2) .invalidMessage
    let kid ← slice data 0 2
    let cred ← compactKid 0x42 kid
    return (cred, 2)
  else if first = 0x38 then
    failIf (data.length < 2) .invalidMessage
    let kid ← slice data 0 2
    let cred ← compactKid 0x42 kid
    return (cred, 2)
  else if (0x40 ≤ first ∧ first ≤ 0x57) ∨ first = 0x58 then
    let (value, consumed) ← parseBstr data
    let encoded ← extendErr HVec.empty [0xa1, 0x04]
    let encoded ← encodeBstr encoded value
    let kidVal ← okOr (HVec.ofBytes value) .bufferTooSmall
    return (⟨encoded, .kid kidVal⟩, consumed)
  else
    failIf (¬ (0xa1 ≤ first ∧ first ≤ 0xa8)) .invalidMessage
    parseIdCredMap data first

/-! Validation. -/

/-- Reject identity points, low-order points and keys not on the curve. -/
def validatePubkey (X : Suite) (bytes : Bytes32) : Outcome EdhocError Unit :=
  failIf (X.validPoint bytes = false) .signatureVerification

/-- Validate a peer credential against its embedded public key; credentials
other than a CCS are left to the application. -/
def validatePeerCredential (X : Suite) (peer : PeerCredential) :
    Outcome EdhocError Unit := do
  validatePubkey X peer.publicKey
  let data := peer.credential
  if data[0]? ≠ some 0xa3 then
    return ()
  else
    failIf (data.length < 2) .invalidMessage
    failIf (data[1]? ≠ some 0x01 ∨ data[2]? ≠ some 0x01) .invalidMessage
    failIf (data[3]? ≠ some 0x20 ∨ data[4]? ≠ some 0x06) .invalidMessage
    failIf (data[5]? ≠ some 0x21) .invalidMessage
    let rest ← sliceFrom data 6
    let (xBytes, _) ← parseBstr rest
    failIf (xBytes.length ≠ 32 ∨ xBytes ≠ peer.publicKey.val)
      .signatureVerification

/-! Every parser reports a length that is within its input. -/

/-- The shortest forms of the integers of up to 16 bits, and their values. -/
inductive IntForm : Bytes → Int → Prop
  | small (first : UInt8) (h : first ≤ 0x17) : IntForm [first] first.toNat
  | byte (byte : UInt8) (h : ¬ byte < 24) : IntForm [0x18, byte] byte.toNat
  | word (high low : UInt8)
      (h : ¬ (high.toNat * 256 + low.toNat : Int) ≤ 0xff) :
      IntForm [0x19, high, low] (high.toNat * 256 + low.toNat)
  | negative (first : UInt8) (h : 0x20 ≤ first ∧ first ≤ 0x37) :
      IntForm [first] (-(((first - 0x20).toNat : Int) + 1))
  | negativeByte (byte : UInt8) (h : ¬ byte < 24) :
      IntForm [0x38, byte] (-((byte.toNat : Int) + 1))
  | negativeWord (high low : UInt8)
      (h : ¬ (high.toNat * 256 + low.toNat : Int) ≤ 0xff) :
      IntForm [0x39, high, low] (-((high.toNat * 256 + low.toNat : Int) + 1))

theorem not_unsigned_of_negative {first : UInt8}
    (h : 0x20 ≤ first ∧ first ≤ 0x37) :
    ¬ first ≤ 0x17 ∧ first ≠ 0x18 ∧ first ≠ 0x19 := by
  simp only [UInt8.le_iff_toNat_le, ne_eq, ← UInt8.toNat_inj,
    UInt8.reduceToNat] at h ⊢
  omega

/-- The integers that `try_parse_cbor_int` reads off the front. -/
theorem tryParseCborInt_eq_some {data : Bytes} {val : Int} {n : Nat} :
    tryParseCborInt data = some (val, n) ↔
      ∃ item rest, data = item ++ rest ∧ IntForm item val ∧
        n = item.length := by
  constructor
  · intro h
    obtain ⟨first, hfirst, h⟩ := Option.bind_eq_some_iff.mp h
    obtain ⟨tail, rfl⟩ : ∃ tail, data = first :: tail := by
      cases data with
      | nil => cases hfirst
      | cons own tail => exact ⟨tail, by rw [Option.some.inj hfirst]⟩
    rcases ite_eq_iff.mp h with ⟨hsmall, h⟩ | ⟨-, h⟩
    · cases h
      exact ⟨[first], tail, rfl, .small first hsmall, rfl⟩
    rcases ite_eq_iff.mp h with ⟨rfl, h⟩ | ⟨-, h⟩
    · obtain ⟨byte, hbyte, h⟩ := Option.bind_eq_some_iff.mp h
      rcases ite_eq_iff.mp h with ⟨-, h⟩ | ⟨hshort, h⟩
      · cases h
      cases h
      match tail, hbyte with
      | _ :: rest, rfl => exact ⟨_, rest, rfl, .byte byte hshort, rfl⟩
    rcases ite_eq_iff.mp h with ⟨rfl, h⟩ | ⟨-, h⟩
    · obtain ⟨high, hhigh, h⟩ := Option.bind_eq_some_iff.mp h
      obtain ⟨low, hlow, h⟩ := Option.bind_eq_some_iff.mp h
      rcases ite_eq_iff.mp h with ⟨-, h⟩ | ⟨hshort, h⟩
      · cases h
      cases h
      match tail, hhigh, hlow with
      | _ :: _ :: rest, rfl, rfl =>
          exact ⟨_, rest, rfl, .word high low hshort, rfl⟩
    rcases ite_eq_iff.mp h with ⟨hneg, h⟩ | ⟨-, h⟩
    · cases h
      exact ⟨[first], tail, rfl, .negative first hneg, rfl⟩
    rcases ite_eq_iff.mp h with ⟨rfl, h⟩ | ⟨-, h⟩
    · obtain ⟨byte, hbyte, h⟩ := Option.bind_eq_some_iff.mp h
      rcases ite_eq_iff.mp h with ⟨-, h⟩ | ⟨hshort, h⟩
      · cases h
      cases h
      match tail, hbyte with
      | _ :: rest, rfl => exact ⟨_, rest, rfl, .negativeByte byte hshort, rfl⟩
    rcases ite_eq_iff.mp h with ⟨rfl, h⟩ | ⟨-, h⟩
    · obtain ⟨high, hhigh, h⟩ := Option.bind_eq_some_iff.mp h
      obtain ⟨low, hlow, h⟩ := Option.bind_eq_some_iff.mp h
      rcases ite_eq_iff.mp h with ⟨-, h⟩ | ⟨hshort, h⟩
      · cases h
      cases h
      match tail, hhigh, hlow with
      | _ :: _ :: rest, rfl, rfl =>
          exact ⟨_, rest, rfl, .negativeWord high low hshort, rfl⟩
    · cases h
  · rintro ⟨item, rest, rfl, hform, rfl⟩
    cases hform with
    | small first h => exact if_pos h
    | byte byte h => exact if_neg h
    | word high low h => exact if_neg h
    | negative first h =>
        obtain ⟨hsmall, hne, hne'⟩ := not_unsigned_of_negative h
        exact (if_neg hsmall).trans ((if_neg hne).trans
          ((if_neg hne').trans (if_pos h)))
    | negativeByte byte h => exact if_neg h
    | negativeWord high low h => exact if_neg h

theorem IntForm.length_pos {item : Bytes} {val : Int} (h : IntForm item val) :
    0 < item.length := by
  cases h <;> exact Nat.succ_pos _

theorem tryParseCborInt_within {data : Bytes} {val : Int} {n : Nat}
    (h : tryParseCborInt data = some (val, n)) : Within data n := by
  obtain ⟨item, rest, rfl, hform, rfl⟩ := tryParseCborInt_eq_some.mp h
  refine ⟨hform.length_pos, ?_⟩
  rw [List.length_append]
  exact Nat.le_add_right _ _

theorem measured_meets (data : Bytes) {size : Nat} (h : 1 ≤ size) :
    (measured data size).Meets (Within data) :=
  (Outcome.Meets.failIf _ _).bind fun _ hlen => within_of_not_lt h hlen

theorem parseCanonicalBstr_meets (data : Bytes) :
    (parseCanonicalBstr data).Meets fun item => Within data item.2 := by
  refine (byteAt_meets data 0).bind fun first _ => ?_
  refine .ite (fun _ => takeItem_within data (by decide) _) fun _ => ?_
  refine .ite (fun _ => ?_) fun _ => .ite (fun _ => ?_) fun _ => .err _ _
  · exact (byteAt_meets data 1).bind fun len _ =>
      (Outcome.Meets.failIf _ _).bind fun _ _ =>
        takeItem_within data (by decide) _
  · exact (byteAt_meets data 1).bind fun high _ =>
      (byteAt_meets data 2).bind fun low _ =>
        (Outcome.Meets.failIf _ _).bind fun _ _ =>
          takeItem_within data (by decide) _

theorem skipIntValue_meets (data : Bytes) :
    (skipIntValue data).Meets (Within data) := by
  refine (byteAt_meets data 0).bind fun first hfirst => ?_
  have hone := within_of_getElem? hfirst
  have hsize : ∀ {size}, 1 ≤ size → (measured data size).Meets (Within data) :=
    measured_meets data
  refine .ite (fun _ => hone) fun _ => ?_
  refine .ite (fun _ => hsize (by decide)) fun _ => ?_
  refine .ite (fun _ => hsize (by decide)) fun _ => ?_
  refine .ite (fun _ => hone) fun _ => ?_
  refine .ite (fun _ => hsize (by decide)) fun _ => ?_
  exact .ite (fun _ => hsize (by decide)) fun _ => .err _ _

theorem skipRun_meets {skip : Bytes → Outcome EdhocError Nat}
    (hskip : ∀ rest, (skip rest).Meets (Within rest)) (data : Bytes)
    (count : Nat) {offset : Nat} (h : Within data offset) :
    (skipRun skip data count offset).Meets (Within data) := by
  induction count generalizing offset with
  | zero => exact h
  | succ count ih =>
      refine (sliceFrom_meets data h.2).bind fun rest hrest => ?_
      subst hrest
      exact (hskip _).bind fun size hsize => ih (h.add hsize)

theorem skipValue_meets (fuel : Nat) (data : Bytes) :
    (skipValue fuel data).Meets (Within data) := by
  induction fuel generalizing data with
  | zero => exact .err _ _
  | succ fuel ih =>
      refine (byteAt_meets data 0).bind fun first hfirst => ?_
      have hone := within_of_getElem? hfirst
      have hsize : ∀ {size}, 1 ≤ size →
          (measured data size).Meets (Within data) := measured_meets data
      have hstring : (byteAt data 1 >>= fun len =>
          measured data (2 + len.toNat)).Meets (Within data) :=
        (byteAt_meets data 1).bind fun len _ => hsize (by omega)
      refine .ite (fun _ => hone) fun _ => ?_
      refine .ite (fun _ => hsize (by decide)) fun _ => ?_
      refine .ite (fun _ => hsize (by decide)) fun _ => ?_
      refine .ite (fun _ => hone) fun _ => ?_
      refine .ite (fun _ => hsize (by decide)) fun _ => ?_
      refine .ite (fun _ => hsize (by decide)) fun _ => ?_
      refine .ite (fun _ => hsize (by omega)) fun _ => ?_
      refine .ite (fun _ => hstring) fun _ => ?_
      refine .ite (fun _ => hsize (by omega)) fun _ => ?_
      refine .ite (fun _ => hstring) fun _ => ?_
      refine .ite (fun _ => skipRun_meets ih data _ hone) fun _ => ?_
      refine .ite (fun _ => ?_) fun _ => .err _ _
      exact (byteAt_meets data 1).bind fun count hcount =>
        skipRun_meets ih data _ (within_of_getElem? hcount)

theorem skipCborValue_meets (data : Bytes) :
    (skipCborValue data).Meets (Within data) :=
  skipValue_meets _ data

theorem validateAlgElements_meets (data : Bytes) (count : Nat) {offset : Nat}
    (seenValues : List Int) (h : Within data offset) :
    (validateAlgElements data count offset seenValues).Meets
      (Within data) := by
  induction count generalizing offset seenValues with
  | zero => exact h
  | succ count ih =>
      refine (Outcome.Meets.failIf _ _).bind fun _ _ => ?_
      refine (sliceFrom_meets data h.2).bind fun rest hrest => ?_
      subst hrest
      split
      · rename_i val len hint
        refine (Outcome.Meets.failIf _ _).bind fun _ _ => ?_
        refine (Outcome.Meets.failIf _ _).bind fun _ _ => ?_
        refine (Outcome.Meets.failIf _ _).bind fun _ _ => ?_
        exact ih _ (h.add (tryParseCborInt_within hint))
      · exact (skipCborValue_meets _).bind fun len hlen => ih _ (h.add hlen)

theorem validateAlgValue_meets (data : Bytes) :
    (validateAlgValue data).Meets (Within data) := by
  refine (byteAt_meets data 0).bind fun first hfirst => ?_
  split
  · rename_i len hskip
    exact (skipIntValue_meets data).of_ok hskip
  · exact .ite (fun _ => validateAlgElements_meets data _ _
      (within_of_getElem? hfirst)) fun _ => .err _ _

theorem parseX5tValue_meets (data : Bytes) :
    (parseX5tValue data).Meets fun item => Within data item.2 := by
  refine (Outcome.Meets.failIf _ _).bind fun _ hfirst => ?_
  have hone := within_of_getElem? (not_not.mp hfirst)
  refine (sliceFrom_meets data hone.2).bind fun rest hrest => ?_
  subst hrest
  refine (Outcome.Meets.okOr _ _).bind fun alg halg => ?_
  have hnext := hone.add (tryParseCborInt_within halg)
  refine (sliceFrom_meets data hnext.2).bind fun rest hrest => ?_
  subst hrest
  refine (parseBstr_meets _).bind fun item hitem => ?_
  exact (Outcome.Meets.okOr _ _).bind fun hash _ => hnext.add hitem.within

theorem parseLabelled_meets (found : Parameters) (label : Int)
    (data : Bytes) :
    (parseLabelled found label data).Meets fun r => Within data r.2 := by
  unfold parseLabelled
  split
  · exact (skipIntValue_meets data).bind fun _ h => h
  · exact (validateAlgValue_meets data).bind fun _ h => h
  · refine (Outcome.Meets.failIf _ _).bind fun _ _ => ?_
    exact (parseCanonicalBstr_meets data).bind fun _ h =>
      (Outcome.Meets.okOr _ _).bind fun _ _ => h
  · refine (Outcome.Meets.failIf _ _).bind fun _ _ => ?_
    exact (parseX5tValue_meets data).bind fun _ h => h
  · exact (skipCborValue_meets data).bind fun _ h => h

theorem parseParameter_meets (data : Bytes) {offset : Nat}
    (found : Parameters) (h : Within data offset) :
    (parseParameter data offset found).Meets fun r => Within data r.2 := by
  refine (Outcome.Meets.failIf _ _).bind fun _ _ => ?_
  refine (sliceFrom_meets data h.2).bind fun rest hrest => ?_
  subst hrest
  split
  · rename_i label len hint
    have hlabel := h.add (tryParseCborInt_within hint)
    refine (Outcome.Meets.failIf _ _).bind fun _ _ => ?_
    refine (Outcome.Meets.failIf _ _).bind fun _ _ => ?_
    refine (sliceFrom_meets data hlabel.2).bind fun rest hrest => ?_
    subst hrest
    exact (parseLabelled_meets _ _ _).bind fun r hr => hlabel.add hr
  · refine (skipCborValue_meets _).bind fun len hlen => ?_
    have hkey := h.add hlen
    refine (sliceFrom_meets data hkey.2).bind fun rest hrest => ?_
    subst hrest
    exact (skipCborValue_meets _).bind fun size hsize => hkey.add hsize

theorem parseParameters_meets (data : Bytes) (count : Nat) {offset : Nat}
    (found : Parameters) (h : Within data offset) :
    (parseParameters data count offset found).Meets fun r =>
      Within data r.2 := by
  induction count generalizing offset found with
  | zero => exact h
  | succ count ih =>
      exact (parseParameter_meets data found h).bind fun r hr => ih _ hr

theorem compactKid_meets (head : UInt8) (kid : Bytes) :
    (compactKid head kid).Meets fun _ => True :=
  (extendErr_meets _ _).bind fun _ _ => (extendErr_meets _ _).bind fun _ _ =>
    (extendErr_meets _ _).bind fun _ _ =>
      (extendErr_meets _ _).bind fun _ _ => trivial

theorem slice_meets (data : Bytes) {last : Nat} (h : last ≤ data.length) :
    (slice data 0 last : Outcome EdhocError Bytes).Meets
      (· = data.take last) := by
  rw [slice_of_le (Nat.zero_le _) h]
  exact List.drop_zero

theorem chooseReference_meets (found : Parameters) :
    (chooseReference found).Meets fun _ => True := by
  unfold chooseReference
  split
  · exact trivial
  · exact trivial
  · exact .err _ _

theorem parseIdCredMap_meets {data : Bytes} (first : UInt8)
    (h : Within data 1) :
    (parseIdCredMap data first).Meets fun item => Within data item.2 := by
  refine (parseParameters_meets data _ _ h).bind fun r hr => ?_
  refine (chooseReference_meets _).bind fun reference _ => ?_
  refine (slice_meets data hr.2).bind fun head _ => ?_
  exact (extendErr_meets _ _).bind fun encoded _ => hr

theorem parseIdCred_meets (data : Bytes) :
    (parseIdCred data).Meets fun item => Within data item.2 := by
  refine (byteAt_meets data 0).bind fun first hfirst => ?_
  have hone := within_of_getElem? hfirst
  refine .ite (fun _ => ?_) fun _ => ?_
  · exact (compactKid_meets _ _).bind fun _ _ => hone
  refine .ite (fun _ => ?_) fun _ => ?_
  · exact (compactKid_meets _ _).bind fun _ _ => hone
  have htwo : ¬ data.length < 2 → Within data 2 := within_of_not_lt (by decide)
  refine .ite (fun _ => ?_) fun _ => ?_
  · refine (Outcome.Meets.failIf _ _).bind fun _ hlen => ?_
    refine (slice_meets data (htwo hlen).2).bind fun kid _ => ?_
    exact (compactKid_meets _ _).bind fun _ _ => htwo hlen
  refine .ite (fun _ => ?_) fun _ => ?_
  · refine (Outcome.Meets.failIf _ _).bind fun _ hlen => ?_
    refine (slice_meets data (htwo hlen).2).bind fun kid _ => ?_
    exact (compactKid_meets _ _).bind fun _ _ => htwo hlen
  refine .ite (fun _ => ?_) fun _ => ?_
  · refine (parseBstr_meets data).bind fun item hitem => ?_
    refine (extendErr_meets _ _).bind fun _ _ => ?_
    refine (writeBstr_meets _ _).bind fun _ _ => ?_
    exact (Outcome.Meets.okOr _ _).bind fun _ _ => hitem.within
  · exact (Outcome.Meets.failIf _ _).bind fun _ _ =>
      parseIdCredMap_meets first hone

/-! Enough fuel is the length of the input. -/

theorem skipRun_congr {skip skip' : Bytes → Outcome EdhocError Nat}
    {data : Bytes}
    (h : ∀ rest, rest.length < data.length → skip rest = skip' rest)
    (count : Nat) {offset : Nat} (hoffset : 1 ≤ offset) :
    skipRun skip data count offset = skipRun skip' data count offset := by
  induction count generalizing offset with
  | zero => rfl
  | succ count ih =>
      simp only [skipRun]
      by_cases hle : offset ≤ data.length
      · rw [sliceFrom_of_le hle, Outcome.ok_bind, Outcome.ok_bind,
          h _ (by rw [List.length_drop]; omega)]
        refine congrArg (skip' (data.drop offset) >>= ·) (funext fun size => ?_)
        exact ih (by omega)
      · have hpanic : (sliceFrom data offset : Outcome EdhocError Bytes) =
            .error .panic := by
          simp [sliceFrom, slice, hle]
        rw [hpanic]
        rfl

theorem skipValue_fuel {fuel fuel' : Nat} {data : Bytes}
    (h : data.length ≤ fuel) (h' : data.length ≤ fuel') :
    skipValue fuel data = skipValue fuel' data := by
  induction fuel generalizing fuel' data with
  | zero =>
      cases List.length_eq_zero_iff.mp (Nat.le_zero.mp h)
      cases fuel' <;> rfl
  | succ fuel ih =>
      cases fuel' with
      | zero =>
          cases List.length_eq_zero_iff.mp (Nat.le_zero.mp h')
          rfl
      | succ fuel' =>
          have hrun : ∀ count offset, 1 ≤ offset →
              skipRun (skipValue fuel) data count offset =
                skipRun (skipValue fuel') data count offset := by
            intro count offset hoffset
            refine skipRun_congr (fun rest hlt => ?_) count hoffset
            exact ih (by omega) (by omega)
          simp only [skipValue, hrun _ 1 (by decide), hrun _ 2 (by decide)]

/-! What this crate writes as credentials. -/

/-- An ID_CRED with the start of the hash of a public key. -/
def idCredBytes (X : Suite) (pubkey : Bytes32) : Bytes :=
  [0xa1, 0x04, 0x48] ++ (X.sha256 pubkey.val).val.take 8

/-- A CCS with a public key. -/
def credentialBytes (pubkey : Bytes32) : Bytes :=
  [0xa3, 0x01, 0x01, 0x20, 0x06, 0x21] ++ Cbor.bstr pubkey.val

/-- A peer that is known by its raw public key. -/
abbrev PeerCredential.raw (X : Suite) (pubkey : Bytes32) : PeerCredential :=
  ⟨pubkey, idCredBytes X pubkey, credentialBytes pubkey⟩

variable {X : Suite}

theorem length_kid (pubkey : Bytes32) :
    ((X.sha256 pubkey.val).val.take 8).length = 8 := by
  rw [List.length_take, (X.sha256 pubkey.val).property]
  rfl

theorem length_idCredBytes (pubkey : Bytes32) :
    (idCredBytes X pubkey).length = 11 := by
  rw [idCredBytes, List.length_append, length_kid]
  rfl

theorem length_bstr32 (bytes : Bytes32) :
    (Cbor.bstr bytes.val).length = 34 := by
  rw [Cbor.bstr, List.length_append, bytes.property]
  rfl

theorem bstrMax_of_block {n : Nat} (h : n ≤ Cbor.bstrMax) (block : Block n) :
    block.val.length ≤ Cbor.bstrMax :=
  block.property.symm ▸ h

theorem length_credentialBytes (pubkey : Bytes32) :
    (credentialBytes pubkey).length = 40 := by
  rw [credentialBytes, List.length_append, length_bstr32]
  rfl

theorem encodeIdCred_eq_ok {buf out : HVec N} {pubkey : Bytes32} :
    encodeIdCred X buf pubkey = .ok out ↔
      out.toList = buf.toList ++ idCredBytes X pubkey := by
  simp only [encodeIdCred, if_pos (show 8 ≤ 23 by decide), pushErr, extendErr,
    HVec.okOr_extend, okOr_eq_ok, HVec.extend_eq_some]
  rfl

theorem encodeCredential_eq_ok {buf out : HVec N} {pubkey : Bytes32} :
    encodeCredential buf pubkey = .ok out ↔
      out.toList = buf.toList ++ credentialBytes pubkey := by
  have hlength := bstrMax_of_block (by decide) pubkey
  rw [encodeCredential, credentialBytes]
  simp only [encodeBstr, writeBstr_eq hlength, extendErr, HVec.okOr_extend,
    okOr_eq_ok, HVec.extend_eq_some]

theorem exists_encodeIdCred (X : Suite) (pubkey : Bytes32) (h : 11 ≤ N) :
    ∃ out : HVec N, encodeIdCred X HVec.empty pubkey = .ok out ∧
      out.toList = idCredBytes X pubkey :=
  ⟨⟨idCredBytes X pubkey, length_idCredBytes (X := X) pubkey ▸ h⟩,
    encodeIdCred_eq_ok.mpr rfl, rfl⟩

theorem exists_encodeCredential (pubkey : Bytes32) (h : 40 ≤ N) :
    ∃ out : HVec N, encodeCredential HVec.empty pubkey = .ok out ∧
      out.toList = credentialBytes pubkey :=
  ⟨⟨credentialBytes pubkey, length_credentialBytes pubkey ▸ h⟩,
    encodeCredential_eq_ok.mpr rfl, rfl⟩

/-- The credential of a bare key is what its owner encodes. -/
theorem rawKeyCredential_eq (pubkey : Bytes32) :
    rawKeyCredential X pubkey = (do
      let idCred ← encodeIdCred X HVec.empty pubkey
      let credential ← encodeCredential HVec.empty pubkey
      return (idCred, credential)) := by
  have hkid : ((X.sha256 pubkey.val).val.take 23).length ≤ 23 :=
    List.length_take_le _ _
  simp only [rawKeyCredential, encodeIdCred, encodeCredential, if_pos hkid,
    if_pos (show 8 ≤ 23 by decide), bind_assoc]

theorem exists_rawKeyCredential (X : Suite) (pubkey : Bytes32) :
    ∃ idCred credential,
      rawKeyCredential X pubkey = .ok (idCred, credential) ∧
        idCred.toList = idCredBytes X pubkey ∧
        credential.toList = credentialBytes pubkey := by
  obtain ⟨idCred, hid, hidBytes⟩ :=
    exists_encodeIdCred (N := 40) X pubkey (by decide)
  obtain ⟨credential, hcred, hcredBytes⟩ :=
    exists_encodeCredential (N := 80) pubkey (by decide)
  refine ⟨idCred, credential, ?_, hidBytes, hcredBytes⟩
  rw [rawKeyCredential_eq, hid, Outcome.ok_bind, hcred]
  rfl

/-- `parse_canonical_bstr` reads a value behind the shortest head for it. -/
theorem parseCanonicalBstr_eq_ok {data value : Bytes} {n : Nat} :
    parseCanonicalBstr data = .ok (value, n) ↔
      ReadBehind ShortHead data value n := by
  constructor
  · intro h
    obtain ⟨first, hbyte, h⟩ := Outcome.bind_eq_ok.mp h
    have hfirst := byteAt_eq_ok.mp hbyte
    rcases ite_eq_iff.mp h with ⟨hsmall, h⟩ | ⟨-, h⟩
    · refine takeItem_behind (.small first hsmall) ?_ h
      match data, hfirst with
      | _ :: _, rfl => rfl
    rcases ite_eq_iff.mp h with ⟨rfl, h⟩ | ⟨-, h⟩
    · obtain ⟨len, hlen, h⟩ := Outcome.bind_eq_ok.mp h
      obtain ⟨_, hshort, h⟩ := Outcome.bind_eq_ok.mp h
      refine takeItem_behind
        (.byte len (Nat.not_lt.mp (failIf_eq_ok.mp hshort))) ?_ h
      match data, hfirst, byteAt_eq_ok.mp hlen with
      | _ :: _ :: _, rfl, rfl => rfl
    rcases ite_eq_iff.mp h with ⟨rfl, h⟩ | ⟨-, h⟩
    · obtain ⟨high, hhigh, h⟩ := Outcome.bind_eq_ok.mp h
      obtain ⟨low, hlow, h⟩ := Outcome.bind_eq_ok.mp h
      obtain ⟨_, hshort, h⟩ := Outcome.bind_eq_ok.mp h
      refine takeItem_behind
        (.word high low (Nat.not_le.mp (failIf_eq_ok.mp hshort))) ?_ h
      match data, hfirst, byteAt_eq_ok.mp hhigh, byteAt_eq_ok.mp hlow with
      | _ :: _ :: _ :: _, rfl, rfl, rfl => rfl
    · cases h
  · rintro ⟨head, rest, hhead, rfl, rfl⟩
    have hitem := takeItem_append head value rest
    have hread : ∀ (tail : Bytes) (i : Nat) (byte : UInt8),
        (head ++ tail)[i]? = some byte → byteAt (head ++ tail) i = .ok byte :=
      fun tail i byte => byteAt_eq_ok.mpr
    generalize value.length = size at *
    cases hhead with
    | small first h =>
        rw [parseCanonicalBstr, hread _ 0 first rfl, Outcome.ok_bind, if_pos h]
        exact hitem
    | byte len h =>
        rw [parseCanonicalBstr, hread _ 0 0x58 rfl, Outcome.ok_bind,
          if_neg (by decide), if_pos rfl, hread _ 1 len rfl, Outcome.ok_bind,
          failIf_of_not _ (Nat.not_lt.mpr h), Outcome.ok_bind]
        exact hitem
    | word high low h =>
        have hwide : failIf (high.toNat * 256 + low.toNat ≤ 0xff)
            EdhocError.invalidMessage = .ok () :=
          failIf_of_not _ (Nat.not_le.mpr h)
        rw [parseCanonicalBstr, hread _ 0 0x59 rfl, Outcome.ok_bind,
          if_neg (by decide), if_neg (by decide), if_pos rfl,
          hread _ 1 high rfl, Outcome.ok_bind, hread _ 2 low rfl,
          Outcome.ok_bind]
        simp only [hwide, Outcome.ok_bind]
        exact hitem

/-- A byte string in its shortest form is read as it was written. -/
theorem parseCanonicalBstr_bstr {value : Bytes}
    (h : value.length ≤ Cbor.bstrMax) (rest : Bytes) :
    parseCanonicalBstr (Cbor.bstr value ++ rest) =
      .ok (value, (Cbor.bstr value).length) :=
  parseCanonicalBstr_eq_ok.mpr ⟨_, rest, shortHead_bstrHead h,
    List.append_assoc _ _ _, List.length_append⟩

/-- What is read canonically is read by the other parser too. -/
theorem parseBstr_of_canonical {data value : Bytes} {n : Nat}
    (h : parseCanonicalBstr data = .ok (value, n)) :
    parseBstr data = .ok (value, n) := by
  obtain ⟨head, rest, hhead, hdata, hn⟩ := parseCanonicalBstr_eq_ok.mp h
  exact parseBstr_eq_ok.mpr ⟨head, rest, hhead.bstrHead, hdata, hn⟩

/-- What the two encoders and the two parsers of byte strings do with one
another. -/
structure ByteStringCodecsFit : Prop where
  fits : ∀ {N : Nat} (buf : HVec N) (value : Bytes),
    (∃ out, encodeBstr buf value = .ok out) ↔ value.length ≤ 65535 ∧
      buf.toList.length + (Cbor.bstr value).length ≤ N
  agree : ∀ {N : Nat} (buf : HVec N) (value : Bytes),
    encodeBstr buf value = appendCborBstr buf value
  read : ∀ {N : Nat} (buf out : HVec N) (value : Bytes),
    encodeBstr buf value = .ok out →
    ∃ item, out.toList = buf.toList ++ item ∧ ∀ t,
      parseBstr (item ++ t) = .ok (value, item.length) ∧
        parseCanonicalBstr (item ++ t) = .ok (value, item.length)
  canonical : ∀ (data value : Bytes) (n : Nat),
    parseCanonicalBstr data = .ok (value, n) ↔
      ∃ (N : Nat) (out : HVec N), encodeBstr HVec.empty value = .ok out ∧
        (slice data 0 n : Outcome EdhocError Bytes) = .ok out.toList
  read_alike : ∀ (data value : Bytes) (n : Nat),
    parseCanonicalBstr data = .ok (value, n) →
    parseBstr data = .ok (value, n)

theorem exists_encodeBstr (buf : HVec N) (value : Bytes) :
    (∃ out, encodeBstr buf value = .ok out) ↔ value.length ≤ 65535 ∧
      buf.toList.length + (Cbor.bstr value).length ≤ N := by
  simp only [encodeBstr_eq_ok, exists_and_left, Cbor.bstrMax]
  apply and_congr_right
  intro _
  rw [← List.length_append]
  constructor
  · rintro ⟨out, hout⟩
    exact hout ▸ out.length_le
  · intro hfits
    exact ⟨⟨_, hfits⟩, rfl⟩

/-- The canonical parser reads what the encoder writes and nothing else. -/
theorem parseCanonicalBstr_iff_encodeBstr {data value : Bytes} {n : Nat} :
    parseCanonicalBstr data = .ok (value, n) ↔
      ∃ (N : Nat) (out : HVec N), encodeBstr HVec.empty value = .ok out ∧
        (slice data 0 n : Outcome EdhocError Bytes) = .ok out.toList := by
  constructor
  · intro h
    obtain ⟨head, rest, hhead, rfl, rfl⟩ := parseCanonicalBstr_eq_ok.mp h
    obtain ⟨hmax, rfl⟩ := hhead.eq
    refine ⟨_, ⟨Cbor.bstr value, le_rfl⟩, encodeBstr_eq_ok.mpr ⟨hmax, rfl⟩, ?_⟩
    rw [← List.append_assoc]
    exact slice_eq_ok.mpr ⟨Nat.zero_le _, by simp,
      (List.take_left' List.length_append).symm⟩
  · rintro ⟨N, out, hencode, hslice⟩
    obtain ⟨hmax, hout⟩ := encodeBstr_eq_ok.mp hencode
    obtain ⟨-, hle, hbytes⟩ := slice_eq_ok.mp hslice
    rw [hout, HVec.toList_empty, List.nil_append, List.drop_zero] at hbytes
    have hread := parseCanonicalBstr_bstr hmax (data.drop n)
    rw [hbytes, List.take_append_drop, List.length_take_of_le hle] at hread
    exact hread

theorem byteStringCodecs_fit : ByteStringCodecsFit where
  fits := exists_encodeBstr
  agree _ _ := rfl
  read buf out value h := by
    obtain ⟨hmax, hout⟩ := encodeBstr_eq_ok.mp h
    exact ⟨Cbor.bstr value, hout, fun t =>
      ⟨parseBstr_bstr hmax t, parseCanonicalBstr_bstr hmax t⟩⟩
  canonical _ _ _ := parseCanonicalBstr_iff_encodeBstr
  read_alike _ _ _ := parseBstr_of_canonical

/-- A map with nothing but a `kid` is read as it was written. -/
theorem parseIdCred_kid {cred : IdCred} {kid : HVec idCredMaxLen}
    (hbytes : cred.encoded.toList = [0xa1, 0x04] ++ Cbor.bstr kid.toList)
    (hreference : cred.reference = .kid kid) (rest : Bytes) :
    parseIdCred (cred.encoded.toList ++ rest) =
      .ok (cred, cred.encoded.toList.length) := by
  obtain ⟨encoded, reference⟩ := cred
  simp only at hbytes hreference
  subst hreference
  have hmax : kid.toList.length ≤ Cbor.bstrMax :=
    le_trans kid.length_le (by decide)
  let item := Cbor.bstr kid.toList
  have hlength : encoded.toList.length = 2 + item.length := by
    rw [hbytes, List.length_append]
    rfl
  have hdata : encoded.toList ++ rest = 0xa1 :: 0x04 :: (item ++ rest) := by
    rw [hbytes]
    rfl
  have hkey : sliceFrom (encoded.toList ++ rest) 1 =
      (.ok (0x04 :: (item ++ rest)) : Outcome EdhocError Bytes) := by
    rw [hdata]
    exact sliceFrom_of_le (by simp)
  have hvalue : sliceFrom (encoded.toList ++ rest) 2 =
      (.ok (item ++ rest) : Outcome EdhocError Bytes) := by
    rw [hdata]
    exact sliceFrom_of_le (by simp)
  have hlabel : tryParseCborInt (0x04 :: (item ++ rest)) = some (4, 1) := rfl
  have hread : parseCanonicalBstr (item ++ rest) =
      .ok (kid.toList, item.length) := parseCanonicalBstr_bstr hmax rest
  have hkid : HVec.ofBytes kid.toList = some kid :=
    HVec.ofBytes_eq_some.mpr rfl
  have hpos : ¬ 1 ≥ (encoded.toList ++ rest).length := by
    rw [hdata]
    simp
  have hparameter : parseParameter (encoded.toList ++ rest) 1
      ⟨[], none, none⟩ = .ok (⟨[4], some kid, none⟩, 2 + item.length) := by
    simp only [parseParameter, failIf_of_not _ hpos, hkey, hlabel, hvalue,
      parseLabelled, hread, hkid, Outcome.ok_bind, Outcome.pure_eq_ok,
      okOr_some, List.nil_append,
      failIf_of_not _ (List.not_mem_nil (a := (4 : Int)))]
    rfl
  have hhead : slice (encoded.toList ++ rest) 0 (2 + item.length) =
      (.ok encoded.toList : Outcome EdhocError Bytes) := by
    rw [slice_of_le (Nat.zero_le _)
      (by rw [List.length_append]; omega), List.drop_zero,
      List.take_left' hlength]
  have hencoded : extendErr HVec.empty encoded.toList = .ok encoded :=
    extendErr_eq_ok.mpr rfl
  have hmap : parseIdCredMap (encoded.toList ++ rest) 0xa1 =
      .ok (⟨encoded, .kid kid⟩, encoded.toList.length) := by
    have hcount : (0xa1 - 0xa0 : UInt8).toNat = 1 := rfl
    simp only [parseIdCredMap, hcount, parseParameters, hparameter,
      Outcome.ok_bind, Outcome.pure_eq_ok, chooseReference, hhead, hencoded,
      hlength]
  have hfirst : byteAt (encoded.toList ++ rest) 0 = .ok 0xa1 := by
    rw [hdata]
    exact byteAt_eq_ok.mpr rfl
  rw [parseIdCred, hfirst, Outcome.ok_bind, if_neg (by decide),
    if_neg (by decide), if_neg (by decide), if_neg (by decide),
    if_neg (by decide), failIf_of_not _ (by decide), Outcome.ok_bind, hmap]

/-- The parser reads an ID_CRED of this crate as it was written. -/
theorem parseIdCred_idCredBytes (pubkey : Bytes32) (rest : Bytes) :
    ∃ cred, cred.encoded.toList = idCredBytes X pubkey ∧
      parseIdCred (idCredBytes X pubkey ++ rest) = .ok (cred, 11) := by
  have hkid := length_kid (X := X) pubkey
  have hlength := length_idCredBytes (X := X) pubkey
  let kid : HVec idCredMaxLen :=
    ⟨(X.sha256 pubkey.val).val.take 8, by rw [hkid]; decide⟩
  let cred : IdCred :=
    ⟨⟨idCredBytes X pubkey, by rw [hlength]; decide⟩, .kid kid⟩
  have hbytes : cred.encoded.toList =
      [0xa1, 0x04] ++ Cbor.bstr kid.toList := by
    rw [Cbor.bstr, hkid]
    rfl
  have hread := parseIdCred_kid hbytes rfl rest
  rw [show cred.encoded.toList = idCredBytes X pubkey from rfl, hlength] at hread
  exact ⟨cred, rfl, hread⟩

/-! Validation of what this crate writes. -/

theorem validatePubkey_meets (X : Suite) (bytes : Bytes32) :
    (validatePubkey X bytes).Meets fun _ => X.validPoint bytes = true :=
  (Outcome.Meets.failIf _ _).mono fun _ h => by simpa using h

/-- A validated credential of this crate holds the key it comes with. -/
theorem validatePeerCredential_meets (X : Suite) (peer : PeerCredential) :
    (validatePeerCredential X peer).Meets fun _ =>
      X.validPoint peer.publicKey = true ∧
        ∀ pubkey, peer.credential = credentialBytes pubkey →
          peer.publicKey = pubkey := by
  refine (validatePubkey_meets X _).bind fun _ hpoint => ?_
  refine .ite (fun hfirst => ⟨hpoint, fun pubkey hcred => ?_⟩) fun _ => ?_
  · exact absurd (hcred ▸ rfl) hfirst
  refine (Outcome.Meets.failIf _ _).bind fun _ hlen => ?_
  refine (Outcome.Meets.failIf _ _).bind fun _ _ => ?_
  refine (Outcome.Meets.failIf _ _).bind fun _ _ => ?_
  refine (Outcome.Meets.failIf _ _).bind fun _ hlabel => ?_
  have hsix : 6 ≤ peer.credential.length :=
    (List.getElem?_eq_some_iff.mp (not_not.mp hlabel)).1
  refine (sliceFrom_meets _ hsix).bind fun rest hrest => ?_
  cases hbytes : parseBstr rest with
  | error fault =>
      rw [Outcome.error_bind]
      have hmeets := parseBstr_meets rest
      rw [hbytes] at hmeets
      exact hmeets
  | ok item =>
      refine (Outcome.Meets.failIf _ _).mono fun _ hkey =>
        ⟨hpoint, fun pubkey hcred => ?_⟩
      have hread := parseBstr_bstr (bstrMax_of_block (by decide) pubkey) []
      rw [List.append_nil] at hread
      rw [hrest, hcred] at hbytes
      have hitem : item = (pubkey.val, (Cbor.bstr pubkey.val).length) :=
        Except.ok.inj (hbytes.symm.trans hread)
      rw [hitem] at hkey
      exact Subtype.ext (not_not.mp (not_or.mp hkey).2).symm

/-- Two heads announce a string of 32 bytes. -/
theorem bstrHead_key {head : Bytes} :
    BstrHead 32 head ↔ head = [0x58, 0x20] ∨ head = [0x59, 0x00, 0x20] := by
  constructor
  · generalize hlength : 32 = len
    rintro (⟨first, h⟩ | ⟨byte⟩ | ⟨high, low⟩)
    · have hshort : ∀ byte : UInt8, 0x40 ≤ byte ∧ byte ≤ 0x57 →
          (byte - 0x40).toNat < 32 := by
        apply forall_byte
        decide +kernel
      exact absurd hlength (hshort first h).ne'
    · left
      have hbyte : byte = 0x20 := UInt8.toNat_inj.mp hlength.symm
      rw [hbyte]
    · right
      have hlow := low.toNat_lt
      have hhigh : high = 0x00 :=
        UInt8.toNat_inj.mp (show high.toNat = 0 by omega)
      have hbyte : low = 0x20 :=
        UInt8.toNat_inj.mp (show low.toNat = 32 by omega)
      rw [hhigh, hbyte]
  · rintro (rfl | rfl)
    · exact .byte 0x20
    · exact .word 0x00 0x20

/-- The key is checked in one shape of credential only. -/
theorem validatePeerCredential_eq_ok {peer : PeerCredential} :
    validatePeerCredential X peer = .ok () ↔
      X.validPoint peer.publicKey = true ∧
        (peer.credential[0]? = some 0xa3 → ∃ head rest, BstrHead 32 head ∧
          peer.credential = [0xa3, 0x01, 0x01, 0x20, 0x06, 0x21] ++
            (head ++ (peer.publicKey.val ++ rest))) := by
  have hpoint : validatePubkey X peer.publicKey = .ok () ↔
      X.validPoint peer.publicKey = true := by
    rw [validatePubkey, failIf_eq_ok, Bool.not_eq_false]
  simp only [validatePeerCredential, Outcome.bind_eq_ok, hpoint, exists_const]
  apply and_congr_right
  intro _
  by_cases hfirst : peer.credential[0]? = some 0xa3
  · rw [if_neg (not_not.mpr hfirst)]
    simp only [hfirst, Outcome.bind_eq_ok, failIf_eq_ok, true_imp_iff,
      exists_const, not_or, not_not, Prod.exists]
    constructor
    · rintro ⟨-, ⟨h1, h2⟩, ⟨h3, h4⟩, h5, rest, hrest, value, n, hread, -, hx⟩
      obtain ⟨head, tail, hhead, hsplit, -⟩ := parseBstr_eq_ok.mp hread
      rw [hx] at hhead hsplit
      refine ⟨head, tail, peer.publicKey.property ▸ hhead, ?_⟩
      rw [← hsplit, (sliceFrom_eq_ok.mp hrest).2]
      match peer.credential, hfirst, h1, h2, h3, h4, h5 with
      | _ :: _ :: _ :: _ :: _ :: _ :: _, rfl, rfl, rfl, rfl, rfl, rfl => rfl
    · rintro ⟨head, rest, hhead, hcred⟩
      rw [hcred]
      refine ⟨by simp, ⟨rfl, rfl⟩, ⟨rfl, rfl⟩, rfl, _, sliceFrom_append _ _,
        _, _, parseBstr_eq_ok.mpr ⟨head, rest, ?_, rfl, rfl⟩,
        peer.publicKey.property, rfl⟩
      exact peer.publicKey.property.symm ▸ hhead
  · rw [if_pos hfirst]
    exact iff_of_true rfl fun h => absurd h hfirst

/-- The credential of a valid key is valid. -/
theorem validatePeerCredential_credentialBytes {peer : PeerCredential}
    (hpoint : X.validPoint peer.publicKey = true)
    (hcred : peer.credential = credentialBytes peer.publicKey) :
    validatePeerCredential X peer = .ok () := by
  refine validatePeerCredential_eq_ok.mpr ⟨hpoint, fun _ =>
    ⟨[0x58, 0x20], [], bstrHead_key.mpr (Or.inl rfl), ?_⟩⟩
  rw [hcred, credentialBytes, Cbor.bstr, peer.publicKey.property,
    List.append_nil]
  rfl

end Oscore.Edhoc
