/-
The receiving half of the exchange access by access.  Where the model reads a
byte as an option or subtracts modulo the width of a type, the function stands
here once more as in the source: an index, a slice or a subtraction that is out
of range panics, and so does a call that is nested too deeply.
-/
import Oscore.Edhoc.Initiator
import Oscore.Edhoc.Responder
import Oscore.Edhoc.SkipValue

namespace Oscore.Edhoc

open Rust

namespace Strict

/-! Byte strings and identifiers. -/

def parseBstr (data : Bytes) : Outcome EdhocError (Bytes × Nat) := do
  let first ← byteAt data 0
  if 0x40 ≤ first ∧ first ≤ 0x57 then
    let len ← subByte first 0x40
    takeItem data 1 len.toNat
  else if first = 0x58 then
    let len ← byteAt data 1
    takeItem data 2 len.toNat
  else if first = 0x59 then
    failIf (data.length < 3) .invalidMessage
    let high ← index data 1
    let low ← index data 2
    takeItem data 3 (high.toNat * 256 + low.toNat)
  else
    throw (.err .invalidMessage)

def parseCanonicalBstr (data : Bytes) : Outcome EdhocError (Bytes × Nat) := do
  let first ← byteAt data 0
  if 0x40 ≤ first ∧ first ≤ 0x57 then
    let len ← subByte first 0x40
    takeItem data 1 len.toNat
  else if first = 0x58 then
    let len ← byteAt data 1
    failIf (len.toNat < 24) .invalidMessage
    takeItem data 2 len.toNat
  else if first = 0x59 then
    failIf (data.length < 3) .invalidMessage
    let high ← index data 1
    let low ← index data 2
    let len := high.toNat * 256 + low.toNat
    failIf (len ≤ 0xff) .invalidMessage
    takeItem data 3 len
  else
    throw (.err .invalidMessage)

def parseIdentifier (data : Bytes) :
    Outcome EdhocError (ConnectionId × Nat) := do
  let first ← byteAt data 0
  if first ≤ 0x17 then
    let id ← ConnectionId.new [first]
    return (id, 1)
  else if 0x20 ≤ first ∧ first ≤ 0x37 then
    let n ← addByte (← subByte first 0x20) 1
    let val ← sub 256 n.toNat
    let id ← ConnectionId.new [UInt8.ofNat val]
    return (id, 1)
  else if first = 0x18 then
    throw (.err .invalidMessage)
  else if 0x40 ≤ first ∧ first ≤ 0x57 then
    let len ← subByte first 0x40
    if len.toNat = 1 ∧ data.length ≥ 2 then
      let byte ← index data 1
      failIf (byte ≤ 23) .invalidMessage
    let (value, consumed) ← takeItem data 1 len.toNat
    let id ← ConnectionId.new value
    return (id, consumed)
  else if first = 0x58 then
    let len ← byteAt data 1
    failIf (data.length < 2 + len.toNat ∨ len.toNat > connectionIdCapacity)
      .invalidMessage
    let (value, consumed) ← takeItem data 2 len.toNat
    let id ← ConnectionId.new value
    return (id, consumed)
  else
    throw (.err .invalidMessage)

/-- One guard for the two bytes of a length. -/
theorem word_guarded (data : Bytes) {α : Type}
    (f : UInt8 → UInt8 → Outcome EdhocError α) :
    (do
      failIf (data.length < 3) .invalidMessage
      let high ← index data 1
      let low ← index data 2
      f high low) = (do
      let high ← byteAt data 1
      let low ← byteAt data 2
      f high low) := by
  match data with
  | [] => rfl
  | [_] => rfl
  | [_, _] => rfl
  | _ :: _ :: _ :: _ => rfl

/-- The byte behind a head is read only where there is one. -/
theorem second_guarded (cond : Prop) [Decidable cond] (data : Bytes)
    {α : Type} (f : Unit → Outcome EdhocError α) :
    (if cond ∧ data.length ≥ 2 then do
      let byte ← index data 1
      let done ← failIf (byte ≤ 23) .invalidMessage
      f done
    else f ()) =
      failIf (cond ∧ data[1]?.any (· ≤ 23) = true) .invalidMessage >>= f := by
  by_cases hcond : cond
  · match data with
    | [] => simp [hcond, failIf_of_not]
    | [_] => simp [hcond, failIf_of_not]
    | _ :: byte :: _ => simp [hcond, index, expect]
  · simp [hcond, failIf_of_not]

theorem parseBstr_eq (data : Bytes) :
    parseBstr data = Edhoc.parseBstr data := by
  refine bind_congr fun first => ?_
  split
  · rename_i hshort
    rw [subByte_of_le hshort.1]
    rfl
  split
  · rfl
  split
  · exact word_guarded data _
  · rfl

theorem parseCanonicalBstr_eq (data : Bytes) :
    parseCanonicalBstr data = Edhoc.parseCanonicalBstr data := by
  refine bind_congr fun first => ?_
  split
  · rename_i hshort
    rw [subByte_of_le hshort.1]
    rfl
  split
  · rfl
  split
  · exact word_guarded data _
  · rfl

theorem parseIdentifier_eq (data : Bytes) :
    parseIdentifier data = Edhoc.parseIdentifier data := by
  refine bind_congr fun first => ?_
  split
  · rfl
  split
  · rename_i hneg
    have hall : ∀ byte : UInt8, 0x20 ≤ byte ∧ byte ≤ 0x37 →
        (byte - 0x20).toNat + (1 : UInt8).toNat < 256 ∧
          (byte - 0x20 + 1).toNat ≤ 256 := by
      apply forall_byte
      decide +kernel
    obtain ⟨hadd, hsub⟩ := hall first hneg
    rw [subByte_of_le hneg.1, Outcome.ok_bind, addByte_of_lt hadd,
      Outcome.ok_bind, sub_of_le hsub]
    rfl
  split
  · rfl
  split
  · rename_i hshort
    rw [subByte_of_le hshort.1, Outcome.ok_bind]
    exact second_guarded _ data _
  · rfl

/-! Suites. -/

def parseArrayHeader (data : Bytes) (first : UInt8) :
    Outcome EdhocError (Nat × Nat) :=
  if 0x80 ≤ first ∧ first ≤ 0x97 then do
    let arrLen ← subByte first 0x80
    return (arrLen.toNat, 1)
  else if first = 0x98 then do
    let count ← byteAt data 1
    return (count.toNat, 2)
  else
    throw (.err .invalidMessage)

def parseSuitesR (data : Bytes) : Outcome EdhocError Nat := do
  let first ← byteAt data 0
  if first ≤ 0x17 then
    return 1
  else if first = 0x18 then
    failIf (data.length < 2) .invalidMessage
    return 2
  else if 0x80 ≤ first ∧ first ≤ 0x97 then
    let arrLen ← subByte first 0x80
    failIf (data.length < 1 + arrLen.toNat) .invalidMessage
    return 1 + arrLen.toNat
  else if first = 0x98 then
    let count ← byteAt data 1
    failIf (data.length < 2 + count.toNat) .invalidMessage
    return 2 + count.toNat
  else
    throw (.err .invalidMessage)

theorem parseArrayHeader_eq (data : Bytes) (first : UInt8) :
    parseArrayHeader data first = Edhoc.parseArrayHeader data first := by
  unfold parseArrayHeader Edhoc.parseArrayHeader
  split
  · rename_i hshort
    rw [subByte_of_le hshort.1]
    rfl
  · rfl

theorem parseSuitesR_eq (data : Bytes) :
    parseSuitesR data = Edhoc.parseSuitesR data := by
  refine bind_congr fun first => ?_
  split
  · rfl
  split
  · rfl
  split
  · rename_i hshort
    rw [subByte_of_le hshort.1]
    rfl
  · rfl

/-! The parser of ID_CRED. -/

def tryParseCborInt (data : Bytes) :
    Outcome EdhocError (Option (Int × Nat)) :=
  if data.length = 0 then return none
  else do
    let first ← index data 0
    if first ≤ 0x17 then
      return some (first.toNat, 1)
    else if first = 0x18 then
      if data.length < 2 then return none
      else
        let byte ← index data 1
        return if byte < 24 then none else some (byte.toNat, 2)
    else if first = 0x19 then
      if data.length < 3 then return none
      else
        let high ← index data 1
        let low ← index data 2
        let val : Int := high.toNat * 256 + low.toNat
        return if val ≤ 0xff then none else some (val, 3)
    else if 0x20 ≤ first ∧ first ≤ 0x37 then
      let val ← subByte first 0x20
      return some (-((val.toNat : Int) + 1), 1)
    else if first = 0x38 then
      if data.length < 2 then return none
      else
        let byte ← index data 1
        return if byte < 24 then none else some (-((byte.toNat : Int) + 1), 2)
    else if first = 0x39 then
      if data.length < 3 then return none
      else
        let high ← index data 1
        let low ← index data 2
        let val : Int := high.toNat * 256 + low.toNat
        return if val ≤ 0xff then none else some (-(val + 1), 3)
    else
      return none

/-- The body of `skip_cbor_value`, where `depth` calls may be open at once. -/
def skipValue : Nat → Bytes → Outcome EdhocError Nat
  | 0, _ => .error .panic
  | depth + 1, data => do
      let first ← byteAt data 0
      if first ≤ 0x17 then return 1
      else if first = 0x18 then measured data 2
      else if first = 0x19 then measured data 3
      else if 0x20 ≤ first ∧ first ≤ 0x37 then return 1
      else if first = 0x38 then measured data 2
      else if first = 0x39 then measured data 3
      else if 0x40 ≤ first ∧ first ≤ 0x57 then
        let len ← subByte first 0x40
        measured data (1 + len.toNat)
      else if first = 0x58 then
        let len ← byteAt data 1
        measured data (2 + len.toNat)
      else if 0x60 ≤ first ∧ first ≤ 0x77 then
        let len ← subByte first 0x60
        measured data (1 + len.toNat)
      else if first = 0x78 then
        let len ← byteAt data 1
        measured data (2 + len.toNat)
      else if 0x80 ≤ first ∧ first ≤ 0x97 then
        let count ← subByte first 0x80
        skipRun (skipValue depth) data count.toNat 1
      else if first = 0x98 then
        let count ← byteAt data 1
        skipRun (skipValue depth) data count.toNat 2
      else throw (.err .invalidMessage)

def validateAlgValue (data : Bytes) : Outcome EdhocError Nat := do
  let first ← byteAt data 0
  match skipIntValue data with
  | .ok len => return len
  | .error .panic => .error .panic
  | .error (.err _) =>
      if 0x80 ≤ first ∧ first ≤ 0x97 then
        let count ← subByte first 0x80
        validateAlgElements data count.toNat 1 []
      else
        throw (.err .invalidMessage)

def parseX5tValue (data : Bytes) :
    Outcome EdhocError ((Int × HVec idCredMaxLen) × Nat) := do
  let first ← byteAt data 0
  failIf (first ≠ 0x82) .invalidMessage
  let rest ← sliceFrom data 1
  let (alg, algLen) ← okOr (← tryParseCborInt rest) .invalidMessage
  let rest ← sliceFrom data (1 + algLen)
  let (hashVal, hashLen) ← parseBstr rest
  let hash ← okOr (HVec.ofBytes hashVal) .bufferTooSmall
  return ((alg, hash), 1 + algLen + hashLen)

def parseIdCredMap (data : Bytes) (first : UInt8) :
    Outcome EdhocError (IdCred × Nat) := do
  let numPairs ← subByte first 0xa0
  let (found, offset) ←
    parseParameters data numPairs.toNat 1 ⟨[], none, none⟩
  let reference ← chooseReference found
  let head ← slice data 0 offset
  let encoded ← extendErr HVec.empty head
  return (⟨encoded, reference⟩, offset)

theorem option_guarded (data : Bytes) {α : Type} (f : UInt8 → Option α) :
    (if data.length < 2 then return none
    else do
      let byte ← index data 1
      return f byte : Outcome EdhocError (Option α)) =
      .ok (data[1]? >>= f) := by
  match data with
  | [] => rfl
  | [_] => rfl
  | _ :: _ :: _ => rfl

theorem option_guarded_word (data : Bytes) {α : Type}
    (f : UInt8 → UInt8 → Option α) :
    (if data.length < 3 then return none
    else do
      let high ← index data 1
      let low ← index data 2
      return f high low : Outcome EdhocError (Option α)) =
      .ok (data[1]? >>= fun high => data[2]? >>= f high) := by
  match data with
  | [] => rfl
  | [_] => rfl
  | [_, _] => rfl
  | _ :: _ :: _ :: _ => rfl

theorem ite_eq_ok {α : Type} {cond : Prop} [Decidable cond]
    {x y : Outcome EdhocError α} {a b : α} (hthen : cond → x = .ok a)
    (helse : ¬ cond → y = .ok b) :
    (if cond then x else y) = .ok (if cond then a else b) := by
  by_cases h : cond
  · rw [if_pos h, if_pos h, hthen h]
  · rw [if_neg h, if_neg h, helse h]

theorem tryParseCborInt_eq (data : Bytes) :
    tryParseCborInt data = .ok (Edhoc.tryParseCborInt data) := by
  cases data with
  | nil => rfl
  | cons first rest =>
      unfold tryParseCborInt Edhoc.tryParseCborInt
      rw [if_neg (by simp), index_zero_cons, Outcome.ok_bind,
        List.getElem?_cons_zero, Option.bind_eq_bind, Option.bind_some]
      refine ite_eq_ok (fun _ => rfl) fun _ => ?_
      refine ite_eq_ok (fun _ => option_guarded _ _) fun _ => ?_
      refine ite_eq_ok (fun _ => option_guarded_word _ _) fun _ => ?_
      refine ite_eq_ok (fun hneg => ?_) fun _ => ?_
      · rw [subByte_of_le hneg.1]
        rfl
      refine ite_eq_ok (fun _ => option_guarded _ _) fun _ => ?_
      exact ite_eq_ok (fun _ => option_guarded_word _ _) fun _ => rfl

/-- Any nesting of the input needs no more calls than it has bytes, and the one
for the input itself. -/
theorem skipValue_eq {depth : Nat} {data : Bytes} (h : data.length < depth) :
    skipValue depth data = skipCborValue data := by
  induction depth generalizing data with
  | zero => omega
  | succ depth ih =>
      have hrun : ∀ count {offset}, 1 ≤ offset →
          skipRun (skipValue depth) data count offset =
            skipRun (Edhoc.skipValue depth) data count offset := by
        intro count offset hoffset
        refine skipRun_congr (fun rest hlt => ?_) count hoffset
        rw [ih (by omega)]
        exact skipValue_fuel le_rfl (by omega)
      have hfuel : skipCborValue data = Edhoc.skipValue (depth + 1) data :=
        skipValue_fuel le_rfl (by omega)
      rw [hfuel]
      refine bind_congr fun first => ?_
      iterate 6
        refine ite_congr rfl (fun _ => rfl) fun _ => ?_
      refine ite_congr rfl (fun hshort => ?_) fun _ => ?_
      · rw [subByte_of_le hshort.1]
        rfl
      refine ite_congr rfl (fun _ => rfl) fun _ => ?_
      refine ite_congr rfl (fun hshort => ?_) fun _ => ?_
      · rw [subByte_of_le hshort.1]
        rfl
      refine ite_congr rfl (fun _ => rfl) fun _ => ?_
      refine ite_congr rfl (fun hshort => ?_) fun _ => ?_
      · rw [subByte_of_le hshort.1]
        exact hrun _ le_rfl
      refine ite_congr rfl (fun _ => ?_) fun _ => rfl
      exact bind_congr fun count => hrun _ Nat.one_lt_two.le

theorem validateAlgValue_eq (data : Bytes) :
    validateAlgValue data = Edhoc.validateAlgValue data := by
  refine bind_congr fun first => ?_
  cases hskip : skipIntValue data with
  | ok len => rfl
  | error fault =>
      cases fault with
      | panic => exact absurd hskip (skipIntValue_meets data).ne_panic
      | err error =>
          simp only
          split
          · rename_i hshort
            rw [subByte_of_le hshort.1]
            rfl
          · rfl

/-- The tag of an `x5t` value, read or compared as an option. -/
theorem tag_guarded (data : Bytes) {α : Type} (f : Outcome EdhocError α) :
    (do
      let first ← byteAt data 0
      failIf (first ≠ 0x82) .invalidMessage
      f) = (do
      failIf (data[0]? ≠ some 0x82) .invalidMessage
      f) := by
  cases data with
  | nil => rfl
  | cons first rest =>
      rw [byteAt_eq, List.getElem?_cons_zero, okOr_some, Outcome.ok_bind]
      simp only [ne_eq, Option.some.injEq]

theorem parseX5tValue_eq (data : Bytes) :
    parseX5tValue data = Edhoc.parseX5tValue data := by
  simp only [parseX5tValue, tag_guarded, tryParseCborInt_eq, parseBstr_eq,
    Outcome.ok_bind]
  rfl

theorem parseIdCredMap_eq (data : Bytes) {first : UInt8}
    (h : 0xa1 ≤ first) :
    parseIdCredMap data first = Edhoc.parseIdCredMap data first := by
  have hbase : (0xa0 : UInt8) ≤ 0xa1 := by decide
  rw [parseIdCredMap, subByte_of_le (UInt8.le_trans hbase h)]
  rfl

/-! Messages. -/

def parseCI (rest : Bytes) : Outcome EdhocError UInt8 := do
  let first ← byteAt rest 0
  if first ≤ 23 then
    failIf (rest.length > 1) .invalidMessage
    return first
  else if first = 0x41 ∧ rest.length > 1 then
    let cI ← index rest 1
    failIf (rest.length > 2) .invalidMessage
    return cI
  else
    throw (.err .invalidMessage)

/-- The error for a message 2 that is an error message; only an `Err` of the
parser is replaced. -/
def errorMessage2 (msg2 : Bytes) : Outcome EdhocError EdhocError := do
  let rest ← sliceFrom msg2 1
  match parseSuitesR rest with
  | .ok consumed =>
      if consumed + 1 = msg2.length then return .unsupportedSuite
      else return .invalidMessage
  | .error (.err _) => return .invalidMessage
  | .error .panic => .error .panic

/-- `for (i, &b) in text.iter().enumerate() { out.push_err(b ^ key[i])? }` -/
def xorFrom (key : Bytes) :
    Nat → Bytes → HVec 128 → Outcome EdhocError (HVec 128)
  | _, [], out => return out
  | i, byte :: text, out => do
      let mask ← index key i
      let out ← pushErr out (byte ^^^ mask)
      xorFrom key (i + 1) text out

def xorKeystream2 (X : Suite) (prk2e th2 : Bytes32) (text : Bytes) :
    Outcome EdhocError (HVec 128) := do
  let keystream2 ← edhocKdf X prk2e labelKeystream2 th2.val text.length
  xorFrom keystream2.val 0 text HVec.empty

def decryptMessage3 (X : Suite) (prk3e2m th3 : Bytes32) (msg3 : Bytes) :
    Outcome EdhocError (HVec 128) := do
  let (ciphertext3, consumed) ← parseBstr msg3
  failIf (consumed ≠ msg3.length) .invalidMessage
  let (k3, iv3) ← message3Keys X prk3e2m th3
  let a3 ← buildA3 th3
  failIf (ciphertext3.length < tagLen) .invalidMessage
  let tagStart ← sub ciphertext3.length tagLen
  let tag ← copyFromSlice tagLen (← sliceFrom ciphertext3 tagStart)
  let plaintext3 ← extendErr HVec.empty (← slice ciphertext3 0 tagStart)
  okOr (decryptInPlace X.toCrypto k3 iv3 a3.toList plaintext3 tag)
    .decryptFailed

theorem parseCI_eq (rest : Bytes) : parseCI rest = Edhoc.parseCI rest := by
  cases rest <;> rfl

theorem errorMessage2_eq {msg2 : Bytes} (h : msg2.head? = some 2) :
    errorMessage2 msg2 = .ok (Edhoc.errorMessage2 msg2) := by
  have hone : 1 ≤ msg2.length := by
    cases msg2 with
    | nil => cases h
    | cons first rest => exact Nat.le_add_left _ _
  rw [errorMessage2, sliceFrom_of_le hone, Outcome.ok_bind, parseSuitesR_eq,
    Edhoc.errorMessage2]
  cases hsuites : Edhoc.parseSuitesR (msg2.drop 1) with
  | ok consumed =>
      simp only
      split <;> rfl
  | error fault =>
      cases fault with
      | err error => rfl
      | panic => exact absurd hsuites (parseSuitesR_meets _).ne_panic

theorem xorFrom_eq {key text : Bytes} {i : Nat}
    (h : i + text.length ≤ key.length) (out : HVec 128) :
    xorFrom key i text out =
      extendErr out (List.zipWith (· ^^^ ·) text (key.drop i)) := by
  induction text generalizing i out with
  | nil => exact (congrArg (okOr · _) (HVec.extend_nil out)).symm
  | cons byte text ih =>
      rw [List.length_cons] at h
      have hi : i < key.length := by omega
      have hmask : (index key i : Outcome EdhocError UInt8) = .ok key[i] :=
        index_eq_ok.mpr (List.getElem?_eq_getElem hi)
      rw [xorFrom, hmask, Outcome.ok_bind, List.drop_eq_getElem_cons hi,
        List.zipWith_cons_cons, ← List.singleton_append, ← extendErr_extendErr]
      exact bind_congr fun out => ih (by omega) out

theorem xorKeystream2_eq (X : Suite) (prk2e th2 : Bytes32) (text : Bytes) :
    xorKeystream2 X prk2e th2 text = Edhoc.xorKeystream2 X prk2e th2 text := by
  refine bind_congr fun keystream2 => ?_
  have hlength : 0 + text.length ≤ keystream2.val.length := by
    rw [keystream2.property, Nat.zero_add]
  rw [xorFrom_eq hlength, List.drop_zero]

theorem decryptMessage3_eq (X : Suite) (prk3e2m th3 : Bytes32)
    (msg3 : Bytes) :
    decryptMessage3 X prk3e2m th3 msg3 =
      Edhoc.decryptMessage3 X prk3e2m th3 msg3 := by
  rw [decryptMessage3, parseBstr_eq]
  refine bind_congr fun item => failIf_bind_congr fun _ => ?_
  refine bind_congr fun keys => bind_congr fun a3 => ?_
  refine failIf_bind_congr fun hlen => ?_
  rw [sub_of_le (Nat.not_lt.mp hlen)]
  rfl

end Strict

/-! No input is a crash. -/

/-- Every access and every subtraction of the source is in range: each function
is the one that panics where it is not. -/
structure InRange (X : Suite) : Prop where
  bstr : ∀ data, Strict.parseBstr data = parseBstr data
  canonicalBstr : ∀ data,
    Strict.parseCanonicalBstr data = parseCanonicalBstr data
  identifier : ∀ data, Strict.parseIdentifier data = parseIdentifier data
  arrayHeader : ∀ data first,
    Strict.parseArrayHeader data first = parseArrayHeader data first
  suitesR : ∀ data, Strict.parseSuitesR data = parseSuitesR data
  cborInt : ∀ data,
    Strict.tryParseCborInt data = .ok (tryParseCborInt data)
  algValue : ∀ data, Strict.validateAlgValue data = validateAlgValue data
  x5tValue : ∀ data, Strict.parseX5tValue data = parseX5tValue data
  /-- Only a map is parsed as a map. -/
  idCredMap : ∀ (data : Bytes) (first : UInt8), 0xa1 ≤ first →
    Strict.parseIdCredMap data first = parseIdCredMap data first
  cI : ∀ rest, Strict.parseCI rest = parseCI rest
  /-- Only a message 2 that starts as an error message is read as one. -/
  errorMessage2 : ∀ msg2 : Bytes, msg2.head? = some 2 →
    Strict.errorMessage2 msg2 = .ok (errorMessage2 msg2)
  keystream2 : ∀ prk2e th2 text,
    Strict.xorKeystream2 X prk2e th2 text = xorKeystream2 X prk2e th2 text
  message3 : ∀ prk3e2m th3 msg3,
    Strict.decryptMessage3 X prk3e2m th3 msg3 =
      decryptMessage3 X prk3e2m th3 msg3
  /-- The calls for nested arrays end before there are more of them than bytes
  of input. -/
  nesting : ∀ (depth : Nat) (data : Bytes), data.length < depth →
    Strict.skipValue depth data = skipCborValue data

/-- Every parser ends without a panic, and the length it reports lies between
one and the length of its input. -/
structure ReportsWithin : Prop where
  bstr : ∀ data, (parseBstr data).Meets fun item => Within data item.2
  canonicalBstr : ∀ data,
    (parseCanonicalBstr data).Meets fun item => Within data item.2
  identifier : ∀ data,
    (parseIdentifier data).Meets fun item => Within data item.2
  suitesI : ∀ data, (parseSuitesI data).Meets fun item => Within data item.2
  suitesR : ∀ data, (parseSuitesR data).Meets (Within data)
  cborInt : ∀ (data : Bytes) (val : Int) (n : Nat),
    tryParseCborInt data = some (val, n) → Within data n
  intValue : ∀ data, (skipIntValue data).Meets (Within data)
  cborValue : ∀ data, (skipCborValue data).Meets (Within data)
  algValue : ∀ data, (validateAlgValue data).Meets (Within data)
  x5tValue : ∀ data, (parseX5tValue data).Meets fun item => Within data item.2
  idCred : ∀ data, (parseIdCred data).Meets fun item => Within data item.2

/-- No message is a crash, in any state and whatever the primitives compute. -/
structure NoCrash (X : Suite) : Prop where
  message1 : ∀ (self t : EdhocResponder) (msg1 : Bytes),
    (EdhocResponder.processMessage1 X msg1).run self ≠ .error .panic t
  message2 : ∀ (self t : EdhocInitiator) (msg2 : Bytes),
    (EdhocInitiator.beginProcessMessage2 X msg2).run self ≠ .error .panic t
  message3 : ∀ (self t : EdhocResponder) (msg3 : Bytes),
    (EdhocResponder.beginProcessMessage3 X msg3).run self ≠ .error .panic t
  plaintext2 : ∀ (cI : ConnectionId) (pt2 : Bytes),
    parsePlaintext2 X cI pt2 ≠ .error .panic
  plaintext3 : ∀ pt3 : Bytes, parsePlaintext3 X pt3 ≠ .error .panic
  inRange : InRange X
  within : ReportsWithin

theorem in_range (X : Suite) : InRange X where
  bstr := Strict.parseBstr_eq
  canonicalBstr := Strict.parseCanonicalBstr_eq
  identifier := Strict.parseIdentifier_eq
  arrayHeader := Strict.parseArrayHeader_eq
  suitesR := Strict.parseSuitesR_eq
  cborInt := Strict.tryParseCborInt_eq
  algValue := Strict.validateAlgValue_eq
  x5tValue := Strict.parseX5tValue_eq
  idCredMap data _ := Strict.parseIdCredMap_eq data
  cI := Strict.parseCI_eq
  errorMessage2 _ := Strict.errorMessage2_eq
  keystream2 := Strict.xorKeystream2_eq X
  message3 := Strict.decryptMessage3_eq X
  nesting _ _ := Strict.skipValue_eq

theorem reports_within : ReportsWithin where
  bstr data := (parseBstr_meets data).mono fun _ h => h.within
  canonicalBstr := parseCanonicalBstr_meets
  identifier := parseIdentifier_meets
  suitesI := parseSuitesI_meets
  suitesR := parseSuitesR_meets
  cborInt _ _ _ := tryParseCborInt_within
  intValue := skipIntValue_meets
  cborValue := skipCborValue_meets
  algValue := validateAlgValue_meets
  x5tValue := parseX5tValue_meets
  idCred := parseIdCred_meets

theorem no_crash (X : Suite) : NoCrash X where
  message1 self _ msg1 :=
    (EdhocResponder.processMessage1_meets self msg1).ne_panic
  message2 self _ msg2 :=
    (EdhocInitiator.beginProcessMessage2_meets self msg2).ne_panic
  message3 self _ msg3 :=
    (EdhocResponder.beginProcessMessage3_meets self msg3).ne_panic
  plaintext2 cI pt2 := (parsePlaintext2_meets cI pt2).ne_panic
  plaintext3 pt3 := (parsePlaintext3_meets pt3).ne_panic
  inRange := in_range X
  within := reports_within

end Oscore.Edhoc
