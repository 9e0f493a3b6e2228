/-
The hand-written encoders of AAD and HKDF info against the CBOR data model: they
write the deterministic encoding of the structure they are named for, whatever
the lengths, and different structures give different bytes.
-/
import Oscore.KeyRecord
import Oscore.Lib.CborValue
import Oscore.Lib.Triple

namespace Oscore

open Rust Cbor

/-! The structures. -/

/-- `[1, [10], kid, piv, h'']` -/
def aadArrayValue (requestKid requestPiv : Bytes) : Value :=
  .array [.uint 1, .array [.uint 10], .bytes requestKid, .bytes requestPiv,
    .bytes []]

/-- `["Encrypt0", h'', bstr(aad_array)]` -/
def aadValue (requestKid requestPiv : Bytes) : Value :=
  .array [.text encrypt0, .bytes [],
    .bytes (aadArrayValue requestKid requestPiv).encode]

def contextValue : Option Bytes → Value
  | some bytes => .bytes bytes
  | none => .null

/-- `[id, id_context, 10, type, L]` -/
def infoValue (id : Bytes) (idContext : Option Bytes) (typeStr : Bytes)
    (outLen : Nat) : Value :=
  .array [.bytes id, contextValue idContext, .uint 10, .text typeStr,
    .uint outLen]

/-! Heads. -/

theorem bytesHead_eq {n : Nat} (h : n ≤ 23) :
    headBytes 2 n = [0x40 ||| UInt8.ofNat n] := by
  have hall : ∀ k : Fin 24,
      headBytes 2 k.val = [0x40 ||| UInt8.ofNat k.val] := by decide
  exact hall ⟨n, by omega⟩

theorem textHead_eq {n : Nat} (h : n ≤ 23) :
    headBytes 3 n = [0x60 ||| UInt8.ofNat n] := by
  have hall : ∀ k : Fin 24,
      headBytes 3 k.val = [0x60 ||| UInt8.ofNat k.val] := by decide
  exact hall ⟨n, by omega⟩

/-- The two forms of a string head that the encoders of this crate know. -/
theorem cborHead_eq {n : Nat} (h : n ≤ 255) :
    cborHead 0x40 n = headBytes 2 n := by
  unfold cborHead
  by_cases hsmall : n ≤ 23
  · rw [if_pos hsmall, bytesHead_eq hsmall]
  · have hmod : n % 256 = n := Nat.mod_eq_of_lt (by omega)
    rw [if_neg hsmall, headBytes, if_neg (by omega),
      if_pos (by omega : n < 2 ^ 8), beBytes, beBytes, hmod]
    rfl

theorem shortBstr_eq {bytes : Bytes} (h : bytes.length ≤ 23) :
    shortBstr bytes = (Value.bytes bytes).encode := by
  rw [shortBstr, Value.encode, bytesHead_eq h]

/-! The AAD. -/

theorem aadArray_eq {requestKid requestPiv : Bytes}
    (hkid : requestKid.length ≤ 23) (hpiv : requestPiv.length ≤ 23) :
    aadArray requestKid requestPiv =
      (aadArrayValue requestKid requestPiv).encode := by
  simp only [aadArray, shortBstr_eq hkid, shortBstr_eq hpiv, aadArrayValue,
    Value.encode, Value.encodeAll, List.append_assoc]
  rfl

theorem aadValue_encode {requestKid requestPiv : Bytes}
    (hkid : requestKid.length ≤ 23) (hpiv : requestPiv.length ≤ 23) :
    (aadValue requestKid requestPiv).encode =
      0x83 :: 0x68 :: (encrypt0 ++ 0x40 ::
        (cborHead 0x40 (aadArray requestKid requestPiv).length ++
          aadArray requestKid requestPiv)) := by
  have hlength := length_aadArray requestKid requestPiv
  rw [cborHead_eq (by omega), aadArray_eq hkid hpiv]
  simp only [aadValue, Value.encode, Value.encodeAll, List.append_assoc]
  simp only [List.append_nil]
  rfl

/-- With parts that fit a short head the encoder writes one string. -/
theorem buildAadCbor_eq {requestKid requestPiv : Bytes}
    (hkid : requestKid.length ≤ 23) (hpiv : requestPiv.length ≤ 23)
    (capacity : Nat) :
    buildAadCbor requestKid requestPiv capacity =
      okOr (HVec.empty.extend (aadValue requestKid requestPiv).encode)
        .invalidParam := by
  simp only [buildAadCbor, buildAadArray_eq hkid hpiv, Outcome.ok_bind,
    HVec.okOr_extend, aadValue_encode hkid hpiv]
  rfl

theorem buildAadArray_of_long {requestKid requestPiv : Bytes}
    (h : ¬ (requestKid.length ≤ 23 ∧ requestPiv.length ≤ 23)) :
    buildAadArray requestKid requestPiv = .error (.err .invalidParam) := by
  have hfront : (expect ((HVec.empty : HVec 64).extend
      [0x85, 0x01, 0x81, algAead]) : Outcome OscoreError (HVec 64)) =
        .ok ⟨[0x85, 0x01, 0x81, algAead], by decide⟩ := rfl
  simp only [buildAadArray, HVec.expect_extend_bind, List.cons_append,
    List.nil_append, hfront, Outcome.ok_bind]
  by_cases hkid : requestKid.length ≤ 23
  · have hpiv : requestPiv.length > 23 := by
      by_contra hpiv
      exact h ⟨hkid, Nat.not_lt.mp hpiv⟩
    have hitem : ∃ inner : HVec 64, ((HVec.extend
        ⟨[0x85, 0x01, 0x81, algAead], by decide⟩
        ((0x40 ||| UInt8.ofNat requestKid.length) :: requestKid)) :
          Option (HVec 64)) = some inner := by
      refine ⟨_, HVec.extend_of_le ?_⟩
      simp only [List.length_cons, List.length_nil]
      omega
    obtain ⟨inner, hinner⟩ := hitem
    rw [failIf_of_not _ (Nat.not_lt.mpr hkid), Outcome.ok_bind]
    simp only [hinner, expect_some, Outcome.ok_bind]
    simp [failIf, hpiv]
  · simp [failIf, Nat.not_le.mp hkid]

theorem buildAadCbor_of_long {requestKid requestPiv : Bytes}
    (h : ¬ (requestKid.length ≤ 23 ∧ requestPiv.length ≤ 23))
    (capacity : Nat) :
    buildAadCbor requestKid requestPiv capacity =
      .error (.err .invalidParam) := by
  rw [buildAadCbor, buildAadArray_of_long h]
  rfl

/-- For identifiers and Partial IVs of any length: the encoding or an error. -/
theorem buildAadCbor_eq_ok {requestKid requestPiv : Bytes} {capacity : Nat}
    {aad : HVec capacity} :
    buildAadCbor requestKid requestPiv capacity = .ok aad ↔
      (requestKid.length ≤ 23 ∧ requestPiv.length ≤ 23) ∧
        aad.toList = (aadValue requestKid requestPiv).encode := by
  by_cases h : requestKid.length ≤ 23 ∧ requestPiv.length ≤ 23
  · rw [buildAadCbor_eq h.1 h.2, okOr_eq_ok, HVec.extend_eq_some]
    exact (and_iff_right h).symm
  · simp [buildAadCbor_of_long h, h]

theorem buildAadCbor_ne_panic (requestKid requestPiv : Bytes)
    (capacity : Nat) :
    buildAadCbor requestKid requestPiv capacity ≠ .error .panic := by
  by_cases h : requestKid.length ≤ 23 ∧ requestPiv.length ≤ 23
  · rw [buildAadCbor_eq h.1 h.2]
    exact (Outcome.Meets.okOr _ _).ne_panic
  · rw [buildAadCbor_of_long h]
    simp

theorem aadValue_fits {requestKid requestPiv : Bytes}
    (hkid : requestKid.length ≤ 23) (hpiv : requestPiv.length ≤ 23) :
    (aadValue requestKid requestPiv).Fits ∧
      (aadArrayValue requestKid requestPiv).Fits := by
  have hlength := length_aadArray requestKid requestPiv
  rw [aadArray_eq hkid hpiv] at hlength
  have hbound : argBound = 2 ^ 64 := rfl
  simp only [aadValue, aadArrayValue, Value.Fits, Value.FitsAll,
    List.length_cons, List.length_nil, and_true] at hlength ⊢
  simp only [encrypt0, List.length_cons, List.length_nil]
  omega

/-- The AAD determines the request it names, whatever buffer it is in. -/
theorem aadValue_injective {kid piv kid' piv' : Bytes}
    (h : kid.length ≤ 23 ∧ piv.length ≤ 23)
    (h' : kid'.length ≤ 23 ∧ piv'.length ≤ 23)
    (heq : (aadValue kid piv).encode = (aadValue kid' piv').encode) :
    kid = kid' ∧ piv = piv' := by
  obtain ⟨houter, hinner⟩ := aadValue_fits h.1 h.2
  obtain ⟨houter', hinner'⟩ := aadValue_fits h'.1 h'.2
  have hvalue := Value.encode_injective houter houter' heq
  simp only [aadValue, Value.array.injEq, List.cons.injEq, Value.bytes.injEq,
    true_and, and_true] at hvalue
  have harray := Value.encode_injective hinner hinner' hvalue
  simpa only [aadArrayValue, Value.array.injEq, List.cons.injEq,
    Value.bytes.injEq, true_and, and_true] using harray

/-! The HKDF info. -/

/-- What is expanded from the pseudorandom key of a context. -/
inductive InfoType where
  | key
  | iv
deriving DecidableEq

namespace InfoType

def typeStr : InfoType → Bytes
  | key => keyType
  | iv => ivType

def outLen : InfoType → Nat
  | key => keyLen
  | iv => nonceLen

theorem typeStr_le (type : InfoType) : type.typeStr.length ≤ 3 := by
  cases type <;> decide

theorem outLen_le (type : InfoType) : type.outLen ≤ 23 := by
  cases type <;> decide

theorem typeStr_injective : Function.Injective typeStr := by
  intro a b h
  cases a <;> cases b <;> first | rfl | exact absurd h (by decide)

/-- The info of this type for an identifier and an ID context. -/
def info (type : InfoType) (id : Bytes) (idContext : Option Bytes) : Value :=
  infoValue id idContext type.typeStr type.outLen

end InfoType

theorem contextItem_eq {idContext : Option Bytes}
    (h : (idContext.getD []).length ≤ 23) :
    contextItem idContext = (contextValue idContext).encode := by
  cases idContext with
  | none => rfl
  | some bytes => exact shortBstr_eq h

theorem uint_encode {n : Nat} (h : n ≤ 23) :
    (Value.uint n).encode = [UInt8.ofNat n] := by
  rw [Value.encode, headBytes, if_pos (by omega), initialByte, Nat.zero_mul,
    Nat.zero_add]

theorem infoBytes_eq {id : Bytes} {idContext : Option Bytes}
    {typeStr : Bytes} {outLen : Nat} (hid : id.length ≤ 23)
    (hcontext : (idContext.getD []).length ≤ 23)
    (htype : typeStr.length ≤ 23) (hout : outLen ≤ 23) :
    infoBytes id idContext typeStr outLen =
      (infoValue id idContext typeStr outLen).encode := by
  have htext : (Value.text typeStr).encode =
      (0x60 ||| UInt8.ofNat typeStr.length) :: typeStr := by
    rw [Value.encode, textHead_eq htype]
    rfl
  have harray : (infoValue id idContext typeStr outLen).encode =
      0x85 :: ((Value.bytes id).encode ++ ((contextValue idContext).encode ++
        (algAead :: ((Value.text typeStr).encode ++
          ((Value.uint outLen).encode ++ []))))) := rfl
  rw [harray, htext, uint_encode hout, ← shortBstr_eq hid,
    ← contextItem_eq hcontext, List.append_nil]
  rfl

/-- The encoder writes the structure, within its buffer. -/
theorem buildInfoCbor_info (type : InfoType) {id : Bytes}
    {idContext : Option Bytes} (hid : id.length ≤ nonceIdLen)
    (hcontext : (idContext.getD []).length ≤ idContextCapacity) :
    ∃ info, buildInfoCbor id idContext type.typeStr type.outLen = .ok info ∧
      info.toList = (type.info id idContext).encode :=
  ⟨_, buildInfoCbor_eq hid hcontext type.typeStr_le type.outLen_le,
    infoBytes_eq (Nat.le_trans hid (by decide))
      (Nat.le_trans hcontext (by decide))
      (Nat.le_trans type.typeStr_le (by decide)) type.outLen_le⟩

theorem info_fits (type : InfoType) {id : Bytes} {idContext : Option Bytes}
    (hid : id.length ≤ nonceIdLen)
    (hcontext : (idContext.getD []).length ≤ idContextCapacity) :
    (type.info id idContext).Fits := by
  have hbound : argBound = 2 ^ 64 := rfl
  have htype := type.typeStr_le
  have hout := type.outLen_le
  simp only [nonceIdLen, nonceIdEnd, idContextCapacity] at hid hcontext
  have hitem : (contextValue idContext).Fits := by
    cases idContext with
    | none => trivial
    | some bytes =>
        simp only [Option.getD_some] at hcontext
        simp only [contextValue, Value.Fits]
        omega
  simp only [InfoType.info, infoValue, Value.Fits, Value.FitsAll,
    List.length_cons, List.length_nil, and_true]
  refine ⟨by omega, by omega, hitem, by omega, by omega, by omega⟩

/-- The info determines the identifier, the ID context and what is derived. -/
theorem info_injective {type type' : InfoType} {id id' : Bytes}
    {idContext idContext' : Option Bytes} (hid : id.length ≤ nonceIdLen)
    (hid' : id'.length ≤ nonceIdLen)
    (hcontext : (idContext.getD []).length ≤ idContextCapacity)
    (hcontext' : (idContext'.getD []).length ≤ idContextCapacity)
    (h : (type.info id idContext).encode =
      (type'.info id' idContext').encode) :
    id = id' ∧ idContext = idContext' ∧ type = type' := by
  have hvalue := Value.encode_injective (info_fits type hid hcontext)
    (info_fits type' hid' hcontext') h
  simp only [InfoType.info, infoValue, Value.array.injEq, List.cons.injEq,
    Value.bytes.injEq, Value.text.injEq, true_and, and_true] at hvalue
  obtain ⟨rfl, hitem, htype, -⟩ := hvalue
  refine ⟨rfl, ?_, InfoType.typeStr_injective htype⟩
  cases idContext with
  | none =>
      cases idContext' with
      | none => rfl
      | some bytes => cases hitem
  | some bytes =>
      cases idContext' with
      | none => cases hitem
      | some bytes' => exact congrArg some (Value.bytes.inj hitem)

/-- What the encoders write for the AAD and for the info strings. -/
structure EncodersExact : Prop where
  aad : ∀ kid piv : Bytes, kid.length ≤ 7 → piv.length ≤ 5 →
    ∃ aad, buildAadCbor kid piv 64 = .ok aad ∧
      aad.toList = (aadValue kid piv).encode
  aad_injective : ∀ (kid piv kid' piv' : Bytes) (aad : HVec 64),
    buildAadCbor kid piv 64 = .ok aad → buildAadCbor kid' piv' 64 = .ok aad →
    kid = kid' ∧ piv = piv'
  /-- Parts of any length, and a buffer of any size. -/
  aad_any : ∀ (kid piv : Bytes) (capacity : Nat),
    (∃ aad, buildAadCbor kid piv capacity = .ok aad ∧
      aad.toList = (aadValue kid piv).encode) ∨
    ∃ error, buildAadCbor kid piv capacity = .error (.err error)
  key : ∀ (C : Crypto) (secret : Key) (salt id : Bytes)
    (idContext : Option Bytes), id.length ≤ 7 →
    (idContext.getD []).length ≤ 8 →
    ∃ info, buildInfoCbor id idContext keyType keyLen = .ok info ∧
      info.toList = (InfoType.key.info id idContext).encode ∧
      deriveKey C secret salt id idContext = .ok (C.hkdfExpand
        (C.hkdfExtract salt secret.val) info.toList keyLen)
  iv : ∀ (C : Crypto) (secret : Key) (salt : Bytes)
    (idContext : Option Bytes), (idContext.getD []).length ≤ 8 →
    ∃ info, buildInfoCbor [] idContext ivType nonceLen = .ok info ∧
      info.toList = (InfoType.iv.info [] idContext).encode ∧
      deriveIv C secret salt idContext = .ok (C.hkdfExpand
        (C.hkdfExtract salt secret.val) info.toList nonceLen)
  info_injective : ∀ (type type' : InfoType) (id id' : Bytes)
    (idContext idContext' : Option Bytes), id.length ≤ 7 → id'.length ≤ 7 →
    (idContext.getD []).length ≤ 8 → (idContext'.getD []).length ≤ 8 →
    (type.info id idContext).encode = (type'.info id' idContext').encode →
    id = id' ∧ idContext = idContext' ∧ type = type'
  /-- The three info strings of one context are different. -/
  apart : ∀ (C : Crypto) (material : Material C),
    ([InfoType.key.info material.senderId material.idContext,
      InfoType.key.info material.recipientId material.idContext,
      InfoType.iv.info [] material.idContext].map Value.encode).Nodup

theorem infos_apart {C : Crypto} (material : Material C) :
    ([InfoType.key.info material.senderId material.idContext,
      InfoType.key.info material.recipientId material.idContext,
      InfoType.iv.info [] material.idContext].map Value.encode).Nodup := by
  have hinjective := fun {type type' : InfoType} {id id' : Bytes}
      (hid : id.length ≤ nonceIdLen) (hid' : id'.length ≤ nonceIdLen) =>
    @info_injective type type' id id' _ _ hid hid' material.idContext_le
      material.idContext_le
  have hnil : ([] : Bytes).length ≤ nonceIdLen := Nat.zero_le _
  simp only [List.map_cons, List.map_nil, List.nodup_cons, List.mem_cons,
    List.not_mem_nil, or_false, not_or, List.nodup_nil, not_false_eq_true,
    and_true]
  refine ⟨⟨fun h => ?_, fun h => ?_⟩, fun h => ?_⟩
  · exact material.ids_ne
      (hinjective material.senderId_le material.recipientId_le h).1
  · cases (hinjective material.senderId_le hnil h).2.2
  · cases (hinjective material.recipientId_le hnil h).2.2

theorem encoders_exact : EncodersExact where
  aad kid piv hkid hpiv := by
    obtain ⟨aad, haad, -⟩ := buildAadCbor_of_fits ⟨hkid, hpiv⟩
    exact ⟨aad, haad, (buildAadCbor_eq_ok.mp haad).2⟩
  aad_injective kid piv kid' piv' aad h h' := by
    obtain ⟨hshort, hbytes⟩ := buildAadCbor_eq_ok.mp h
    obtain ⟨hshort', hbytes'⟩ := buildAadCbor_eq_ok.mp h'
    exact aadValue_injective hshort hshort' (hbytes.symm.trans hbytes')
  aad_any kid piv capacity := by
    cases h : buildAadCbor kid piv capacity with
    | ok aad => exact Or.inl ⟨aad, rfl, (buildAadCbor_eq_ok.mp h).2⟩
    | error fault =>
        cases fault with
        | err error => exact Or.inr ⟨error, rfl⟩
        | panic => exact absurd h (buildAadCbor_ne_panic kid piv capacity)
  key C secret salt id idContext hid hcontext := by
    obtain ⟨info, hinfo, hbytes⟩ := buildInfoCbor_info .key hid hcontext
    refine ⟨info, hinfo, hbytes, ?_⟩
    have hbuild : buildInfoCbor id idContext keyType keyLen = .ok info := hinfo
    rw [deriveKey, hbuild]
    rfl
  iv C secret salt idContext hcontext := by
    obtain ⟨info, hinfo, hbytes⟩ :=
      @buildInfoCbor_info .iv [] _ (Nat.zero_le _) hcontext
    refine ⟨info, hinfo, hbytes, ?_⟩
    have hbuild : buildInfoCbor [] idContext ivType nonceLen = .ok info := hinfo
    rw [deriveIv, hbuild]
    rfl
  info_injective _ _ _ _ _ _ hid hid' hcontext hcontext' h :=
    info_injective hid hid' hcontext hcontext' h
  apart _ material := infos_apart material

end Oscore
