/-
Transcript hashes, the structures under the MACs and signatures, and the key
schedule.  Every buffer is written front to back, so that a builder is one
append of the bytes it stands for.
-/
import Oscore.Edhoc.Credential
import Oscore.Context

namespace Oscore.Edhoc

open Rust

variable {N : Nat}

/-! Transcript hashes. -/

def computeTh (X : Suite) (input : Bytes) : Bytes32 :=
  X.sha256 input

/-- `TH_2 = H(CBOR(G_Y) || CBOR(H(message_1)))` -/
def transcript2 (X : Suite) (gY msg1 : Bytes) : Outcome EdhocError Bytes32 := do
  let hMsg1 := computeTh X msg1
  let buf : HVec 256 ← encodeBstr HVec.empty gY
  let buf ← encodeBstr buf hMsg1.val
  return computeTh X buf.toList

/-- The common body of the later transcript hashes. -/
def transcript (X : Suite) (th : Bytes32) (plaintext cred : Bytes) :
    Outcome EdhocError Bytes32 := do
  let buf : HVec 1024 ← encodeBstr HVec.empty th.val
  let buf ← encodeBstr buf plaintext
  let buf ← extendErr buf cred
  return computeTh X buf.toList

/-- `TH_3 = H(CBOR(TH_2) || CBOR(PLAINTEXT_2) || CRED_R)` -/
def transcript3 (X : Suite) (th2 : Bytes32) (input cred : Bytes) :
    Outcome EdhocError Bytes32 :=
  transcript X th2 input cred

/-- `TH_4 = H(CBOR(TH_3) || CBOR(PLAINTEXT_3) || CRED_I)` -/
def transcript4 (X : Suite) (th3 : Bytes32) (plaintext3 credI : Bytes) :
    Outcome EdhocError Bytes32 :=
  transcript X th3 plaintext3 credI

/-! What is authenticated. -/

/-- `ID_CRED`, `TH` and `CRED` behind what is in the buffer. -/
def appendContext (ctx : HVec 128) (idCred : Bytes) (th : Bytes32)
    (cred : Bytes) : Outcome EdhocError (HVec 128) := do
  let ctx ← extendErr ctx idCred
  let ctx ← encodeBstr ctx th.val
  extendErr ctx cred

def buildContext2 (cR : ConnectionId) (idCred : Bytes) (th : Bytes32)
    (cred : Bytes) : Outcome EdhocError (HVec 128) := do
  let ctx ← encodeIdentifier HVec.empty cR
  appendContext ctx idCred th cred

def buildContext3 (idCred : Bytes) (th : Bytes32) (cred : Bytes) :
    Outcome EdhocError (HVec 128) :=
  appendContext HVec.empty idCred th cred

/-- `"Signature1"` behind its head. -/
def signature1 : Bytes :=
  [0x6a, 0x53, 0x69, 0x67, 0x6e, 0x61, 0x74, 0x75, 0x72, 0x65, 0x31]

def buildSignatureStructure (idCred : Bytes) (th : Bytes32)
    (cred mac : Bytes) : Outcome EdhocError (HVec 160) := do
  let m ← pushErr HVec.empty 0x84
  let m ← extendErr m signature1
  let m ← appendCborBstr m idCred
  let externalAad : HVec 128 ← encodeBstr HVec.empty th.val
  let externalAad ← extendErr externalAad cred
  let m ← appendCborBstr m externalAad.toList
  appendCborBstr m mac

/-! Key derivation. -/

abbrev labelKeystream2 : Nat := 0
abbrev labelMac2 : Nat := 2
abbrev labelK3 : Nat := 3
abbrev labelIv3 : Nat := 4
abbrev labelMac3 : Nat := 6
abbrev labelPrkOut : Nat := 7
abbrev labelPrkExporter : Nat := 10
abbrev labelOscoreSecret : Nat := 0
abbrev labelOscoreSalt : Nat := 1

/-- HKDF-Extract; without a salt its key is all zero. -/
def hkdfExtract (X : Suite) (salt ikm : Bytes) : Bytes32 :=
  if salt = [] then X.hmacSha256 (zeros 32).val ikm
  else X.hmacSha256 salt ikm

def encodeLabel (info : HVec 128) (label : Nat) :
    Outcome EdhocError (HVec 128) :=
  if label ≤ 23 then pushErr info (UInt8.ofNat label)
  else if label ≤ 0xff then do
    let info ← pushErr info 0x18
    pushErr info (UInt8.ofNat label)
  else throw (.err .bufferTooSmall)

def encodeContext (info : HVec 128) (context : Bytes) :
    Outcome EdhocError (HVec 128) :=
  if context = [] then pushErr info 0x40
  else if context.length ≤ 23 then do
    let info ← pushErr info (0x40 ||| UInt8.ofNat context.length)
    extendErr info context
  else if context.length ≤ 255 then do
    let info ← pushErr info 0x58
    let info ← pushErr info (UInt8.ofNat context.length)
    extendErr info context
  else throw (.err .bufferTooSmall)

def encodeLength (info : HVec 128) (length : Nat) :
    Outcome EdhocError (HVec 128) :=
  if length ≤ 23 then pushErr info (UInt8.ofNat length)
  else if length ≤ 0xff then do
    let info ← pushErr info 0x18
    pushErr info (UInt8.ofNat length)
  else if length ≤ 0xffff then do
    let info ← pushErr info 0x19
    let info ← pushErr info (UInt8.ofNat (length >>> 8))
    pushErr info (UInt8.ofNat (length &&& 0xff))
  else throw (.err .bufferTooSmall)

/-- EDHOC-KDF: the info is the label, the context as a byte string and the
length; the result has a buffer of 128 bytes. -/
def edhocKdf (X : Suite) (prk : Bytes32) (label : Nat) (context : Bytes)
    (length : Nat) : Outcome EdhocError (Block length) := do
  let info ← encodeLabel HVec.empty label
  let info ← encodeContext info context
  let info ← encodeLength info length
  failIf (128 < length) .bufferTooSmall
  return X.hkdfExpand prk info.toList length

/-- The master secret and the master salt behind a session. -/
def exportSecrets (X : Suite) (prk th : Bytes32) :
    Outcome EdhocError (Key × Block 8) := do
  let prkOut ← edhocKdf X prk labelPrkOut th.val 32
  let prkExporter ← edhocKdf X prkOut labelPrkExporter [] 32
  let masterSecret ← edhocKdf X prkExporter labelOscoreSecret [] keyLen
  let masterSalt ← edhocKdf X prkExporter labelOscoreSalt [] 8
  return (masterSecret, masterSalt)

def exportContext (X : Suite) (prk th : Bytes32)
    (senderId recipientId : Bytes) :
    Outcome OscoreError (Context X.toCrypto) := do
  let (masterSecret, masterSalt) ←
    mapErr (fun _ => .keyDerivation) (exportSecrets X prk th)
  Context.newFresh X.toCrypto masterSecret (some masterSalt.val) none senderId
    recipientId

/-! The bytes the builders stand for. -/

variable {X : Suite}

/-- The input of `TH_2`, for a `G_Y` of any length. -/
def transcript2Bytes (X : Suite) (gY msg1 : Bytes) : Bytes :=
  Cbor.bstr gY ++ Cbor.bstr (computeTh X msg1).val

/-- The input of `TH_2`. -/
def th2Bytes (X : Suite) (gY : Bytes32) (msg1 : Bytes) : Bytes :=
  Cbor.bstr gY.val ++ Cbor.bstr (computeTh X msg1).val

/-- The input of `TH_3` and `TH_4`. -/
def thBytes (th : Bytes32) (plaintext cred : Bytes) : Bytes :=
  Cbor.bstr th.val ++ (Cbor.bstr plaintext ++ cred)

/-- The context of a MAC behind its identifier. -/
def contextBytes (idCred : Bytes) (th : Bytes32) (cred : Bytes) : Bytes :=
  idCred ++ (Cbor.bstr th.val ++ cred)

/-- What is signed. -/
def signatureBytes (idCred : Bytes) (th : Bytes32) (cred mac : Bytes) :
    Bytes :=
  0x84 :: signature1 ++ (Cbor.bstr idCred ++
    (Cbor.bstr (Cbor.bstr th.val ++ cred) ++ Cbor.bstr mac))

/-- A CBOR unsigned integer below 2^16. -/
def uintBytes (value : Nat) : Bytes :=
  if value ≤ 23 then [UInt8.ofNat value]
  else if value ≤ 0xff then [0x18, UInt8.ofNat value]
  else [0x19, UInt8.ofNat (value >>> 8), UInt8.ofNat (value &&& 0xff)]

/-- The info of the EDHOC-KDF. -/
def kdfInfo (label : Nat) (context : Bytes) (length : Nat) : Bytes :=
  uintBytes label ++ (Cbor.bstr context ++ uintBytes length)

theorem encodeLabel_eq {label : Nat} (h : label ≤ 0xff) (info : HVec 128) :
    encodeLabel info label = extendErr info (uintBytes label) := by
  unfold encodeLabel uintBytes
  split
  · rfl
  · exact extendErr_extendErr _ _ _

theorem encodeContext_eq {context : Bytes} (h : context.length ≤ 255)
    (info : HVec 128) :
    encodeContext info context = extendErr info (Cbor.bstr context) := by
  unfold encodeContext Cbor.bstr Cbor.bstrHead
  split
  · rename_i hempty
    rw [hempty]
    rfl
  · split
    · exact extendErr_extendErr _ _ _
    · simp only [pushErr, extendErr_extendErr]
      rfl

theorem encodeLength_eq {length : Nat} (h : length ≤ 0xffff)
    (info : HVec 128) :
    encodeLength info length = extendErr info (uintBytes length) := by
  unfold encodeLength uintBytes
  split
  · rfl
  · split
    · exact extendErr_extendErr _ _ _
    · simp only [pushErr, extendErr_extendErr]
      rfl

theorem encodeLabel_of_gt {label : Nat} (h : ¬ label ≤ 255)
    (info : HVec 128) :
    encodeLabel info label = .error (.err .bufferTooSmall) := by
  have hsmall : ¬ label ≤ 23 := by omega
  rw [encodeLabel, if_neg hsmall, if_neg h]
  rfl

theorem encodeContext_of_gt {context : Bytes} (h : ¬ context.length ≤ 255)
    (info : HVec 128) :
    encodeContext info context = .error (.err .bufferTooSmall) := by
  have hempty : context ≠ [] := by
    rintro rfl
    exact h (by decide)
  have hsmall : ¬ context.length ≤ 23 := by omega
  rw [encodeContext, if_neg hempty, if_neg hsmall, if_neg h]
  rfl

theorem encodeLength_of_gt {length : Nat} (h : ¬ length ≤ 0xffff)
    (info : HVec 128) :
    encodeLength info length = .error (.err .bufferTooSmall) := by
  have hsmall : ¬ length ≤ 23 := by omega
  have hbyte : ¬ length ≤ 0xff := by omega
  rw [encodeLength, if_neg hsmall, if_neg hbyte, if_neg h]
  rfl

/-- The limits of the EDHOC-KDF and of its two buffers. -/
def KdfFits (label : Nat) (context : Bytes) (length : Nat) : Prop :=
  label ≤ 255 ∧ context.length ≤ 255 ∧ length ≤ 128 ∧
    (kdfInfo label context length).length ≤ 128

theorem edhocKdf_whole (prk : Bytes32) (label : Nat) (context : Bytes)
    (length : Nat) :
    Whole (edhocKdf X prk label context length) (KdfFits label context length)
      (· = X.hkdfExpand prk (kdfInfo label context length) length) := by
  by_cases hlabel : label ≤ 255
  case neg =>
    refine ⟨fun hfits => absurd hfits.1 hlabel, fun _ => ?_⟩
    rw [edhocKdf, encodeLabel_of_gt hlabel]
    rfl
  rw [edhocKdf, encodeLabel_eq hlabel]
  by_cases hcontext : context.length ≤ 255
  case neg =>
    refine ⟨fun hfits => absurd hfits.2.1 hcontext, fun _ => ?_⟩
    simp only [encodeContext_of_gt hcontext, Outcome.error_bind,
      extendErr_bind_tooSmall]
  simp only [encodeContext_eq hcontext, extendErr_bind]
  by_cases hword : length ≤ 0xffff
  case neg =>
    refine ⟨fun hfits => absurd hfits.2.2.1 (by omega), fun _ => ?_⟩
    simp only [encodeLength_of_gt hword, Outcome.error_bind,
      extendErr_bind_tooSmall]
  simp only [encodeLength_eq hword, extendErr_bind]
  by_cases hlength : length ≤ 128
  case neg =>
    refine ⟨fun hfits => absurd hfits.2.2.1 hlength, fun _ => ?_⟩
    have hfail : failIf (128 < length) EdhocError.bufferTooSmall =
        .error (.err .bufferTooSmall) := if_pos (Nat.not_le.mp hlength)
    simp only [hfail, Outcome.error_bind, extendErr_bind_tooSmall]
  simp only [failIf_of_not _ (Nat.not_lt.mpr hlength), Outcome.ok_bind,
    List.append_assoc]
  have hiff : (kdfInfo label context length).length ≤ 128 ↔
      KdfFits label context length :=
    ⟨fun h => ⟨hlabel, hcontext, hlength, h⟩, fun h => h.2.2.2⟩
  refine ((extendErr_whole _).map fun info hinfo => ?_).congr hiff
  rw [hinfo]
  rfl

/-- The info of a short context fits. -/
theorem edhocKdf_of_le {label length : Nat} (hlabel : label ≤ 23)
    (hlength : length ≤ 128) {context : Bytes} (hcontext : context.length ≤ 96)
    (prk : Bytes32) :
    edhocKdf X prk label context length =
      .ok (X.hkdfExpand prk (kdfInfo label context length) length) := by
  have hbstr := Cbor.length_bstr_le context
  have huint : (uintBytes length).length ≤ 3 := by
    unfold uintBytes
    repeat' split
    all_goals simp
  have hone : (uintBytes label).length = 1 := by
    rw [uintBytes, if_pos hlabel]
    rfl
  have hfit : (kdfInfo label context length).length ≤ 128 := by
    simp only [kdfInfo, List.length_append]
    omega
  obtain ⟨okm, hokm, rfl⟩ := (edhocKdf_whole (X := X) prk label context
    length).ok ⟨by omega, by omega, hlength, hfit⟩
  exact hokm

/-- The secrets of a session can always be derived. -/
theorem exists_exportSecrets (X : Suite) (prk th : Bytes32) :
    ∃ secrets, exportSecrets X prk th = .ok secrets := by
  have hth : th.val.length ≤ 96 := by
    rw [th.property]
    decide
  rw [exportSecrets, edhocKdf_of_le (by decide) (by decide) hth,
    Outcome.ok_bind, edhocKdf_of_le (by decide) (by decide) (by decide),
    Outcome.ok_bind, edhocKdf_of_le (by decide) (by decide) (by decide),
    Outcome.ok_bind, edhocKdf_of_le (by decide) (by decide) (by decide)]
  exact ⟨_, rfl⟩

/-! The builders append the bytes they stand for. -/

theorem transcript2_whole (gY msg1 : Bytes) :
    Whole (transcript2 X gY msg1) ((transcript2Bytes X gY msg1).length ≤ 256)
      (· = computeTh X (transcript2Bytes X gY msg1)) := by
  simp only [transcript2, encodeBstr,
    writeBstr_eq_extendErr (show 256 ≤ Cbor.bstrMax by decide), extendErr_bind]
  exact (extendErr_whole _).map fun _ h => congrArg (computeTh X) h

theorem transcript_whole (th : Bytes32) (plaintext cred : Bytes) :
    Whole (transcript X th plaintext cred)
      ((thBytes th plaintext cred).length ≤ 1024)
      (· = computeTh X (thBytes th plaintext cred)) := by
  simp only [transcript, encodeBstr,
    writeBstr_eq_extendErr (show 1024 ≤ Cbor.bstrMax by decide),
    extendErr_bind]
  exact (extendErr_whole _).map fun _ h => congrArg (computeTh X) h

theorem transcript_meets (th : Bytes32) (plaintext cred : Bytes) :
    (transcript X th plaintext cred).Meets
      (· = computeTh X (thBytes th plaintext cred)) :=
  (transcript_whole th plaintext cred).meets.mono fun _ h => h.2

theorem transcript2_eq (X : Suite) (gY : Bytes32) (msg1 : Bytes) :
    transcript2 X gY.val msg1 = .ok (computeTh X (th2Bytes X gY msg1)) := by
  have hfit : (transcript2Bytes X gY.val msg1).length ≤ 256 := by
    rw [transcript2Bytes, List.length_append, length_bstr32, length_bstr32]
    decide
  obtain ⟨th, hth, rfl⟩ := (transcript2_whole gY.val msg1).ok hfit
  exact hth

theorem appendContext_eq (ctx : HVec 128) (idCred : Bytes) (th : Bytes32)
    (cred : Bytes) :
    appendContext ctx idCred th cred =
      extendErr ctx (contextBytes idCred th cred) := by
  have hth := bstrMax_of_block (by decide) th
  simp only [appendContext, encodeBstr, writeBstr_eq hth,
    extendErr_extendErr]
  rfl

theorem buildContext2_eq (cR : ConnectionId) (idCred : Bytes) (th : Bytes32)
    (cred : Bytes) :
    buildContext2 cR idCred th cred = extendErr HVec.empty
      (identifier cR.toList ++ contextBytes idCred th cred) := by
  simp only [buildContext2, encodeIdentifier_eq, appendContext_eq,
    extendErr_extendErr]

theorem buildContext2_whole (cR : ConnectionId) (idCred : Bytes) (th : Bytes32)
    (cred : Bytes) :
    Whole (buildContext2 cR idCred th cred)
      ((identifier cR.toList ++ contextBytes idCred th cred).length ≤ 128)
      (·.toList = identifier cR.toList ++ contextBytes idCred th cred) := by
  rw [buildContext2_eq]
  exact extendErr_whole _

theorem buildContext3_whole (idCred : Bytes) (th : Bytes32) (cred : Bytes) :
    Whole (buildContext3 idCred th cred)
      ((contextBytes idCred th cred).length ≤ 128)
      (·.toList = contextBytes idCred th cred) := by
  rw [buildContext3, appendContext_eq]
  exact extendErr_whole _

/-- The buffers of the signature structure: the external AAD has its own. -/
def SignatureFits (idCred : Bytes) (th : Bytes32) (cred mac : Bytes) : Prop :=
  (Cbor.bstr th.val ++ cred).length ≤ 128 ∧
    (signatureBytes idCred th cred mac).length ≤ 160

/-- Where the external AAD fits, the structure is one append. -/
theorem buildSignatureStructure_eq {th : Bytes32} {cred : Bytes}
    (h : (Cbor.bstr th.val ++ cred).length ≤ 128) (idCred mac : Bytes) :
    buildSignatureStructure idCred th cred mac =
      extendErr HVec.empty (signatureBytes idCred th cred mac) := by
  have haad : extendErr (HVec.empty : HVec 128) (Cbor.bstr th.val ++ cred) =
      .ok ⟨Cbor.bstr th.val ++ cred, h⟩ := exists_extendErr h
  simp only [buildSignatureStructure, encodeBstr, appendCborBstr, pushErr,
    writeBstr_eq_extendErr (show 160 ≤ Cbor.bstrMax by decide),
    writeBstr_eq_extendErr (show 128 ≤ Cbor.bstrMax by decide),
    extendErr_bind, haad, Outcome.ok_bind, extendErr_extendErr]
  rfl

theorem buildSignatureStructure_whole (idCred : Bytes) (th : Bytes32)
    (cred mac : Bytes) :
    Whole (buildSignatureStructure idCred th cred mac)
      (SignatureFits idCred th cred mac)
      (·.toList = signatureBytes idCred th cred mac) := by
  by_cases haad : (Cbor.bstr th.val ++ cred).length ≤ 128
  · rw [buildSignatureStructure_eq haad]
    exact (extendErr_whole _).congr (and_iff_right haad).symm
  · refine ⟨fun hfits => absurd hfits.1 haad, fun _ => ?_⟩
    have herror : extendErr (HVec.empty : HVec 128)
        (Cbor.bstr th.val ++ cred) = .error (.err .bufferTooSmall) :=
      extendErr_of_gt haad
    simp only [buildSignatureStructure, encodeBstr, appendCborBstr, pushErr,
      writeBstr_eq_extendErr (show 160 ≤ Cbor.bstrMax by decide),
      writeBstr_eq_extendErr (show 128 ≤ Cbor.bstrMax by decide),
      extendErr_bind, herror, Outcome.error_bind, extendErr_bind_tooSmall]

/-- Credentials of the usual size fit. -/
theorem buildSignatureStructure_of_le {idCred cred mac : Bytes}
    (hid : idCred.length ≤ 16) (hcred : cred.length ≤ 40)
    (hmac : mac.length ≤ 32) (th : Bytes32) :
    ∃ m, buildSignatureStructure idCred th cred mac = .ok m ∧
      m.toList = signatureBytes idCred th cred mac := by
  have hidLen := Cbor.length_bstr_le idCred
  have hmacLen := Cbor.length_bstr_le mac
  have haadLen := Cbor.length_bstr_le (Cbor.bstr th.val ++ cred)
  rw [List.length_append, length_bstr32] at haadLen
  have haad : (Cbor.bstr th.val ++ cred).length ≤ 128 := by
    rw [List.length_append, length_bstr32]
    omega
  have hfit : (signatureBytes idCred th cred mac).length ≤ 160 := by
    simp only [signatureBytes, signature1, List.length_append,
      List.length_cons, List.length_nil]
    omega
  exact (buildSignatureStructure_whole idCred th cred mac).ok ⟨haad, hfit⟩

end Oscore.Edhoc
