/-
What is hashed, authenticated, signed or expanded is written whole or not at
all, and determines what it was built from: every field in front of another
says where it ends, an ID_CRED because its parser looks no further.
-/
import Oscore.Edhoc.FixedPoint
import Oscore.Edhoc.Unwind

namespace Oscore.Edhoc

open Rust

variable {X : Suite}

/-! Transcript hashes. -/

/-- A field of a buffer is no longer than the buffer. -/
theorem bstrMax_of_fits {field buffer : Bytes} {capacity : Nat}
    (hcapacity : capacity ≤ Cbor.bstrMax) (hbuffer : buffer.length ≤ capacity)
    (hfield : (Cbor.bstr field).length ≤ buffer.length) :
    field.length ≤ Cbor.bstrMax :=
  calc field.length
    _ ≤ (Cbor.bstr field).length := Cbor.length_bstr_ge field
    _ ≤ buffer.length := hfield
    _ ≤ Cbor.bstrMax := hbuffer.trans hcapacity

/-- Everything `TH_2` hashes, in this order. -/
def transcript2Inputs (X : Suite) (gY msg1 : Bytes) : List Bytes :=
  [msg1, transcript2Bytes X gY msg1]

theorem gY_le_of_ok {gY msg1 : Bytes} {th : Bytes32}
    (h : transcript2 X gY msg1 = .ok th) : gY.length ≤ Cbor.bstrMax := by
  have hfits := ((transcript2_whole gY msg1).of_ok h).1
  refine bstrMax_of_fits (by decide) hfits ?_
  rw [transcript2Bytes, List.length_append]
  exact Nat.le_add_right _ _

theorem transcript2_injective {gY gY' msg1 msg1' : Bytes} {th th' : Bytes32}
    (hth : transcript2 X gY msg1 = .ok th)
    (hth' : transcript2 X gY' msg1' = .ok th')
    (h : transcript2Bytes X gY msg1 = transcript2Bytes X gY' msg1') :
    gY = gY' ∧ computeTh X msg1 = computeTh X msg1' :=
  transcript2Bytes_injective (gY_le_of_ok hth) (gY_le_of_ok hth') h

theorem plaintext_le_of_ok {th out : Bytes32} {plaintext cred : Bytes}
    (h : transcript X th plaintext cred = .ok out) :
    plaintext.length ≤ Cbor.bstrMax := by
  have hfits := ((transcript_whole th plaintext cred).of_ok h).1
  refine bstrMax_of_fits (by decide) hfits ?_
  simp only [thBytes, List.length_append]
  omega

theorem transcript_injective {th th' out out' : Bytes32}
    {plaintext plaintext' cred cred' : Bytes}
    (hout : transcript X th plaintext cred = .ok out)
    (hout' : transcript X th' plaintext' cred' = .ok out')
    (h : thBytes th plaintext cred = thBytes th' plaintext' cred') :
    th = th' ∧ plaintext = plaintext' ∧ cred = cred' :=
  thBytes_injective (plaintext_le_of_ok hout) (plaintext_le_of_ok hout') h

/-! Contexts. -/

/-- An ID_CRED that the parser can return, in its map encoding. -/
def Parsed (idCred : Bytes) : Prop :=
  ∃ data cred n, parseIdCred data = .ok (cred, n) ∧
    cred.encoded.toList = idCred

/-- The parser reads the ID_CRED off the front, whatever follows. -/
theorem idCred_delimits : Prefix.Delimits Parsed id := by
  rintro _ ⟨_, cred, _, hcred, rfl⟩ _ ⟨_, cred', _, hcred', rfl⟩ s t h
  have hread := congrArg parseIdCred h
  simp only [id_eq, parseIdCred_canonical hcred,
    parseIdCred_canonical hcred', Except.ok.injEq, Prod.mk.injEq] at hread
  obtain ⟨rfl, -⟩ := hread
  exact ⟨rfl, List.append_cancel_left h⟩

theorem contextBytes_injective {idCred idCred' cred cred' : Bytes}
    {th th' : Bytes32} (hid : Parsed idCred) (hid' : Parsed idCred')
    (h : contextBytes idCred th cred = contextBytes idCred' th' cred') :
    idCred = idCred' ∧ th = th' ∧ cred = cred' := by
  obtain ⟨hidCred, h⟩ := idCred_delimits _ hid _ hid' _ _ h
  exact ⟨hidCred, bstr_block_delimits (by decide) h⟩

theorem buildContext3_injective {idCred idCred' cred cred' : Bytes}
    {th th' : Bytes32} {out : HVec 128} (hid : Parsed idCred)
    (hid' : Parsed idCred') (h : buildContext3 idCred th cred = .ok out)
    (h' : buildContext3 idCred' th' cred' = .ok out) :
    idCred = idCred' ∧ th = th' ∧ cred = cred' := by
  have hout := ((buildContext3_whole idCred th cred).of_ok h).2
  have hout' := ((buildContext3_whole idCred' th' cred').of_ok h').2
  exact contextBytes_injective hid hid' (hout.symm.trans hout')

theorem buildContext2_injective {cR cR' : ConnectionId}
    {idCred idCred' cred cred' : Bytes} {th th' : Bytes32} {out : HVec 128}
    (hid : Parsed idCred) (hid' : Parsed idCred')
    (h : buildContext2 cR idCred th cred = .ok out)
    (h' : buildContext2 cR' idCred' th' cred' = .ok out) :
    cR = cR' ∧ idCred = idCred' ∧ th = th' ∧ cred = cred' := by
  have hout := ((buildContext2_whole cR idCred th cred).of_ok h).2
  have hout' := ((buildContext2_whole cR' idCred' th' cred').of_ok h').2
  obtain ⟨hcR, hrest⟩ := identifier_delimits _ cR.length_le _ cR'.length_le _ _
    (hout.symm.trans hout')
  exact ⟨HVec.ext hcR, contextBytes_injective hid hid' hrest⟩

/-! Signatures and keys. -/

theorem SignatureFits.bounds {idCred cred mac : Bytes} {th : Bytes32}
    (h : SignatureFits idCred th cred mac) :
    idCred.length ≤ Cbor.bstrMax ∧ Signable th cred ∧
      mac.length ≤ Cbor.bstrMax := by
  obtain ⟨haad, hfits⟩ := h
  have hlength : (signatureBytes idCred th cred mac).length =
      12 + ((Cbor.bstr idCred).length +
        ((Cbor.bstr (Cbor.bstr th.val ++ cred)).length +
          (Cbor.bstr mac).length)) := by
    simp only [signatureBytes, signature1, List.length_append,
      List.length_cons, List.length_nil]
  refine ⟨?_, haad.trans (by decide), ?_⟩
  · exact bstrMax_of_fits (by decide) hfits (by omega)
  · exact bstrMax_of_fits (by decide) hfits (by omega)

theorem buildSignatureStructure_injective
    {idCred idCred' cred cred' mac mac' : Bytes} {th th' : Bytes32}
    {out : HVec 160} (h : buildSignatureStructure idCred th cred mac = .ok out)
    (h' : buildSignatureStructure idCred' th' cred' mac' = .ok out) :
    idCred = idCred' ∧ th = th' ∧ cred = cred' ∧ mac = mac' := by
  obtain ⟨hfits, hout⟩ :=
    (buildSignatureStructure_whole idCred th cred mac).of_ok h
  obtain ⟨hfits', hout'⟩ :=
    (buildSignatureStructure_whole idCred' th' cred' mac').of_ok h'
  obtain ⟨hid, hsignable, hmac⟩ := hfits.bounds
  obtain ⟨hid', hsignable', hmac'⟩ := hfits'.bounds
  exact signatureBytes_injective hid hid' hsignable hsignable' hmac hmac'
    (hout.symm.trans hout')

theorem edhocKdf_injective {prk prk' : Bytes32}
    {label label' length length' : Nat} {context context' : Bytes}
    {okm : Block length} {okm' : Block length'}
    (hokm : edhocKdf X prk label context length = .ok okm)
    (hokm' : edhocKdf X prk' label' context' length' = .ok okm')
    (h : kdfInfo label context length = kdfInfo label' context' length') :
    label = label' ∧ context = context' ∧ length = length' := by
  obtain ⟨⟨hlabel, hcontext, hlength, -⟩, -⟩ :=
    (edhocKdf_whole prk label context length).of_ok hokm
  obtain ⟨⟨hlabel', hcontext', hlength', -⟩, -⟩ :=
    (edhocKdf_whole prk' label' context' length').of_ok hokm'
  exact kdfInfo_injective (by omega) (by omega) (hcontext.trans (by decide))
    (hcontext'.trans (by decide)) (by omega) (by omega) h

/-! The builders. -/

/-- Each builder writes its arguments whole or fails, and what it has written
tells them apart. -/
structure BuildersInjective (X : Suite) : Prop where
  transcript2 : ∀ gY msg1 : Bytes,
    Whole (transcript2 X gY msg1) ((transcript2Bytes X gY msg1).length ≤ 256)
      (· = computeTh X (transcript2Bytes X gY msg1))
  transcript2_apart : ∀ (gY gY' msg1 msg1' : Bytes) (th th' : Bytes32),
    Edhoc.transcript2 X gY msg1 = .ok th →
    Edhoc.transcript2 X gY' msg1' = .ok th' →
    transcript2Inputs X gY msg1 = transcript2Inputs X gY' msg1' →
    gY = gY' ∧ msg1 = msg1'
  /-- The second input alone holds message 1 through its hash. -/
  transcript2_second : ∀ (gY gY' msg1 msg1' : Bytes) (th th' : Bytes32),
    Edhoc.transcript2 X gY msg1 = .ok th →
    Edhoc.transcript2 X gY' msg1' = .ok th' →
    transcript2Bytes X gY msg1 = transcript2Bytes X gY' msg1' →
    gY = gY' ∧ computeTh X msg1 = computeTh X msg1'
  transcript3 : ∀ (th2 : Bytes32) (input cred : Bytes),
    Whole (transcript3 X th2 input cred)
      ((thBytes th2 input cred).length ≤ 1024)
      (· = computeTh X (thBytes th2 input cred))
  transcript3_apart : ∀ (th2 th2' th th' : Bytes32)
    (input input' cred cred' : Bytes),
    Edhoc.transcript3 X th2 input cred = .ok th →
    Edhoc.transcript3 X th2' input' cred' = .ok th' →
    thBytes th2 input cred = thBytes th2' input' cred' →
    th2 = th2' ∧ input = input' ∧ cred = cred'
  transcript4 : ∀ (th3 : Bytes32) (plaintext3 credI : Bytes),
    Whole (transcript4 X th3 plaintext3 credI)
      ((thBytes th3 plaintext3 credI).length ≤ 1024)
      (· = computeTh X (thBytes th3 plaintext3 credI))
  transcript4_apart : ∀ (th3 th3' th th' : Bytes32)
    (plaintext3 plaintext3' credI credI' : Bytes),
    Edhoc.transcript4 X th3 plaintext3 credI = .ok th →
    Edhoc.transcript4 X th3' plaintext3' credI' = .ok th' →
    thBytes th3 plaintext3 credI = thBytes th3' plaintext3' credI' →
    th3 = th3' ∧ plaintext3 = plaintext3' ∧ credI = credI'
  context2 : ∀ (cR : ConnectionId) (idCred : Bytes) (th : Bytes32)
    (cred : Bytes),
    Whole (buildContext2 cR idCred th cred)
      ((identifier cR.toList ++ contextBytes idCred th cred).length ≤ 128)
      (·.toList = identifier cR.toList ++ contextBytes idCred th cred)
  context2_apart : ∀ (cR cR' : ConnectionId) (idCred idCred' : Bytes)
    (th th' : Bytes32) (cred cred' : Bytes) (out : HVec 128),
    Parsed idCred → Parsed idCred' →
    buildContext2 cR idCred th cred = .ok out →
    buildContext2 cR' idCred' th' cred' = .ok out →
    cR = cR' ∧ idCred = idCred' ∧ th = th' ∧ cred = cred'
  context3 : ∀ (idCred : Bytes) (th : Bytes32) (cred : Bytes),
    Whole (buildContext3 idCred th cred)
      ((contextBytes idCred th cred).length ≤ 128)
      (·.toList = contextBytes idCred th cred)
  context3_apart : ∀ (idCred idCred' : Bytes) (th th' : Bytes32)
    (cred cred' : Bytes) (out : HVec 128), Parsed idCred → Parsed idCred' →
    buildContext3 idCred th cred = .ok out →
    buildContext3 idCred' th' cred' = .ok out →
    idCred = idCred' ∧ th = th' ∧ cred = cred'
  signature : ∀ (idCred : Bytes) (th : Bytes32) (cred mac : Bytes),
    Whole (buildSignatureStructure idCred th cred mac)
      (SignatureFits idCred th cred mac)
      (·.toList = signatureBytes idCred th cred mac)
  signature_apart : ∀ (idCred idCred' : Bytes) (th th' : Bytes32)
    (cred cred' mac mac' : Bytes) (out : HVec 160),
    buildSignatureStructure idCred th cred mac = .ok out →
    buildSignatureStructure idCred' th' cred' mac' = .ok out →
    idCred = idCred' ∧ th = th' ∧ cred = cred' ∧ mac = mac'
  kdf : ∀ (prk : Bytes32) (label : Nat) (context : Bytes) (length : Nat),
    Whole (edhocKdf X prk label context length) (KdfFits label context length)
      (· = X.hkdfExpand prk (kdfInfo label context length) length)
  kdf_apart : ∀ (prk prk' : Bytes32) (label label' : Nat)
    (context context' : Bytes) (length length' : Nat) (okm : Block length)
    (okm' : Block length'),
    edhocKdf X prk label context length = .ok okm →
    edhocKdf X prk' label' context' length' = .ok okm' →
    kdfInfo label context length = kdfInfo label' context' length' →
    label = label' ∧ context = context' ∧ length = length'

theorem builders_injective (X : Suite) : BuildersInjective X where
  transcript2 := transcript2_whole
  transcript2_apart gY gY' msg1 msg1' _ _ h h' hinputs := by
    obtain ⟨hmsg1, hlast⟩ := List.cons.inj hinputs
    have hlast := List.singleton_injective hlast
    exact ⟨(transcript2_injective h h' hlast).1, hmsg1⟩
  transcript2_second _ _ _ _ _ _ := transcript2_injective
  transcript3 := transcript_whole
  transcript3_apart _ _ _ _ _ _ _ _ := transcript_injective
  transcript4 := transcript_whole
  transcript4_apart _ _ _ _ _ _ _ _ := transcript_injective
  context2 := buildContext2_whole
  context2_apart _ _ _ _ _ _ _ _ _ := buildContext2_injective
  context3 := buildContext3_whole
  context3_apart _ _ _ _ _ _ _ := buildContext3_injective
  signature := buildSignatureStructure_whole
  signature_apart _ _ _ _ _ _ _ _ _ := buildSignatureStructure_injective
  kdf := edhocKdf_whole
  kdf_apart _ _ _ _ _ _ _ _ _ _ := edhocKdf_injective

end Oscore.Edhoc
