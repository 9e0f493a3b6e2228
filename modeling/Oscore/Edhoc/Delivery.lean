/-
What each side reads of a message that the other side made: identifiers,
plaintexts and signatures of honest parties.
-/
import Oscore.Edhoc.Identifier
import Oscore.Edhoc.Initiator
import Oscore.Edhoc.Responder
import Oscore.RoundTrip

namespace Oscore.Edhoc

open Rust EdhocInitiator

/-! Identifiers. -/

theorem parseIdentifier_identifier (byte : UInt8) (rest : Bytes) :
    parseIdentifier (identifier [byte] ++ rest) =
      .ok (received byte, (identifier [byte]).length) :=
  (wireForm_identifier_byte byte).parseIdentifier rest

theorem parseCI_of_ne {first : UInt8} (hsmall : ¬ first ≤ 23)
    (hne : first ≠ 0x41) (behind : Bytes) :
    parseCI (first :: behind) = .error (.err .invalidMessage) := by
  rw [parseCI, if_neg hsmall, if_neg fun h => hne h.1]
  rfl

theorem parseCI_bstr_of_ne {bytes : Bytes} (hle : bytes.length ≤ 23)
    (hne : bytes.length ≠ 1) :
    parseCI (Cbor.bstr bytes) = .error (.err .invalidMessage) := by
  have hvalue := Cbor.bstrHead_small hle
  rw [Cbor.bstr, Cbor.bstrHead, if_pos hle, List.singleton_append]
  refine parseCI_of_ne ?_ ?_ bytes
  · rw [UInt8.le_iff_toNat_le, hvalue]
    exact Nat.not_le.mpr (Nat.lt_of_lt_of_le (by decide) (Nat.le_add_right _ _))
  · intro heq
    rw [heq] at hvalue
    exact hne (Nat.add_left_cancel (m := 1) hvalue).symm

/-- The responder reads one-byte identifiers only, and no negative integer. -/
theorem parseCI_identifier_iff (id : ConnectionId) (byte : UInt8) :
    parseCI (identifier id.toList) = .ok byte ↔
      id.toList = [byte] ∧ ¬ Negative byte := by
  have hle : id.toList.length ≤ 23 := le_trans id.length_le (by decide)
  generalize id.toList = bytes at hle
  by_cases hlen : bytes.length = 1
  · obtain ⟨own, rfl⟩ := List.length_eq_one_iff.mp hlen
    rw [List.cons.injEq, and_iff_left rfl]
    by_cases hsmall : own ≤ 0x17
    · have hcompact : Compact own := .inl hsmall
      have hle : own ≤ 23 := hsmall
      have hnegative : ¬ Negative own := by
        rintro ⟨hge, -⟩
        exact absurd (UInt8.le_trans hge hsmall) (by decide)
      rw [identifier, if_pos hcompact, parseCI, if_pos hle,
        failIf_of_not _ (by simp), Outcome.ok_bind, Outcome.pure_eq_ok,
        Except.ok.injEq]
      exact (and_iff_left_of_imp fun heq => heq ▸ hnegative).symm
    by_cases hnegative : Negative own
    · have hcompact : Compact own := .inr hnegative
      have hne : own ≠ 0x41 := by
        rintro rfl
        exact absurd hnegative (by decide)
      rw [identifier, if_pos hcompact, parseCI_of_ne hsmall hne]
      refine iff_of_false (by simp) ?_
      rintro ⟨rfl, hnot⟩
      exact hnot hnegative
    · have hcompact : ¬ Compact own := not_or.mpr ⟨hsmall, hnegative⟩
      have hhead : Cbor.bstrHead [own].length = [0x41] :=
        (by decide : Cbor.bstrHead 1 = [0x41])
      have hread : parseCI ([0x41] ++ [own]) = .ok own := rfl
      rw [identifier_of_not_compact hcompact, Cbor.bstr, hhead, hread,
        Except.ok.injEq]
      exact (and_iff_left_of_imp fun heq => heq ▸ hnegative).symm
  · rw [identifier_of_length_ne_one hlen, parseCI_bstr_of_ne hle hlen]
    refine iff_of_false (by simp) ?_
    rintro ⟨rfl, -⟩
    exact hlen rfl

/-! Message 1. -/

theorem length_identifier_pos (id : ConnectionId) :
    1 ≤ (identifier id.toList).length := by
  have hbstr : ∀ bytes, 1 ≤ (Cbor.bstr bytes).length := by
    intro bytes
    have hhead : 1 ≤ (Cbor.bstrHead bytes.length).length := by
      unfold Cbor.bstrHead
      split
      · exact le_refl 1
      · split <;> simp
    rw [Cbor.bstr, List.length_append]
    exact Nat.le_add_right_of_le hhead
  unfold identifier
  split
  · split
    · exact le_refl 1
    · exact hbstr _
  · exact hbstr _

theorem message1Bytes_eq (gX : Bytes32) (cI : ConnectionId) :
    message1Bytes gX cI =
      [0, suite0, 0x58, 32] ++ (gX.val ++ identifier cI.toList) := by
  have hbstr : Cbor.bstr gX.val = [0x58, 32] ++ gX.val := by
    rw [Cbor.bstr, gX.property]
    rfl
  rw [message1Bytes, hbstr]
  rfl

/-- The identifier of message 1 ends it. -/
theorem message1Bytes_drop (gX : Bytes32) (cI : ConnectionId) :
    (message1Bytes gX cI).drop 36 = identifier cI.toList := by
  rw [message1Bytes_eq, ← List.append_assoc]
  refine List.drop_left' ?_
  rw [List.length_append, gX.property]
  rfl

/-- The responder finds the key in message 1. -/
theorem parseGX_message1Bytes (gX : Bytes32) (cI : ConnectionId) :
    parseGX (message1Bytes gX cI) = .ok (gX, 36) := by
  have hid := length_identifier_pos cI
  rw [message1Bytes_eq]
  generalize identifier cI.toList = rest at hid
  let msg1 : Bytes := [0, suite0, 0x58, 32] ++ (gX.val ++ rest)
  have hlength : msg1.length = 36 + rest.length := by
    simp only [msg1, List.length_append, List.length_cons, List.length_nil,
      gX.property]
    omega
  have hsuites : parseSuitesI (suite0 :: 0x58 :: 32 :: (gX.val ++ rest)) =
      .ok (suite0, 1) := by
    have hfirst : byteAt (suite0 :: 0x58 :: 32 :: (gX.val ++ rest)) 0 =
        .ok suite0 := byteAt_eq_ok.mpr rfl
    rw [parseSuitesI, hfirst, Outcome.ok_bind, if_pos (by decide)]
    rfl
  have hrest : sliceFrom msg1 1 = (.ok (suite0 :: 0x58 :: 32 ::
      (gX.val ++ rest)) : Outcome EdhocError Bytes) :=
    sliceFrom_of_le (by omega)
  have hkey : slice msg1 4 36 = (.ok gX.val : Outcome EdhocError Bytes) := by
    have hsplit : msg1 = ([0, suite0, 0x58, 32] ++ gX.val) ++ rest :=
      (List.append_assoc _ _ _).symm
    have hfour : ([0, suite0, 0x58, 32] ++ gX.val).length = 36 := by
      rw [List.length_append, gX.property]
      rfl
    rw [slice_of_le (by decide) (by omega), hsplit, List.take_left' hfour]
    rfl
  change parseGX msg1 = _
  have hindex : ∀ {i byte}, msg1[i]? = some byte →
      (index msg1 i : Outcome EdhocError UInt8) = .ok byte := by
    intro i byte h
    rw [index, h]
    rfl
  have hmethod := hindex (i := 0) rfl
  have hhead := hindex (i := 2) rfl
  have hlen := hindex (i := 3) rfl
  simp only [parseGX, failIf_of_not _ (show ¬ msg1.length < 37 by omega),
    hmethod, hrest, hsuites, hhead, hlen, hkey, copyFromSlice_val,
    Outcome.ok_bind]
  rfl

/-! Message 2. -/

variable {X : Suite}

/-- A byte string of this length stands behind two bytes of head. -/
theorem bstr_of_length {bytes : Bytes} (hmin : 24 ≤ bytes.length)
    (hmax : bytes.length ≤ 255) :
    Cbor.bstr bytes = 0x58 :: UInt8.ofNat bytes.length :: bytes := by
  rw [Cbor.bstr, Cbor.bstrHead, if_neg (by omega), if_pos hmax]
  rfl

/-- The initiator splits message 2 where the responder joined it. -/
theorem splitMessage2_bstr {gY : Bytes32} {ciphertext2 : Bytes}
    (hmin : 1 + X.sigLen ≤ ciphertext2.length)
    (hmax : ciphertext2.length ≤ 128) :
    splitMessage2 X (Cbor.bstr (gY.val ++ ciphertext2)) =
      .ok (gY, ciphertext2) := by
  have hlength : (gY.val ++ ciphertext2).length = 32 + ciphertext2.length := by
    rw [List.length_append, gY.property]
  have hread := parseBstr_bstr (le_of_eq_of_le hlength
    (Nat.le_trans (Nat.add_le_add_left hmax 32) (by decide))) []
  rw [List.append_nil] at hread
  have hkey : slice (gY.val ++ ciphertext2) 0 32 =
      (.ok gY.val : Outcome EdhocError Bytes) := by
    rw [slice_of_le (Nat.zero_le _) (by omega), List.take_left' gY.property]
    rfl
  have hrest : sliceFrom (gY.val ++ ciphertext2) 32 =
      (.ok ciphertext2 : Outcome EdhocError Bytes) := by
    rw [sliceFrom_of_le (by omega), List.drop_left' gY.property]
  rw [splitMessage2, hread]
  simp only [Outcome.ok_bind, hkey, hrest, copyFromSlice_val]
  rw [failIf_of_not _ (by omega)]
  rfl

/-- Where the signature stands in a plaintext made of a signature behind other
fields. -/
theorem read_signature (fields : Bytes) (signature : Block X.sigLen) :
    sliceFrom (fields ++ Cbor.bstr signature.val) fields.length =
        (.ok (Cbor.bstr signature.val) : Outcome EdhocError Bytes) ∧
      parseBstr (Cbor.bstr signature.val) =
        .ok (signature.val, (Cbor.bstr signature.val).length) := by
  have hread := parseBstr_bstr (bstrMax_of_signature signature) []
  rw [List.append_nil] at hread
  exact ⟨sliceFrom_append _ _, hread⟩

/-- The initiator reads the plaintext of message 2. -/
theorem parsePlaintext2_signed {cI : ConnectionId} {cR : UInt8}
    (hne : received cR ≠ cI) (pubkey : Bytes32) (signature : Block X.sigLen) :
    ∃ cred, cred.encoded.toList = idCredBytes X pubkey ∧
      parsePlaintext2 X cI (identifier [cR] ++ idCredBytes X pubkey ++
          Cbor.bstr signature.val) =
        .ok (received cR, cred,
          (identifier [cR] ++ idCredBytes X pubkey).length) := by
  obtain ⟨cred, hencoded, hcred⟩ := parseIdCred_idCredBytes (X := X) pubkey
    (Cbor.bstr signature.val)
  obtain ⟨hslice, hread⟩ := read_signature
    (identifier [cR] ++ idCredBytes X pubkey) signature
  have hid := parseIdentifier_identifier cR
    (idCredBytes X pubkey ++ Cbor.bstr signature.val)
  have hrest : sliceFrom (identifier [cR] ++ (idCredBytes X pubkey ++
      Cbor.bstr signature.val)) (identifier [cR]).length =
        (.ok (idCredBytes X pubkey ++ Cbor.bstr signature.val) :
          Outcome EdhocError Bytes) := sliceFrom_append _ _
  rw [← List.append_assoc] at hid hrest
  have hlength : (identifier [cR] ++ idCredBytes X pubkey).length =
      (identifier [cR]).length + 11 := by
    rw [List.length_append, length_idCredBytes]
  refine ⟨cred, hencoded, ?_⟩
  simp only [parsePlaintext2, hid, Outcome.ok_bind, failIf_of_not _ hne, hrest,
    hcred]
  rw [← hlength, hslice, Outcome.ok_bind, hread, Outcome.ok_bind,
    failIf_of_not _ (by simp [signature.property, Nat.add_assoc])]
  rfl

/-- What the initiator reads as the identifier of the responder. -/
theorem received_of_parsePlaintext2 {cI : ConnectionId} {cR : UInt8}
    {rest : Bytes} {r : ConnectionId × IdCred × Nat}
    (h : parsePlaintext2 X cI (identifier [cR] ++ rest) = .ok r) :
    r.1 = received cR := by
  rw [parsePlaintext2, parseIdentifier_identifier, Outcome.ok_bind] at h
  simp only [Outcome.bind_eq_ok, Outcome.pure_eq_ok, Except.ok.injEq,
    Prod.exists] at h
  obtain ⟨_, -, _, -, _, _, -, _, -, _, _, -, _, -, rfl⟩ := h
  rfl

/-! Message 3. -/

/-- The responder reads the plaintext of message 3. -/
theorem parsePlaintext3_signed (pubkey : Bytes32) (signature : Block X.sigLen) :
    ∃ cred, cred.encoded.toList = idCredBytes X pubkey ∧
      parsePlaintext3 X (idCredBytes X pubkey ++ Cbor.bstr signature.val) =
        .ok (cred, (idCredBytes X pubkey).length) := by
  obtain ⟨cred, hencoded, hcred⟩ := parseIdCred_idCredBytes (X := X) pubkey
    (Cbor.bstr signature.val)
  obtain ⟨hslice, hread⟩ := read_signature
    (idCredBytes X pubkey) signature
  refine ⟨cred, hencoded, ?_⟩
  rw [parsePlaintext3, hcred, Outcome.ok_bind]
  simp only [← length_idCredBytes (X := X) pubkey]
  rw [hslice, Outcome.ok_bind, hread, Outcome.ok_bind,
    failIf_of_not _ (by simp [signature.property])]
  rfl

/-- The responder decrypts what the initiator sealed. -/
theorem exists_sealMessage3 (haead : X.toCrypto.AeadCorrect)
    (prk3e2m th3 : Bytes32) {plaintext3 : HVec 128}
    (hle : plaintext3.toList.length ≤ 100) :
    ∃ sealed msg3 : HVec 128,
      sealMessage3 X prk3e2m th3 plaintext3 = .ok sealed ∧
        encodeBstr HVec.empty sealed.toList = .ok msg3 ∧
        decryptMessage3 X prk3e2m th3 msg3.toList = .ok plaintext3 := by
  obtain ⟨keys, hkeys⟩ := exists_message3Keys X prk3e2m th3
  obtain ⟨a3, ha3⟩ := exists_buildA3 th3
  obtain ⟨body, tag, hencrypt, hdecrypt⟩ := haead keys.1 keys.2 a3.toList
    plaintext3.toList (Nat.lt_of_le_of_lt hle (by decide))
  have hbody := X.ccmEncrypt_length _ _ _ _ _ _ hencrypt
  have htag : tag.val.length = 8 := tag.property
  have hlength : (body ++ tag.val).length = body.length + 8 := by
    rw [List.length_append, htag]
  have hmax : (body ++ tag.val).length ≤ Cbor.bstrMax := by
    rw [hlength]
    exact Nat.le_trans (by omega) (by decide : 108 ≤ Cbor.bstrMax)
  have hhead := Cbor.length_bstrHead_le (body ++ tag.val).length
  obtain ⟨ciphertext3, hciphertext⟩ : ∃ ciphertext3 : HVec 128,
      ciphertext3.toList = body := ⟨⟨body, by omega⟩, rfl⟩
  obtain ⟨sealed, hsealed⟩ : ∃ sealed : HVec 128,
      sealed.toList = body ++ tag.val := ⟨⟨body ++ tag.val, by omega⟩, rfl⟩
  have hfit : (Cbor.bstr (body ++ tag.val)).length ≤ 128 := by
    rw [Cbor.bstr, List.length_append]
    omega
  obtain ⟨msg3, hmsg3, hbytes⟩ := exists_extendErr_empty hfit
  refine ⟨sealed, msg3, ?_, ?_, ?_⟩
  · have hseal : encryptInPlace X.toCrypto keys.1 keys.2 a3.toList
        plaintext3 = some (ciphertext3, tag) :=
      encryptInPlace_eq_some.mpr (hciphertext.symm ▸ hencrypt)
    simp only [sealMessage3, hkeys, ha3, hseal, okOr_some, Outcome.ok_bind]
    rw [extendErr_eq_ok, hsealed, hciphertext]
  · rw [encodeBstr, hsealed, writeBstr_eq hmax, hmsg3]
  · have hread := parseBstr_bstr hmax []
    rw [List.append_nil] at hread
    have hbehind : sliceFrom (body ++ tag.val) body.length =
        (.ok tag.val : Outcome EdhocError Bytes) := sliceFrom_append _ _
    have hfront : slice (body ++ tag.val) 0 body.length =
        (.ok body : Outcome EdhocError Bytes) := by
      rw [slice_of_le (Nat.zero_le _) (by omega), List.take_left]
      rfl
    have hcopy : extendErr HVec.empty body = .ok ciphertext3 :=
      extendErr_eq_ok.mpr hciphertext
    have hopen : decryptInPlace X.toCrypto keys.1 keys.2 a3.toList
        ciphertext3 tag = some plaintext3 :=
      decryptInPlace_eq_some.mpr (hciphertext.symm ▸ hdecrypt)
    have hstart : (body ++ tag.val).length - tagLen = body.length := by
      rw [hlength]
      exact Nat.add_sub_cancel _ _
    rw [decryptMessage3, hbytes, hread]
    simp only [Outcome.ok_bind, hkeys, ha3, hstart, hbehind, hfront, hcopy,
      hopen, copyFromSlice_val, okOr_some]
    rw [failIf_of_not _ (by simp), failIf_of_not _ (by simp [htag])]
    rfl

/-! Signatures. -/

/-- The key pair of a seed is valid, and its signatures verify. -/
structure HonestKey (X : Suite) (seed : Bytes32) : Prop where
  validPoint : X.validPoint (X.fromSeed seed).2 = true
  decodes : X.decodes (X.fromSeed seed).2 = true
  verifies : ∀ message, X.verify (X.fromSeed seed).2 message
    (X.sign (X.fromSeed seed).1 (X.fromSeed seed).2 message) = true

theorem HonestKey.validatePeerCredential {seed : Bytes32}
    (h : HonestKey X seed) :
    validatePeerCredential X (.raw X (X.fromSeed seed).2) = .ok () :=
  validatePeerCredential_credentialBytes h.validPoint rfl

theorem HonestKey.validatePubkey {seed : Bytes32} (h : HonestKey X seed) :
    validatePubkey X (X.fromSeed seed).2 = .ok () := by
  rw [Edhoc.validatePubkey, failIf_of_not _ (by simp [h.validPoint])]

theorem HonestKey.decodes_ne {seed : Bytes32} (h : HonestKey X seed) :
    ¬ X.decodes (X.fromSeed seed).2 = false := by
  simp [h.decodes]

theorem HonestKey.ownSignature_ne {seed : Bytes32} (h : HonestKey X seed)
    (prk th : Bytes32) (label : Nat) (context : Bytes) :
    ¬ X.verify (X.fromSeed seed).2
      (signedBytes X (X.fromSeed seed).2 prk th label context)
      (ownSignature X (X.fromSeed seed).1 (X.fromSeed seed).2 prk th label
        context) = false := by
  simp [ownSignature, h.verifies]

theorem toBlock_val {n : Nat} (block : Block n) :
    toBlock n block.val = some block :=
  toBlock_eq_some.mpr rfl

/-- The initiator accepts the signature that the responder made. -/
theorem exists_checkMessage2 {seed : Bytes32} (hkey : HonestKey X seed)
    (prk3e2m th2 : Bytes32) {pending : PendingMessage2 X} {fields : Bytes}
    (hid : pending.idCred.encoded.toList = idCredBytes X (X.fromSeed seed).2)
    (hoffset : pending.signatureOffset = fields.length)
    (hplain : pending.plaintext.toList = fields ++ Cbor.bstr
      (ownSignature X (X.fromSeed seed).1 (X.fromSeed seed).2 prk3e2m th2
        labelMac2 (context2Bytes X pending.cR (X.fromSeed seed).2 th2)).val) :
    ∃ queries, checkMessage2 X prk3e2m th2 pending
      (.raw X (X.fromSeed seed).2) = .ok queries := by
  obtain ⟨hslice, hread⟩ := read_signature fields
    (ownSignature X (X.fromSeed seed).1 (X.fromSeed seed).2 prk3e2m th2
      labelMac2 (context2Bytes X pending.cR (X.fromSeed seed).2 th2))
  obtain ⟨hlength, context2, hbytes, hcontext⟩ :=
    exists_context2 X pending.cR (X.fromSeed seed).2 th2
  obtain ⟨m2, hm2, hm2Bytes⟩ := exists_signedBytes X (X.fromSeed seed).2
    prk3e2m th2 labelMac2 (context2Bytes X pending.cR (X.fromSeed seed).2 th2)
  have hverify := hkey.ownSignature_ne prk3e2m th2 labelMac2
    (context2Bytes X pending.cR (X.fromSeed seed).2 th2)
  rw [checkMessage2, hkey.validatePeerCredential, Outcome.ok_bind, hplain,
    hoffset, hslice, Outcome.ok_bind, hread, Outcome.ok_bind, hid]
  simp only [hcontext, hbytes, Outcome.ok_bind,
    edhocKdf_of_le (show labelMac2 ≤ 23 by decide)
      (show 32 ≤ 128 by decide) hlength, hm2, hkey.validatePubkey, toBlock_val,
    okOr_some]
  rw [failIf_of_not _ hkey.decodes_ne, Outcome.ok_bind, hm2Bytes,
    failIf_of_not _ hverify]
  exact ⟨_, rfl⟩

/-- The responder accepts the signature that the initiator made. -/
theorem exists_checkMessage3 {seed : Bytes32} (hkey : HonestKey X seed)
    (prk4e3m th3 : Bytes32) {pending : PendingMessage3 X}
    (hid : pending.idCred.encoded.toList = idCredBytes X (X.fromSeed seed).2)
    (hoffset : pending.signatureOffset =
      (idCredBytes X (X.fromSeed seed).2).length)
    (hplain : pending.plaintext.toList = message3Plaintext X
      (X.fromSeed seed).1 (X.fromSeed seed).2 prk4e3m th3) :
    ∃ signature queries,
      checkCredential3 X pending (.raw X (X.fromSeed seed).2) =
          .ok signature ∧
        checkMessage3 X prk4e3m th3 pending (.raw X (X.fromSeed seed).2)
          signature = .ok queries := by
  obtain ⟨hslice, hread⟩ := read_signature
    (idCredBytes X (X.fromSeed seed).2)
    (ownSignature X (X.fromSeed seed).1 (X.fromSeed seed).2 prk4e3m th3
      labelMac3 (context3Bytes X (X.fromSeed seed).2 th3))
  obtain ⟨hlength, context3, hbytes, hcontext⟩ :=
    exists_context3 X (X.fromSeed seed).2 th3
  obtain ⟨m3, hm3, hm3Bytes⟩ := exists_signedBytes X (X.fromSeed seed).2
    prk4e3m th3 labelMac3 (context3Bytes X (X.fromSeed seed).2 th3)
  have hverify := hkey.ownSignature_ne prk4e3m th3 labelMac3
    (context3Bytes X (X.fromSeed seed).2 th3)
  have hcredential : checkCredential3 X pending
      (.raw X (X.fromSeed seed).2) = .ok (ownSignature X (X.fromSeed seed).1
        (X.fromSeed seed).2 prk4e3m th3 labelMac3
        (context3Bytes X (X.fromSeed seed).2 th3)) := by
    rw [checkCredential3, hkey.validatePeerCredential, Outcome.ok_bind, hplain,
      hoffset, message3Plaintext, hslice, Outcome.ok_bind, hread]
    simp only [Outcome.ok_bind, toBlock_val, okOr_some, hkey.validatePubkey]
    rw [failIf_of_not _ hkey.decodes_ne]
    rfl
  have hchecked : ∃ queries, checkMessage3 X prk4e3m th3 pending
      (.raw X (X.fromSeed seed).2) (ownSignature X (X.fromSeed seed).1
        (X.fromSeed seed).2 prk4e3m th3 labelMac3
        (context3Bytes X (X.fromSeed seed).2 th3)) = .ok queries := by
    rw [checkMessage3, hid]
    simp only [hcontext, hbytes, Outcome.ok_bind,
      edhocKdf_of_le (show labelMac3 ≤ 23 by decide)
        (show 32 ≤ 128 by decide) hlength, hm3]
    rw [hm3Bytes, failIf_of_not _ hverify]
    exact ⟨_, rfl⟩
  obtain ⟨queries, hchecked⟩ := hchecked
  exact ⟨_, queries, hcredential, hchecked⟩

/-! Sizes. -/

theorem transcript_of_le {plaintext cred : Bytes}
    (hplain : plaintext.length ≤ 128) (hcred : cred.length ≤ 40)
    (th : Bytes32) :
    transcript X th plaintext cred =
      .ok (computeTh X (thBytes th plaintext cred)) := by
  have hbstr := Cbor.length_bstr_le plaintext
  have hfit : (thBytes th plaintext cred).length ≤ 1024 := by
    rw [thBytes, List.length_append, List.length_append, length_bstr32]
    omega
  obtain ⟨_, hth, rfl⟩ := (transcript_whole (X := X) th plaintext cred).ok hfit
  exact hth

theorem length_message2Plaintext_le (privkey pubkey prk3e2m th2 : Bytes32)
    (cR : ConnectionId) :
    (message2Plaintext X privkey pubkey prk3e2m th2 cR).length ≤ 85 := by
  have hid := length_identifier_le cR
  have hsignature := length_bstr_signature (ownSignature X privkey pubkey
    prk3e2m th2 labelMac2 (context2Bytes X cR pubkey th2))
  simp only [message2Plaintext, List.length_append, length_idCredBytes]
  omega

theorem length_message3Plaintext_le (privkey pubkey prk4e3m th3 : Bytes32) :
    (message3Plaintext X privkey pubkey prk4e3m th3).length ≤ 77 := by
  have hsignature := length_bstr_signature (ownSignature X privkey pubkey
    prk4e3m th3 labelMac3 (context3Bytes X pubkey th3))
  simp only [message3Plaintext, List.length_append, length_idCredBytes]
  omega

theorem exists_buildMessage2 (ephPublic : Bytes32) {ciphertext2 : Bytes}
    (h : ciphertext2.length ≤ 85) :
    ∃ msg2, buildMessage2 ephPublic ciphertext2 = .ok msg2 ∧
      msg2.toList = Cbor.bstr (ephPublic.val ++ ciphertext2) := by
  have hlength : (ephPublic.val ++ ciphertext2).length ≤ 117 := by
    rw [List.length_append, ephPublic.property]
    omega
  have hhead := Cbor.length_bstrHead_le (ephPublic.val ++ ciphertext2).length
  have hfit : (Cbor.bstr (ephPublic.val ++ ciphertext2)).length ≤ 160 := by
    rw [Cbor.bstr, List.length_append]
    omega
  obtain ⟨body, hbody, hbytes⟩ :=
    exists_extendErr_empty (N := 144) (le_trans hlength (by decide))
  obtain ⟨msg2, hmsg2, hmsg2Bytes⟩ := exists_extendErr_empty hfit
  refine ⟨msg2, ?_, hmsg2Bytes⟩
  rw [buildMessage2, extendErr_bind, hbody, Outcome.ok_bind, hbytes,
    encodeBstr, writeBstr_eq (le_trans hlength (by decide)), hmsg2]

end Oscore.Edhoc
