/-
The responder.  Its identifiers have one byte: the constructors take one, and
it reads no other from message 1.
-/
import Oscore.Edhoc.Endpoint

namespace Oscore.Edhoc

open Rust Rust.Call

/-- `EdhocResponder` and its `ResponderState`. -/
structure EdhocResponder extends Endpoint where
  cR : ConnectionId
  gX : Bytes32
  cI : ConnectionId
deriving DecidableEq

/-- `G_X`, and where the identifier behind it starts. -/
def parseGX (msg1 : Bytes) : Outcome EdhocError (Bytes32 × Nat) := do
  failIf (msg1.length < 37) .invalidMessage
  let method ← index msg1 0
  failIf (method ≠ 0) .invalidMessage
  let rest ← sliceFrom msg1 1
  let (selectedSuite, suitesIEnd) ← parseSuitesI rest
  failIf (selectedSuite ≠ suite0) .unsupportedSuite
  let gXStart := 1 + suitesIEnd
  failIf (msg1.length < gXStart + 2 + 32 + 1) .invalidMessage
  let head ← index msg1 gXStart
  let len ← index msg1 (gXStart + 1)
  failIf (head ≠ 0x58 ∨ len ≠ 32) .invalidMessage
  let gX ← copyFromSlice 32
    (← slice msg1 (gXStart + 2) (gXStart + 2 + 32))
  return (gX, gXStart + 2 + 32)

/-- `C_I` at the end of message 1; trailing bytes are rejected. -/
def parseCI (rest : Bytes) : Outcome EdhocError UInt8 :=
  match rest with
  | [] => throw (.err .invalidMessage)
  | first :: behind =>
      if first ≤ 23 then do
        failIf (rest.length > 1) .invalidMessage
        return first
      else if first = 0x41 ∧ rest.length > 1 then do
        let cI ← index behind 0
        failIf (rest.length > 2) .invalidMessage
        return cI
      else throw (.err .invalidMessage)

/-- The signature offset and the ID_CRED in the plaintext of message 3. -/
def parsePlaintext3 (X : Suite) (pt3 : Bytes) :
    Outcome EdhocError (IdCred × Nat) := do
  let (idCredI, idLen) ← parseIdCred pt3
  let rest ← sliceFrom pt3 idLen
  let (sigBytes, sigLen) ← parseBstr rest
  failIf (sigBytes.length ≠ X.sigLen ∨ idLen + sigLen ≠ pt3.length)
    .invalidMessage
  return (idCredI, idLen)

/-- In-progress message 3, before credential verification.  Its fields are
private: they are what the parser found in the plaintext. -/
structure PendingMessage3 (X : Suite) where
  idCred : IdCred
  plaintext : HVec 128
  signatureOffset : Nat
  transcriptBinding : Bytes32
  parsed : parsePlaintext3 X plaintext.toList = .ok (idCred, signatureOffset)

/-- The copy of the plaintext has the capacity of the original. -/
def parseMessage3 (X : Suite) (th3 : Bytes32) (plaintext3 : HVec 128) :
    Outcome EdhocError (PendingMessage3 X) := do
  let ⟨(idCred, signatureOffset), h⟩ ←
    attach (parsePlaintext3 X plaintext3.toList)
  return ⟨idCred, plaintext3, signatureOffset, th3, h⟩

/-- Authenticate and decrypt message 3. -/
def decryptMessage3 (X : Suite) (prk3e2m th3 : Bytes32) (msg3 : Bytes) :
    Outcome EdhocError (HVec 128) := do
  let (ciphertext3, consumed) ← parseBstr msg3
  failIf (consumed ≠ msg3.length) .invalidMessage
  let (k3, iv3) ← message3Keys X prk3e2m th3
  let a3 ← buildA3 th3
  failIf (ciphertext3.length < tagLen) .invalidMessage
  let tagStart := ciphertext3.length - tagLen
  let tag ← copyFromSlice tagLen (← sliceFrom ciphertext3 tagStart)
  let plaintext3 ← extendErr HVec.empty (← slice ciphertext3 0 tagStart)
  okOr (decryptInPlace X.toCrypto k3 iv3 a3.toList plaintext3 tag)
    .decryptFailed

/-- Credential, MAC, signature and plaintext of message 2. -/
def signMessage2 (X : Suite) (privkey pubkey prk3e2m th2 : Bytes32)
    (cR : ConnectionId) : Outcome EdhocError Authenticated := do
  let idCredR : HVec 40 ← encodeIdCred X HVec.empty pubkey
  let credentialR : HVec 80 ← encodeCredential HVec.empty pubkey
  let context2 ← buildContext2 cR idCredR.toList th2 credentialR.toList
  let mac2 ← edhocKdf X prk3e2m labelMac2 context2.toList 32
  let m2 ← buildSignatureStructure idCredR.toList th2 credentialR.toList
    mac2.val
  let signature2 := X.sign privkey pubkey m2.toList
  let plaintext2 ← encodeIdentifier HVec.empty cR
  let plaintext2 ← extendErr plaintext2 idCredR.toList
  let plaintext2 ← encodeBstr plaintext2 signature2.val
  return ⟨credentialR, plaintext2, [.signed m2.toList signature2.val,
    .expanded prk3e2m (kdfInfo labelMac2 context2.toList 32)]⟩

/-- `G_Y` and `CIPHERTEXT_2` as one byte string. -/
def buildMessage2 (ephPublic : Bytes32) (ciphertext2 : Bytes) :
    Outcome EdhocError (HVec 160) := do
  let gYCiphertext : HVec 144 ← extendErr HVec.empty ephPublic.val
  let gYCiphertext ← extendErr gYCiphertext ciphertext2
  encodeBstr HVec.empty gYCiphertext.toList

/-- What precedes the MAC of message 3: the credential, the signature and the
key. -/
def checkCredential3 (X : Suite) (pending : PendingMessage3 X)
    (peer : PeerCredential) : Outcome EdhocError (Block X.sigLen) := do
  validatePeerCredential X peer
  let rest ← sliceFrom pending.plaintext.toList pending.signatureOffset
  let (sigBytes, _) ← parseBstr rest
  let signature ← okOr (toBlock X.sigLen sigBytes) .invalidMessage
  validatePubkey X peer.publicKey
  failIf (X.decodes peer.publicKey = false) .signatureVerification
  return signature

/-- Verify the signature of message 3; the result is what was computed and
verified. -/
def checkMessage3 (X : Suite) (prk4e3m th3 : Bytes32)
    (pending : PendingMessage3 X) (peer : PeerCredential)
    (signature : Block X.sigLen) : Outcome EdhocError (List Query) := do
  let context3 ← buildContext3 pending.idCred.encoded.toList th3
    peer.credential
  let mac3 ← edhocKdf X prk4e3m labelMac3 context3.toList 32
  let m3 ← buildSignatureStructure pending.idCred.encoded.toList th3
    peer.credential mac3.val
  failIf (X.verify peer.publicKey m3.toList signature = false)
    .signatureVerification
  return [.verified peer.publicKey m3.toList signature.val,
    .expanded prk4e3m (kdfInfo labelMac3 context3.toList 32)]

variable {X : Suite}

theorem parseGX_meets (msg1 : Bytes) :
    (parseGX msg1).Meets fun r => r.2 ≤ msg1.length := by
  refine (Outcome.Meets.failIf _ _).bind fun _ hlen => ?_
  have hlen := Nat.not_lt.mp hlen
  refine (index_meets (by omega)).bind fun method _ => ?_
  refine (Outcome.Meets.failIf _ _).bind fun _ _ => ?_
  refine (sliceFrom_meets msg1 (by omega)).bind fun rest _ => ?_
  refine (parseSuitesI_meets rest).bind fun suites _ => ?_
  refine (Outcome.Meets.failIf _ _).bind fun _ _ => ?_
  refine (Outcome.Meets.failIf _ _).bind fun _ hend => ?_
  have hend := Nat.not_lt.mp hend
  refine (index_meets (by omega)).bind fun head _ => ?_
  refine (index_meets (by omega)).bind fun len _ => ?_
  refine (Outcome.Meets.failIf _ _).bind fun _ _ => ?_
  have hfirst : 1 + suites.2 + 2 ≤ 1 + suites.2 + 2 + 32 := by omega
  have hlast : 1 + suites.2 + 2 + 32 ≤ msg1.length := by omega
  rw [slice_of_le hfirst hlast]
  refine (copyFromSlice_meets ?_).bind fun gX _ => hlast
  rw [List.length_drop, List.length_take_of_le hlast]
  omega

theorem parseCI_meets (rest : Bytes) :
    (parseCI rest).Meets fun _ => True := by
  unfold parseCI
  split
  · exact .err _ _
  · rename_i first behind
    refine .ite (fun _ => ?_) fun _ => .ite (fun hlong => ?_) fun _ => .err _ _
    · exact (Outcome.Meets.failIf _ _).bind fun _ _ => trivial
    · have hbehind : 0 < behind.length := by
        have := hlong.2
        rw [List.length_cons] at this
        omega
      exact (index_meets hbehind).bind fun _ _ =>
        (Outcome.Meets.failIf _ _).bind fun _ _ => trivial

theorem parsePlaintext3_meets (pt3 : Bytes) :
    (parsePlaintext3 X pt3).Meets fun r => SignatureAt X pt3 r.2 := by
  refine (parseIdCred_meets pt3).bind fun cred hcred => ?_
  refine (sliceFrom_meets pt3 hcred.2).bind fun rest hrest => ?_
  subst hrest
  refine (parseBstr_meets _).returned.bind fun signature hsignature => ?_
  refine (Outcome.Meets.failIf _ _).bind fun _ hcheck => ?_
  exact signatureAt_of_read hcred.2 hsignature.1 hcheck

theorem PendingMessage3.signatureAt (pending : PendingMessage3 X) :
    SignatureAt X pending.plaintext.toList pending.signatureOffset :=
  (parsePlaintext3_meets _).of_ok pending.parsed

theorem parseMessage3_meets (th3 : Bytes32) (plaintext3 : HVec 128) :
    (parseMessage3 X th3 plaintext3).Meets fun pending =>
      pending.transcriptBinding = th3 ∧ pending.plaintext = plaintext3 :=
  (parsePlaintext3_meets _).attach.bind fun _ _ => ⟨rfl, rfl⟩

theorem decryptMessage3_meets (prk3e2m th3 : Bytes32) (msg3 : Bytes) :
    (decryptMessage3 X prk3e2m th3 msg3).Meets fun _ => True := by
  obtain ⟨keys, hkeys⟩ := exists_message3Keys X prk3e2m th3
  obtain ⟨a3, ha3⟩ := exists_buildA3 th3
  refine (parseBstr_meets msg3).bind fun item _ => ?_
  refine (Outcome.Meets.failIf _ _).bind fun _ _ => ?_
  simp only [hkeys, ha3, Outcome.ok_bind]
  refine (Outcome.Meets.failIf _ _).bind fun _ hlen => ?_
  have hlen := Nat.not_lt.mp hlen
  have htag : item.1.length - tagLen ≤ item.1.length := Nat.sub_le _ _
  refine (sliceFrom_meets _ htag).bind fun tag htagBytes => ?_
  refine (copyFromSlice_meets ?_).bind fun tag _ => ?_
  · rw [htagBytes, List.length_drop]
    omega
  refine (slice_meets _ htag).bind fun body _ => ?_
  exact (extendErr_meets _ _).bind fun _ _ =>
    (Outcome.Meets.okOr _ _).mono fun _ _ => trivial

/-- What the check of message 3 has established when it returns its log. -/
def Checked3 (X : Suite) (prk4e3m th3 : Bytes32) (pending : PendingMessage3 X)
    (peer : PeerCredential) (queries : List Query) : Prop :=
  ∃ context3 signature3,
    context3 = contextBytes pending.idCred.encoded.toList th3
      peer.credential ∧
    context3.length ≤ 255 ∧
    Verified X (X.hkdfExpand prk4e3m (kdfInfo labelMac3 context3 32) 32)
      th3 pending.idCred.encoded.toList pending.plaintext.toList peer
      signature3 ∧
    queries = [.verified peer.publicKey (signatureBytes
        pending.idCred.encoded.toList th3 peer.credential
        (X.hkdfExpand prk4e3m (kdfInfo labelMac3 context3 32) 32).val)
      signature3.val,
    .expanded prk4e3m (kdfInfo labelMac3 context3 32)]

theorem checkCredential3_meets (pending : PendingMessage3 X)
    (peer : PeerCredential) :
    (checkCredential3 X pending peer).Meets fun signature =>
      X.validPoint peer.publicKey = true ∧
        X.decodes peer.publicKey = true ∧
        (∀ pubkey, peer.credential = credentialBytes pubkey →
          peer.publicKey = pubkey) ∧
        signature.val <:+ pending.plaintext.toList := by
  obtain ⟨hoffset, hsuffix⟩ := pending.signatureAt
  refine (validatePeerCredential_meets X peer).bind fun _ hpeer => ?_
  refine (sliceFrom_meets _ hoffset).bind fun rest hrest => ?_
  rw [hrest]
  refine (parseBstr_meets _).returned.bind fun item hitem => ?_
  obtain ⟨-, hend⟩ := hsuffix item.1 item.2 hitem.1
  refine (Outcome.Meets.okOr _ _).bind fun signature hsignature => ?_
  refine (validatePubkey_meets X _).bind fun _ _ => ?_
  refine (Outcome.Meets.failIf _ _).bind fun _ hdecodes => ?_
  rw [toBlock_eq_some] at hsignature
  exact ⟨hpeer.1, by simpa using hdecodes, hpeer.2, hsignature ▸ hend⟩

theorem checkMessage3_meets (prk4e3m th3 : Bytes32)
    (pending : PendingMessage3 X) {peer : PeerCredential}
    {signature : Block X.sigLen}
    (hpoint : X.validPoint peer.publicKey = true)
    (hdecodes : X.decodes peer.publicKey = true)
    (hkey : ∀ pubkey, peer.credential = credentialBytes pubkey →
      peer.publicKey = pubkey)
    (hend : signature.val <:+ pending.plaintext.toList) :
    (checkMessage3 X prk4e3m th3 pending peer signature).Meets
      (Checked3 X prk4e3m th3 pending peer) := by
  refine (buildContext3_whole _ _ _).meets.bind fun context3 hcontext => ?_
  refine (edhocKdf_whole _ _ _ _).meets.bind fun mac3 hmac => ?_
  obtain ⟨⟨-, hlength, -⟩, rfl⟩ := hmac
  refine (buildSignatureStructure_whole _ _ _ _).meets.bind fun m3 hm3 => ?_
  refine (Outcome.Meets.failIf _ _).bind fun _ hverify => ?_
  refine ⟨context3.toList, signature, hcontext.2, hlength, ?_, ?_⟩
  · refine ⟨hpoint, hdecodes, hkey, ?_, hend⟩
    rw [← hm3.2]
    simpa using hverify
  · rw [← hm3.2]

/-- The context of `MAC_2`, for the key of the responder. -/
def context2Bytes (X : Suite) (cR : ConnectionId) (pubkey th2 : Bytes32) :
    Bytes :=
  identifier cR.toList ++
    contextBytes (idCredBytes X pubkey) th2 (credentialBytes pubkey)

/-- The plaintext of message 2. -/
def message2Plaintext (X : Suite) (privkey pubkey prk3e2m th2 : Bytes32)
    (cR : ConnectionId) : Bytes :=
  identifier cR.toList ++ idCredBytes X pubkey ++
    Cbor.bstr (ownSignature X privkey pubkey prk3e2m th2 labelMac2
      (context2Bytes X cR pubkey th2)).val

theorem exists_context2 (X : Suite) (cR : ConnectionId)
    (pubkey th2 : Bytes32) :
    (context2Bytes X cR pubkey th2).length ≤ 96 ∧
      ∃ context2 : HVec 128,
        context2.toList = context2Bytes X cR pubkey th2 ∧
        buildContext2 cR (idCredBytes X pubkey) th2 (credentialBytes pubkey) =
          .ok context2 := by
  have hidentifier := length_identifier_le cR
  have hlength : (context2Bytes X cR pubkey th2).length ≤ 96 := by
    simp only [context2Bytes, contextBytes, List.length_append, length_bstr32,
      length_idCredBytes, length_credentialBytes]
    omega
  obtain ⟨context2, hcontext, hbytes⟩ :=
    exists_extendErr_empty (N := 128) (le_trans hlength (by decide))
  exact ⟨hlength, context2, hbytes, (buildContext2_eq _ _ _ _).trans hcontext⟩

/-- A responder can always sign message 2. -/
theorem exists_signMessage2 (X : Suite) (privkey pubkey prk3e2m th2 : Bytes32)
    (cR : ConnectionId) :
    ∃ signed, signMessage2 X privkey pubkey prk3e2m th2 cR = .ok signed ∧
      signed.credential.toList = credentialBytes pubkey ∧
      signed.plaintext.toList =
        message2Plaintext X privkey pubkey prk3e2m th2 cR ∧
      signed.queries = signQueries X privkey pubkey prk3e2m th2 labelMac2
        (context2Bytes X cR pubkey th2) := by
  obtain ⟨idCredR, hid, hidBytes⟩ :=
    exists_encodeIdCred (N := 40) X pubkey (by decide)
  obtain ⟨credentialR, hcred, hcredBytes⟩ :=
    exists_encodeCredential (N := 80) pubkey (by decide)
  have hidLen := length_idCredBytes (X := X) pubkey
  have hidentifier := length_identifier_le cR
  obtain ⟨hlength, context2, hcontextBytes, hcontext⟩ :=
    exists_context2 X cR pubkey th2
  obtain ⟨m2, hm2, hm2Bytes⟩ := exists_signedBytes X pubkey prk3e2m th2
    labelMac2 (context2Bytes X cR pubkey th2)
  obtain ⟨plaintext2, hplain, hplainBytes⟩ := exists_signedPlaintext
    (identifier cR.toList ++ idCredBytes X pubkey)
    (by rw [List.length_append]; omega)
    (ownSignature X privkey pubkey prk3e2m th2 labelMac2
      (context2Bytes X cR pubkey th2))
  rw [List.append_assoc] at hplain
  refine ⟨⟨credentialR, plaintext2, _⟩, ?_, hcredBytes, hplainBytes, rfl⟩
  rw [signMessage2, hid, Outcome.ok_bind, hcred, Outcome.ok_bind, hidBytes,
    hcredBytes, hcontext, Outcome.ok_bind, hcontextBytes,
    edhocKdf_of_le (by decide) (by decide) hlength, Outcome.ok_bind, hm2,
    Outcome.ok_bind, hm2Bytes, ← ownSignature]
  simp only [encodeIdentifier_eq, encodeBstr,
    writeBstr_eq (bstrMax_of_signature _), extendErr_bind, hplain]
  rfl

theorem buildMessage2_meets (ephPublic : Bytes32) (ciphertext2 : Bytes) :
    (buildMessage2 ephPublic ciphertext2).Meets fun _ => True :=
  (extendErr_meets _ _).bind fun _ _ => (extendErr_meets _ _).bind fun _ _ =>
    (writeBstr_meets _ _).mono fun _ _ => trivial

namespace EdhocResponder

/-- `new` and `new_with_rng`; `eph_seed` is what the generator returns. -/
def new (X : Suite) (seed ephSeed : Bytes32) (cR : UInt8) :
    EdhocResponder where
  toEndpoint := .new X seed ephSeed
  cR := .ofByte cR
  gX := zeros 32
  cI := HVec.empty

def wipe (self : EdhocResponder) (lifecycle : Lifecycle) : EdhocResponder :=
  { self with toEndpoint := self.toEndpoint.wipe lifecycle, gX := zeros 32 }

def poison (self : EdhocResponder) : EdhocResponder := self.wipe .failed

def zeroize (self : EdhocResponder) : EdhocResponder := self.wipe .zeroized

/-- What `process_message_1` does behind the agreement. -/
def createMessage2 (X : Suite) (gXy : Bytes32) (msg1 : Bytes) :
    Call EdhocResponder EdhocError (HVec 160) := do
  let self ← get
  check (failIf (gXy = zeros 32) .invalidMessage)
  let th2 ← check (transcript2 X self.ephPublic.val msg1)
  let prk2e := hkdfExtract X th2.val gXy.val
  modify fun self => { self with
    th2
    prk2e
    prk3e2m := prk2e
    asked := .hashed (th2Bytes X self.ephPublic msg1) :: .hashed msg1 ::
      self.asked }
  let signed ← check (signMessage2 X self.privkey self.pubkey prk2e th2
    self.cR)
  let ciphertext2 ← check (xorKeystream2 X prk2e th2 signed.plaintext.toList)
  let th3 ← check (transcript3 X th2 signed.plaintext.toList
    signed.credential.toList)
  modify fun self => { self with
    th3
    asked := .hashed (thBytes th2 signed.plaintext.toList
      signed.credential.toList) :: (signed.queries ++ self.asked) }
  let msg2 ← check (buildMessage2 self.ephPublic ciphertext2.toList)
  modify fun self => { self with lifecycle := .awaitingMessage3 }
  return msg2

/-- Process message 1 and create message 2. -/
def processMessage1 (X : Suite) (msg1 : Bytes) :
    Call EdhocResponder EdhocError (HVec 160) := do
  let self ← get
  check (failIf (self.lifecycle ≠ .created ∨ self.ephSecret = none)
    .invalidState)
  let storedMsg1 ← check (extendErr HVec.empty msg1)
  let (gX, cIStart) ← check (parseGX msg1)
  modify fun self => { self with gX }
  let rest ← check (sliceFrom msg1 cIStart)
  let cI ← check (parseCI rest)
  if self.cR.toList = [cI] then
    modify poison
    throw (.err .invalidMessage)
  else
    let ephSecret ← check (okOr self.ephSecret .invalidState)
    let gXy := X.diffieHellman ephSecret gX
    modify fun self => { self with
      ephSecret := none
      msg1 := storedMsg1
      gX
      cI := .ofByte cI
      asked := .agreed gX :: self.asked }
    onErr poison (createMessage2 X gXy msg1)

/-- What `begin_process_message_3` does behind its guard. -/
def openMessage3 (X : Suite) (msg3 : Bytes) :
    Call EdhocResponder EdhocError (PendingMessage3 X) := do
  let self ← get
  let plaintext3 ← check (decryptMessage3 X self.prk3e2m self.th3 msg3)
  let pending ← check (parseMessage3 X self.th3 plaintext3)
  modify fun self => { self with lifecycle := .pendingMessage3 }
  return pending

/-- Authenticate, decrypt and parse message 3 before credential selection. -/
def beginProcessMessage3 (X : Suite) (msg3 : Bytes) :
    Call EdhocResponder EdhocError (PendingMessage3 X) := do
  let self ← get
  check (failIf (self.lifecycle ≠ .awaitingMessage3) .invalidState)
  onErr poison (openMessage3 X msg3)

/-- What `finish_process_message_3` does behind its checks of the pending
value. -/
def verifyMessage3 (X : Suite) (pending : PendingMessage3 X)
    (peer : PeerCredential) : Call EdhocResponder EdhocError Unit := do
  let self ← get
  let signature ← check (checkCredential3 X pending peer)
  let prk4e3m := self.prk3e2m
  modify fun self => { self with prk4e3m }
  let verified ← check (checkMessage3 X prk4e3m self.th3 pending peer
    signature)
  let th4 ← check (transcript4 X self.th3 pending.plaintext.toList
    peer.credential)
  modify fun self => { self with
    th4
    completed := true
    lifecycle := .complete
    asked := .hashed (thBytes self.th3 pending.plaintext.toList
      peer.credential) :: (verified ++ self.asked) }

/-- Verify a pending message 3.  A pending value of another session and a wrong
credential poison the responder. -/
def finishProcessMessage3 (X : Suite) (pending : PendingMessage3 X)
    (peer : PeerCredential) : Call EdhocResponder EdhocError Unit := do
  let self ← get
  if self.lifecycle ≠ .pendingMessage3 ∨
      pending.transcriptBinding ≠ self.th3 then
    modify poison
    throw (.err .invalidState)
  else if peer.idCred ≠ pending.idCred.encoded.toList then
    modify poison
    throw (.err .signatureVerification)
  else
    onErr poison (verifyMessage3 X pending peer)

def processMessage3WithCredential (X : Suite) (msg3 : Bytes)
    (peer : PeerCredential) : Call EdhocResponder EdhocError Unit := do
  let pending ← beginProcessMessage3 X msg3
  finishProcessMessage3 X pending peer

/-- Process message 3 under a raw public key. -/
def processMessage3 (X : Suite) (msg3 : Bytes) (peerPubkey : Bytes32) :
    Call EdhocResponder EdhocError Unit := do
  let (idCred, credential) ← check (rawKeyCredential X peerPubkey)
  processMessage3WithCredential X msg3
    ⟨peerPubkey, idCred.toList, credential.toList⟩

/-- Export the OSCORE security context: `C_I` is the sender ID. -/
def exportOscore (X : Suite) (self : EdhocResponder) :
    Outcome OscoreError (Context X.toCrypto) := do
  failIf (self.completed = false ∨ self.prk4e3m = zeros 32) .noContext
  exportContext X self.prk4e3m self.th4 self.cI.toList self.cR.toList

theorem processMessage3_eq {idCred : HVec 40} {credential : HVec 80}
    {peerPubkey : Bytes32}
    (hraw : rawKeyCredential X peerPubkey = .ok (idCred, credential))
    (msg3 : Bytes) :
    processMessage3 X msg3 peerPubkey = processMessage3WithCredential X msg3
      ⟨peerPubkey, idCred.toList, credential.toList⟩ := by
  rw [processMessage3, hraw]
  rfl

/-! What the calls do. -/

/-- The state with the ephemeral secret spent on a message 1. -/
def agreed (self : EdhocResponder) (msg1 : HVec 64) (gX : Bytes32)
    (cI : UInt8) : EdhocResponder :=
  { self with
    ephSecret := none
    msg1
    gX
    cI := .ofByte cI
    asked := .agreed gX :: self.asked }

/-- The state behind the agreement, once message 2 is made. -/
def answered (X : Suite) (self : EdhocResponder) (gXy : Bytes32)
    (msg1 : Bytes) : EdhocResponder :=
  let input2 := th2Bytes X self.ephPublic msg1
  let th2 := computeTh X input2
  let prk2e := hkdfExtract X th2.val gXy.val
  let input3 := thBytes th2
    (message2Plaintext X self.privkey self.pubkey prk2e th2 self.cR)
    (credentialBytes self.pubkey)
  { self with
    th2
    prk2e
    prk3e2m := prk2e
    th3 := computeTh X input3
    lifecycle := .awaitingMessage3
    asked := .hashed input3 :: (signQueries X self.privkey self.pubkey prk2e
      th2 labelMac2 (context2Bytes X self.cR self.pubkey th2) ++
        .hashed input2 :: .hashed msg1 :: self.asked) }

theorem createMessage2_meets (self : EdhocResponder) (gXy : Bytes32)
    (msg1 : Bytes) :
    (createMessage2 X gXy msg1).Meets self
      (fun _ t => gXy ≠ zeros 32 ∧ t = self.answered X gXy msg1)
      (fun t => t.agreements = self.agreements) := by
  refine Meets.get_bind (Meets.failIf_bind rfl fun hnonzero => ?_)
  rw [transcript2_eq]
  refine Meets.ok_bind (Meets.modify_bind ?_)
  obtain ⟨⟨credentialR, plaintext2, _⟩, hsign, hcred, hplain, rfl⟩ :=
    exists_signMessage2 X self.privkey self.pubkey
      (hkdfExtract X (computeTh X (th2Bytes X self.ephPublic msg1)).val
        gXy.val)
      (computeTh X (th2Bytes X self.ephPublic msg1)) self.cR
  rw [hsign]
  refine Meets.ok_bind ?_
  refine Meets.check_bind (xorKeystream2_meets _ _ _) rfl fun text _ => ?_
  refine Meets.check_bind (transcript_meets _ _ _) rfl ?_
  rintro _ rfl
  refine Meets.modify_bind ?_
  refine Meets.check_bind (buildMessage2_meets _ _) rfl fun msg2 _ => ?_
  refine ⟨hnonzero, ?_⟩
  rw [hplain, hcred]
  rfl

/-- Message 1 names the identifier of the responder as that of its peer. -/
def SameIds (self : EdhocResponder) (msg1 : Bytes) : Prop :=
  ∃ gX start cI, parseGX msg1 = .ok (gX, start) ∧
    parseCI (msg1.drop start) = .ok cI ∧ self.cR.toList = [cI]

/-- Message 1 fails with no trace but in a field that nothing reads, or
poisons: on equal identifiers, or once the ephemeral secret is spent. -/
theorem processMessage1_meets (self : EdhocResponder) (msg1 : Bytes) :
    (processMessage1 X msg1).Meets self
      (fun _ t => ∃ ephSecret storedMsg1 gX start cI,
        self.lifecycle = .created ∧ self.ephSecret = some ephSecret ∧
        storedMsg1.toList = msg1 ∧ parseGX msg1 = .ok (gX, start) ∧
        parseCI (msg1.drop start) = .ok cI ∧ self.cR.toList ≠ [cI] ∧
        t = (self.agreed storedMsg1 gX cI).answered X
          (X.diffieHellman ephSecret gX) msg1)
      (fun t => t = self ∨ self.lifecycle = .created ∧
        ((∃ gX, t = { self with gX }) ∨ self.Poisoned t.toEndpoint ∧
          (self.SameIds msg1 ∨ t.agreements = self.agreements + 1))) := by
  refine Meets.get_bind (Meets.failIf_bind (.inl rfl) fun hguard => ?_)
  have hlifecycle := not_not.mp (not_or.mp hguard).1
  have hread : ∀ gX, ∃ gX', { self with gX } = { self with gX := gX' } :=
    fun gX => ⟨gX, rfl⟩
  refine Meets.check_bind (extendErr_meets _ _) (.inl rfl) ?_
  intro storedMsg1 hstored
  refine Meets.check_bind (parseGX_meets msg1).returned (.inl rfl) ?_
  rintro ⟨gX, start⟩ ⟨hgX, hstart⟩
  refine Meets.modify_bind ?_
  refine Meets.check_bind (sliceFrom_meets msg1 hstart)
    (.inr ⟨hlifecycle, .inl (hread gX)⟩) ?_
  rintro _ rfl
  refine Meets.check_bind (parseCI_meets _).returned
    (.inr ⟨hlifecycle, .inl (hread gX)⟩) ?_
  intro cI hcI
  refine Meets.ite (fun hsame => ?_) fun hne => ?_
  · refine Meets.modify_bind (Meets.throw _
      (.inr ⟨hlifecycle, .inr ⟨?_, .inl ?_⟩⟩))
    · exact Endpoint.poisoned_wipe (Nat.le_add_right _ _)
    · exact ⟨gX, start, cI, hgX, hcI.1, hsame⟩
  refine Meets.check_bind (.okOr _ _)
    (.inr ⟨hlifecycle, .inl (hread gX)⟩) ?_
  intro ephSecret hsome
  refine Meets.modify_bind ?_
  have hasked : (self.agreed storedMsg1 gX cI).agreements =
      self.agreements + 1 := rfl
  refine Meets.onErr
    ((createMessage2_meets (self.agreed storedMsg1 gX cI) _ _).mono ?_
      fun _ h => h) fun t ht =>
        .inr ⟨hlifecycle, .inr ⟨Endpoint.poisoned_wipe ?_, .inr ?_⟩⟩
  · rintro msg2 t ⟨-, rfl⟩
    exact ⟨ephSecret, storedMsg1, gX, start, cI, hlifecycle, hsome, hstored,
      hgX, hcI.1, hne, rfl⟩
  · rw [ht, Endpoint.budget_of_some hsome]
    exact le_of_eq hasked
  · exact ht.trans hasked

/-- Beginning message 3 fails without a trace, or poisons. -/
theorem beginProcessMessage3_meets (self : EdhocResponder) (msg3 : Bytes) :
    (beginProcessMessage3 X msg3).Meets self
      (fun pending t => self.lifecycle = .awaitingMessage3 ∧
        pending.transcriptBinding = self.th3 ∧
        t = { self with lifecycle := .pendingMessage3 })
      (fun t => t = self ∨ self.lifecycle = .awaitingMessage3 ∧
        self.Poisoned t.toEndpoint) := by
  refine Meets.get_bind (Meets.failIf_bind (.inl rfl) fun hguard => ?_)
  have hopen : (openMessage3 X msg3).Meets self
      (fun pending t => pending.transcriptBinding = self.th3 ∧
        t = { self with lifecycle := .pendingMessage3 })
      (fun t => t = self) := by
    refine Meets.get_bind ?_
    refine Meets.check_bind (decryptMessage3_meets _ _ _) rfl fun _ _ => ?_
    refine Meets.check_bind (parseMessage3_meets _ _) rfl fun pending h => ?_
    exact ⟨h.1, rfl⟩
  refine Meets.onErr (hopen.mono ?_ fun _ h => h) ?_
  · exact fun pending t h => ⟨not_not.mp hguard, h⟩
  · rintro _ rfl
    exact .inr ⟨not_not.mp hguard,
      Endpoint.poisoned_wipe (Nat.le_add_right _ _)⟩

/-- The state once a pending message 3 is verified. -/
def finished (X : Suite) (self : EdhocResponder)
    (pending : PendingMessage3 X) (peer : PeerCredential)
    (verified : List Query) : EdhocResponder :=
  let input4 := thBytes self.th3 pending.plaintext.toList peer.credential
  { self with
    prk4e3m := self.prk3e2m
    th4 := computeTh X input4
    completed := true
    lifecycle := .complete
    asked := .hashed input4 :: (verified ++ self.asked) }

theorem verifyMessage3_meets (self : EdhocResponder)
    (pending : PendingMessage3 X) (peer : PeerCredential) :
    (verifyMessage3 X pending peer).Meets self
      (fun _ t => ∃ verified, Checked3 X self.prk3e2m self.th3 pending peer
        verified ∧ t = self.finished X pending peer verified)
      (fun t => t.agreements = self.agreements) := by
  refine Meets.get_bind ?_
  refine Meets.check_bind (checkCredential3_meets _ _) rfl ?_
  rintro signature ⟨hpoint, hdecodes, hkey, hend⟩
  refine Meets.modify_bind ?_
  refine Meets.check_bind
    (checkMessage3_meets _ _ _ hpoint hdecodes hkey hend) rfl ?_
  intro verified hverified
  refine Meets.check_bind (transcript_meets _ _ _) rfl ?_
  rintro _ rfl
  exact ⟨verified, hverified, rfl⟩

/-- What finishing message 3 has established when it returns. -/
def Finishes (X : Suite) (self : EdhocResponder)
    (pending : PendingMessage3 X) (peer : PeerCredential)
    (other : EdhocResponder) : Prop :=
  self.lifecycle = .pendingMessage3 ∧
    pending.transcriptBinding = self.th3 ∧
    peer.idCred = pending.idCred.encoded.toList ∧
    ∃ verified, Checked3 X self.prk3e2m self.th3 pending peer verified ∧
      other = self.finished X pending peer verified

/-- Finishing message 3 poisons when it fails, whatever the state was. -/
theorem finishProcessMessage3_meets (self : EdhocResponder)
    (pending : PendingMessage3 X) (peer : PeerCredential) :
    (finishProcessMessage3 X pending peer).Meets self
      (fun _ t => self.Finishes X pending peer t)
      (fun t => self.Poisoned t.toEndpoint) := by
  have hpoison : self.Poisoned self.poison.toEndpoint :=
    Endpoint.poisoned_wipe (Nat.le_add_right _ _)
  refine Meets.get_bind (Meets.ite (fun _ => ?_) fun hguard => ?_)
  · exact Meets.modify_bind (Meets.throw _ hpoison)
  obtain ⟨hlifecycle, hbinding⟩ := not_or.mp hguard
  refine Meets.ite (fun _ => ?_) fun hid => ?_
  · exact Meets.modify_bind (Meets.throw _ hpoison)
  refine Meets.onErr ((verifyMessage3_meets self pending peer).mono ?_
    fun _ h => h) fun t ht =>
      Endpoint.poisoned_wipe (ht ▸ Nat.le_add_right _ _)
  intro _ t h
  exact ⟨not_not.mp hlifecycle, not_not.mp hbinding, not_not.mp hid, h⟩

end EdhocResponder

end Oscore.Edhoc
