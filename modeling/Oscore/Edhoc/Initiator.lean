/-
The initiator.  A method reads and writes its state where the code does; what
lies between two writes is a function of its own.
-/
import Oscore.Edhoc.Endpoint

namespace Oscore.Edhoc

open Rust Rust.Call

/-- `EdhocInitiator` and its `InitiatorState`. -/
structure EdhocInitiator extends Endpoint where
  cI : ConnectionId
  gY : Bytes32
  cR : ConnectionId
deriving DecidableEq

/-- The identifier, the ID_CRED and the offset of the signature in the
plaintext of message 2. -/
def parsePlaintext2 (X : Suite) (cI : ConnectionId) (pt2 : Bytes) :
    Outcome EdhocError (ConnectionId × IdCred × Nat) := do
  let (cR, cRLen) ← parseIdentifier pt2
  failIf (cR = cI) .invalidMessage
  let rest ← sliceFrom pt2 cRLen
  let (idCredR, idLen) ← parseIdCred rest
  let sigOffset := cRLen + idLen
  let rest ← sliceFrom pt2 sigOffset
  let (signatureBytes, sigLen) ← parseBstr rest
  failIf (signatureBytes.length ≠ X.sigLen ∨ sigOffset + sigLen ≠ pt2.length)
    .invalidMessage
  return (cR, idCredR, sigOffset)

/-- In-progress message 2, before credential verification.  Its fields are
private: they are what the parser found in the plaintext. -/
structure PendingMessage2 (X : Suite) where
  idCred : IdCred
  plaintext : HVec 128
  cR : ConnectionId
  signatureOffset : Nat
  transcriptBinding : Bytes32
  parsed : ∃ cI, parsePlaintext2 X cI plaintext.toList =
    .ok (cR, idCred, signatureOffset)

/-- The copy of the plaintext has the capacity of the original. -/
def parseMessage2 (X : Suite) (cI : ConnectionId) (th2 : Bytes32)
    (plaintext2 : HVec 128) : Outcome EdhocError (PendingMessage2 X) := do
  let ⟨(cR, idCred, signatureOffset), h⟩ ←
    attach (parsePlaintext2 X cI plaintext2.toList)
  return ⟨idCred, plaintext2, cR, signatureOffset, th2, cI, h⟩

/-- The error for a message 2 that is an error message. -/
def errorMessage2 (msg2 : Bytes) : EdhocError :=
  match parseSuitesR (msg2.drop 1) with
  | .ok consumed =>
      if consumed + 1 = msg2.length then .unsupportedSuite else .invalidMessage
  | .error _ => .invalidMessage

/-- `G_Y` and `CIPHERTEXT_2` -/
def splitMessage2 (X : Suite) (msg2 : Bytes) :
    Outcome EdhocError (Bytes32 × Bytes) := do
  let (gYCt2, consumed) ← parseBstr msg2
  failIf (consumed ≠ msg2.length ∨ gYCt2.length < 32 + 1 + X.sigLen)
    .invalidMessage
  let gY ← copyFromSlice 32 (← slice gYCt2 0 32)
  let ciphertext2 ← sliceFrom gYCt2 32
  return (gY, ciphertext2)

/-- Verify the signature of message 2 under the selected credential; the result
is what was computed and verified. -/
def checkMessage2 (X : Suite) (prk3e2m th2 : Bytes32)
    (pending : PendingMessage2 X) (peer : PeerCredential) :
    Outcome EdhocError (List Query) := do
  validatePeerCredential X peer
  let rest ← sliceFrom pending.plaintext.toList pending.signatureOffset
  let (signatureBytes, _) ← parseBstr rest
  let context2 ← buildContext2 pending.cR pending.idCred.encoded.toList th2
    peer.credential
  let mac2 ← edhocKdf X prk3e2m labelMac2 context2.toList 32
  let m2 ← buildSignatureStructure pending.idCred.encoded.toList th2
    peer.credential mac2.val
  validatePubkey X peer.publicKey
  failIf (X.decodes peer.publicKey = false) .signatureVerification
  let signature2 ← okOr (toBlock X.sigLen signatureBytes) .invalidMessage
  failIf (X.verify peer.publicKey m2.toList signature2 = false)
    .signatureVerification
  return [.verified peer.publicKey m2.toList signature2.val,
    .expanded prk3e2m (kdfInfo labelMac2 context2.toList 32)]

/-- Credential, MAC, signature and plaintext of message 3. -/
def signMessage3 (X : Suite) (privkey pubkey prk4e3m th3 : Bytes32) :
    Outcome EdhocError Authenticated := do
  let credentialI : HVec 80 ← encodeCredential HVec.empty pubkey
  let idCredI : HVec 40 ← encodeIdCred X HVec.empty pubkey
  let context3 ← buildContext3 idCredI.toList th3 credentialI.toList
  let mac3 ← edhocKdf X prk4e3m labelMac3 context3.toList 32
  let m3 ← buildSignatureStructure idCredI.toList th3 credentialI.toList
    mac3.val
  let signature3 := X.sign privkey pubkey m3.toList
  let plaintext3 ← extendErr HVec.empty idCredI.toList
  let plaintext3 ← encodeBstr plaintext3 signature3.val
  return ⟨credentialI, plaintext3, [.signed m3.toList signature3.val,
    .expanded prk4e3m (kdfInfo labelMac3 context3.toList 32)]⟩

/-- Encrypt the plaintext of message 3 in place and append the tag. -/
def sealMessage3 (X : Suite) (prk3e2m th3 : Bytes32) (data3 : HVec 128) :
    Outcome EdhocError (HVec 128) := do
  let (k3, iv3) ← message3Keys X prk3e2m th3
  let a3 ← buildA3 th3
  let (ciphertext3, tag) ←
    okOr (encryptInPlace X.toCrypto k3 iv3 a3.toList data3) .invalidState
  extendErr ciphertext3 tag.val

def buildMessage1 (ephPublic : Bytes32) (cI : ConnectionId) :
    Outcome EdhocError (HVec 64) := do
  let msg1 ← pushErr HVec.empty 0
  let msg1 ← pushErr msg1 suite0
  let msg1 ← encodeBstr msg1 ephPublic.val
  encodeIdentifier msg1 cI

variable {X : Suite}

theorem parsePlaintext2_meets (cI : ConnectionId) (pt2 : Bytes) :
    (parsePlaintext2 X cI pt2).Meets fun r =>
      r.1 ≠ cI ∧ SignatureAt X pt2 r.2.2 := by
  refine (parseIdentifier_meets pt2).bind fun item hitem => ?_
  refine (Outcome.Meets.failIf _ _).bind fun _ hne => ?_
  refine (sliceFrom_meets pt2 hitem.2).bind fun rest hrest => ?_
  subst hrest
  refine (parseIdCred_meets _).bind fun cred hcred => ?_
  have hoffset := (hitem.add hcred).2
  refine (sliceFrom_meets pt2 hoffset).bind fun rest hrest => ?_
  subst hrest
  refine (parseBstr_meets _).returned.bind fun signature hsignature => ?_
  refine (Outcome.Meets.failIf _ _).bind fun _ hcheck => ⟨hne, ?_⟩
  exact signatureAt_of_read hoffset hsignature.1 hcheck

theorem PendingMessage2.signatureAt (pending : PendingMessage2 X) :
    SignatureAt X pending.plaintext.toList pending.signatureOffset := by
  obtain ⟨cI, h⟩ := pending.parsed
  exact ((parsePlaintext2_meets cI _).of_ok h).2

theorem parseMessage2_meets (cI : ConnectionId) (th2 : Bytes32)
    (plaintext2 : HVec 128) :
    (parseMessage2 X cI th2 plaintext2).Meets fun pending =>
      pending.transcriptBinding = th2 ∧ pending.cR ≠ cI ∧
        pending.plaintext = plaintext2 :=
  (parsePlaintext2_meets cI _).attach.bind fun _ h => ⟨rfl, h.1, rfl⟩

theorem splitMessage2_meets (msg2 : Bytes) :
    (splitMessage2 X msg2).Meets fun _ => True := by
  refine (parseBstr_meets msg2).bind fun item _ => ?_
  refine (Outcome.Meets.failIf _ _).bind fun _ hlen => ?_
  have hmin : 32 ≤ item.1.length := by
    have := Nat.not_lt.mp (not_or.mp hlen).2
    omega
  refine (slice_meets _ hmin).bind fun head hhead => ?_
  refine (copyFromSlice_meets ?_).bind fun gY _ => ?_
  · rw [hhead, List.length_take_of_le hmin]
  · exact (sliceFrom_meets _ hmin).bind fun _ _ => trivial

/-- What the check of message 2 has established when it returns its log. -/
def Checked2 (X : Suite) (prk3e2m th2 : Bytes32) (pending : PendingMessage2 X)
    (peer : PeerCredential) (queries : List Query) : Prop :=
  ∃ context2 signature2,
    context2 = identifier pending.cR.toList ++
      contextBytes pending.idCred.encoded.toList th2 peer.credential ∧
    context2.length ≤ 255 ∧
    Verified X (X.hkdfExpand prk3e2m (kdfInfo labelMac2 context2 32) 32)
      th2 pending.idCred.encoded.toList pending.plaintext.toList peer
      signature2 ∧
    queries = [.verified peer.publicKey (signatureBytes
        pending.idCred.encoded.toList th2 peer.credential
        (X.hkdfExpand prk3e2m (kdfInfo labelMac2 context2 32) 32).val)
      signature2.val,
    .expanded prk3e2m (kdfInfo labelMac2 context2 32)]

theorem checkMessage2_meets (prk3e2m th2 : Bytes32)
    (pending : PendingMessage2 X) (peer : PeerCredential) :
    (checkMessage2 X prk3e2m th2 pending peer).Meets
      (Checked2 X prk3e2m th2 pending peer) := by
  obtain ⟨hoffset, hsuffix⟩ := pending.signatureAt
  refine (validatePeerCredential_meets X peer).bind fun _ hpeer => ?_
  refine (sliceFrom_meets _ hoffset).bind fun rest hrest => ?_
  rw [hrest]
  refine (parseBstr_meets _).returned.bind fun item hitem => ?_
  obtain ⟨-, hend⟩ := hsuffix item.1 item.2 hitem.1
  refine (buildContext2_whole _ _ _ _).meets.bind fun context2 hcontext => ?_
  refine (edhocKdf_whole _ _ _ _).meets.bind fun mac2 hmac => ?_
  obtain ⟨⟨-, hlength, -⟩, rfl⟩ := hmac
  refine (buildSignatureStructure_whole _ _ _ _).meets.bind fun m2 hm2 => ?_
  refine (validatePubkey_meets X _).bind fun _ _ => ?_
  refine (Outcome.Meets.failIf _ _).bind fun _ hdecodes => ?_
  refine (Outcome.Meets.okOr _ _).bind fun signature2 hsignature => ?_
  refine (Outcome.Meets.failIf _ _).bind fun _ hverify => ?_
  rw [toBlock_eq_some] at hsignature
  refine ⟨context2.toList, signature2, hcontext.2, hlength, ?_, ?_⟩
  · refine ⟨hpeer.1, by simpa using hdecodes, hpeer.2, ?_, hsignature ▸ hend⟩
    rw [← hm2.2]
    simpa using hverify
  · rw [← hm2.2]

/-- The context of `MAC_3`, for the key of the initiator. -/
def context3Bytes (X : Suite) (pubkey th3 : Bytes32) : Bytes :=
  contextBytes (idCredBytes X pubkey) th3 (credentialBytes pubkey)

/-- The plaintext of message 3. -/
def message3Plaintext (X : Suite) (privkey pubkey prk4e3m th3 : Bytes32) :
    Bytes :=
  idCredBytes X pubkey ++ Cbor.bstr (ownSignature X privkey pubkey prk4e3m th3
    labelMac3 (context3Bytes X pubkey th3)).val

theorem exists_context3 (X : Suite) (pubkey th3 : Bytes32) :
    (context3Bytes X pubkey th3).length ≤ 96 ∧
      ∃ context3 : HVec 128, context3.toList = context3Bytes X pubkey th3 ∧
        buildContext3 (idCredBytes X pubkey) th3 (credentialBytes pubkey) =
          .ok context3 := by
  have hlength : (context3Bytes X pubkey th3).length ≤ 96 := by
    simp only [context3Bytes, contextBytes, List.length_append, length_bstr32,
      length_idCredBytes, length_credentialBytes]
    decide
  obtain ⟨context3, hcontext, hbytes⟩ :=
    exists_extendErr_empty (N := 128) (le_trans hlength (by decide))
  exact ⟨hlength, context3, hbytes, (appendContext_eq _ _ _ _).trans hcontext⟩

/-- An initiator can always sign message 3. -/
theorem exists_signMessage3 (X : Suite) (privkey pubkey prk4e3m th3 : Bytes32) :
    ∃ signed, signMessage3 X privkey pubkey prk4e3m th3 = .ok signed ∧
      signed.credential.toList = credentialBytes pubkey ∧
      signed.plaintext.toList =
        message3Plaintext X privkey pubkey prk4e3m th3 ∧
      signed.queries = signQueries X privkey pubkey prk4e3m th3 labelMac3
        (context3Bytes X pubkey th3) := by
  obtain ⟨credentialI, hcred, hcredBytes⟩ :=
    exists_encodeCredential (N := 80) pubkey (by decide)
  obtain ⟨idCredI, hid, hidBytes⟩ :=
    exists_encodeIdCred (N := 40) X pubkey (by decide)
  have hidLen := length_idCredBytes (X := X) pubkey
  obtain ⟨hlength, context3, hcontextBytes, hcontext⟩ :=
    exists_context3 X pubkey th3
  obtain ⟨m3, hm3, hm3Bytes⟩ := exists_signedBytes X pubkey prk4e3m th3
    labelMac3 (context3Bytes X pubkey th3)
  obtain ⟨plaintext3, hplain, hplainBytes⟩ := exists_signedPlaintext
    (idCredBytes X pubkey) (le_of_eq_of_le hidLen (by decide))
    (ownSignature X privkey pubkey prk4e3m th3 labelMac3
      (context3Bytes X pubkey th3))
  refine ⟨⟨credentialI, plaintext3, _⟩, ?_, hcredBytes, hplainBytes, rfl⟩
  rw [signMessage3, hcred, Outcome.ok_bind, hid, Outcome.ok_bind, hidBytes,
    hcredBytes, hcontext, Outcome.ok_bind, hcontextBytes,
    edhocKdf_of_le (by decide) (by decide) hlength, Outcome.ok_bind, hm3,
    Outcome.ok_bind, hm3Bytes, ← ownSignature]
  simp only [encodeBstr, writeBstr_eq (bstrMax_of_signature _),
    extendErr_bind, hplain]
  rfl

theorem sealMessage3_meets (prk3e2m th3 : Bytes32) (data3 : HVec 128) :
    (sealMessage3 X prk3e2m th3 data3).Meets fun _ => True := by
  obtain ⟨keys, hkeys⟩ := exists_message3Keys X prk3e2m th3
  obtain ⟨a3, ha3⟩ := exists_buildA3 th3
  rw [sealMessage3, hkeys, Outcome.ok_bind, ha3]
  exact (Outcome.Meets.okOr _ _).bind fun sealed _ =>
    (extendErr_meets _ _).mono fun _ _ => trivial

namespace EdhocInitiator

/-- `new` and `new_with_rng`; `eph_seed` is what the generator returns. -/
def new (X : Suite) (seed ephSeed : Bytes32) (cI : ConnectionId) :
    EdhocInitiator where
  toEndpoint := .new X seed ephSeed
  cI
  gY := zeros 32
  cR := HVec.empty

def wipe (self : EdhocInitiator) (lifecycle : Lifecycle) : EdhocInitiator :=
  { self with toEndpoint := self.toEndpoint.wipe lifecycle, gY := zeros 32 }

def poison (self : EdhocInitiator) : EdhocInitiator := self.wipe .failed

def zeroize (self : EdhocInitiator) : EdhocInitiator := self.wipe .zeroized

def createMessage1 : Call EdhocInitiator EdhocError (HVec 64) := do
  let self ← get
  check (failIf (self.lifecycle ≠ .created) .invalidState)
  let msg1 ← check (buildMessage1 self.ephPublic self.cI)
  modify fun self => { self with msg1, lifecycle := .message1Created }
  return msg1

/-- What `begin_process_message_2` does behind the agreement. -/
def openMessage2 (X : Suite) (gXy : Bytes32) (ciphertext2 : Bytes) :
    Call EdhocInitiator EdhocError (PendingMessage2 X) := do
  let self ← get
  check (failIf (gXy = zeros 32) .invalidMessage)
  let th2 ← check (transcript2 X self.gY.val self.msg1.toList)
  let prk2e := hkdfExtract X th2.val gXy.val
  modify fun self => { self with
    th2
    prk2e
    asked := .hashed (th2Bytes X self.gY self.msg1.toList) ::
      .hashed self.msg1.toList :: self.asked }
  let plaintext2 ← check (xorKeystream2 X prk2e th2 ciphertext2)
  modify fun self => { self with prk3e2m := self.prk2e }
  let pending ← check (parseMessage2 X self.cI th2 plaintext2)
  modify fun self => { self with lifecycle := .pendingMessage2 }
  return pending

/-- Decrypt and parse message 2 so that the application can select a
credential. -/
def beginProcessMessage2 (X : Suite) (msg2 : Bytes) :
    Call EdhocInitiator EdhocError (PendingMessage2 X) := do
  let self ← get
  check (failIf (self.lifecycle ≠ .message1Created ∨ self.ephSecret = none)
    .invalidState)
  if msg2.head? = some 2 then
    modify poison
    throw (.err (errorMessage2 msg2))
  else
    let (gY, ciphertext2) ← check (splitMessage2 X msg2)
    let ephSecret ← check (okOr self.ephSecret .invalidState)
    let gXy := X.diffieHellman ephSecret gY
    modify fun self => { self with
      ephSecret := none
      gY
      asked := .agreed gY :: self.asked }
    onErr poison (openMessage2 X gXy ciphertext2)

/-- What `finish_process_message_2` does behind its checks of the pending
value. -/
def createMessage3 (X : Suite) (pending : PendingMessage2 X)
    (peer : PeerCredential) : Call EdhocInitiator EdhocError (HVec 128) := do
  let self ← get
  let verified ← check (checkMessage2 X self.prk3e2m self.th2 pending peer)
  modify fun self => { self with
    cR := pending.cR
    asked := verified ++ self.asked }
  let th3 ← check (transcript3 X self.th2 pending.plaintext.toList
    peer.credential)
  let prk4e3m := self.prk3e2m
  modify fun self => { self with
    th3
    prk4e3m
    asked := .hashed (thBytes self.th2 pending.plaintext.toList
      peer.credential) :: self.asked }
  let signed ← check (signMessage3 X self.privkey self.pubkey prk4e3m th3)
  let ciphertext3 ← check (sealMessage3 X self.prk3e2m th3 signed.plaintext)
  let th4 ← check (transcript4 X th3 signed.plaintext.toList
    signed.credential.toList)
  modify fun self => { self with
    th4
    completed := true
    lifecycle := .complete
    asked := .hashed (thBytes th3 signed.plaintext.toList
      signed.credential.toList) :: (signed.queries ++ self.asked) }
  check (encodeBstr HVec.empty ciphertext3.toList)

/-- Verify a pending message 2 and create message 3. -/
def finishProcessMessage2 (X : Suite) (pending : PendingMessage2 X)
    (peer : PeerCredential) : Call EdhocInitiator EdhocError (HVec 128) := do
  let self ← get
  check (failIf (self.lifecycle ≠ .pendingMessage2 ∨
    pending.transcriptBinding ≠ self.th2) .invalidState)
  check (failIf (peer.idCred ≠ pending.idCred.encoded.toList)
    .signatureVerification)
  onErr poison (createMessage3 X pending peer)

def processMessage2WithCredential (X : Suite) (msg2 : Bytes)
    (peer : PeerCredential) : Call EdhocInitiator EdhocError (HVec 128) := do
  let pending ← beginProcessMessage2 X msg2
  finishProcessMessage2 X pending peer

/-- Process message 2 under a raw public key and create message 3. -/
def processMessage2 (X : Suite) (msg2 : Bytes) (peerPubkey : Bytes32) :
    Call EdhocInitiator EdhocError (HVec 128) := do
  let (idCred, credential) ← check (rawKeyCredential X peerPubkey)
  processMessage2WithCredential X msg2
    ⟨peerPubkey, idCred.toList, credential.toList⟩

/-- Export the OSCORE security context: `C_R` is the sender ID. -/
def exportOscore (X : Suite) (self : EdhocInitiator) :
    Outcome OscoreError (Context X.toCrypto) := do
  failIf (self.completed = false ∨ self.prk4e3m = zeros 32) .noContext
  exportContext X self.prk4e3m self.th4 self.cR.toList self.cI.toList

theorem processMessage2_eq {idCred : HVec 40} {credential : HVec 80}
    {peerPubkey : Bytes32}
    (hraw : rawKeyCredential X peerPubkey = .ok (idCred, credential))
    (msg2 : Bytes) :
    processMessage2 X msg2 peerPubkey = processMessage2WithCredential X msg2
      ⟨peerPubkey, idCred.toList, credential.toList⟩ := by
  rw [processMessage2, hraw]
  rfl

/-! What the calls do. -/

/-- Message 1 as the initiator sends it. -/
def message1Bytes (ephPublic : Bytes32) (cI : ConnectionId) : Bytes :=
  [0, suite0] ++ (Cbor.bstr ephPublic.val ++ identifier cI.toList)

theorem exists_buildMessage1 (ephPublic : Bytes32) (cI : ConnectionId) :
    ∃ msg1, buildMessage1 ephPublic cI = .ok msg1 ∧
      msg1.toList = message1Bytes ephPublic cI := by
  have hid := length_identifier_le cI
  simp only [buildMessage1, pushErr, encodeBstr,
    writeBstr_eq (bstrMax_of_block (by decide) ephPublic),
    encodeIdentifier_eq, extendErr_extendErr]
  refine exists_extendErr_empty ?_
  simp only [List.length_append, length_bstr32, List.length_cons,
    List.length_nil]
  omega

theorem createMessage1_meets (self : EdhocInitiator) :
    createMessage1.Meets self
      (fun msg1 t => self.lifecycle = .created ∧
        msg1.toList = message1Bytes self.ephPublic self.cI ∧
        t = { self with msg1, lifecycle := .message1Created })
      (· = self) := by
  obtain ⟨msg1, hbuild, hbytes⟩ := exists_buildMessage1 self.ephPublic self.cI
  refine Meets.get_bind (Meets.failIf_bind rfl fun hcreated => ?_)
  rw [hbuild]
  exact Meets.ok_bind ⟨not_not.mp hcreated, hbytes, rfl⟩

/-- The state behind the agreement, once message 2 is open. -/
def opened (X : Suite) (self : EdhocInitiator) (gXy : Bytes32) :
    EdhocInitiator :=
  let input := th2Bytes X self.gY self.msg1.toList
  let prk2e := hkdfExtract X (computeTh X input).val gXy.val
  { self with
    th2 := computeTh X input
    prk2e
    prk3e2m := prk2e
    lifecycle := .pendingMessage2
    asked := .hashed input :: .hashed self.msg1.toList :: self.asked }

theorem openMessage2_meets (self : EdhocInitiator) (gXy : Bytes32)
    (ciphertext2 : Bytes) :
    (openMessage2 X gXy ciphertext2).Meets self
      (fun pending t => gXy ≠ zeros 32 ∧ pending.cR ≠ self.cI ∧
        pending.transcriptBinding = t.th2 ∧ t = self.opened X gXy)
      (fun t => t.agreements = self.agreements) := by
  refine Meets.get_bind (Meets.failIf_bind rfl fun hnonzero => ?_)
  rw [transcript2_eq]
  refine Meets.ok_bind (Meets.modify_bind ?_)
  refine Meets.check_bind (xorKeystream2_meets _ _ _) rfl fun _ _ => ?_
  refine Meets.modify_bind ?_
  refine Meets.check_bind (parseMessage2_meets _ _ _) rfl fun pending h => ?_
  exact ⟨hnonzero, h.2.1, h.1, rfl⟩

/-- The state with the ephemeral secret spent on a peer key. -/
def agreed (self : EdhocInitiator) (gY : Bytes32) : EdhocInitiator :=
  { self with ephSecret := none, gY, asked := .agreed gY :: self.asked }

/-- Beginning message 2 fails without a trace, or poisons: on an error message,
or once the ephemeral secret is spent. -/
theorem beginProcessMessage2_meets (self : EdhocInitiator) (msg2 : Bytes) :
    (beginProcessMessage2 X msg2).Meets self
      (fun pending t => ∃ ephSecret gY,
        self.lifecycle = .message1Created ∧ self.ephSecret = some ephSecret ∧
        pending.cR ≠ self.cI ∧ pending.transcriptBinding = t.th2 ∧
        t = (self.agreed gY).opened X (X.diffieHellman ephSecret gY))
      (fun t => t = self ∨ self.lifecycle = .message1Created ∧
        self.Poisoned t.toEndpoint ∧
        (msg2.head? = some 2 ∨ t.agreements = self.agreements + 1)) := by
  refine Meets.get_bind (Meets.failIf_bind (.inl rfl) fun hguard => ?_)
  have hlifecycle := not_not.mp (not_or.mp hguard).1
  refine Meets.ite (fun herror => ?_) fun _ => ?_
  · refine Meets.modify_bind (Meets.throw _
      (.inr ⟨hlifecycle, ?_, .inl herror⟩))
    exact Endpoint.poisoned_wipe (Nat.le_add_right _ _)
  refine Meets.check_bind (splitMessage2_meets msg2) (.inl rfl) ?_
  rintro ⟨gY, ciphertext2⟩ -
  refine Meets.check_bind (.okOr _ _) (.inl rfl) fun ephSecret hsome => ?_
  refine Meets.modify_bind ?_
  have hasked : (self.agreed gY).agreements = self.agreements + 1 := rfl
  refine Meets.onErr ((openMessage2_meets (self.agreed gY) _ _).mono ?_
    fun _ h => h) fun t ht =>
      .inr ⟨hlifecycle, Endpoint.poisoned_wipe ?_, .inr ?_⟩
  · rintro pending t ⟨-, hne, hbinding, rfl⟩
    exact ⟨ephSecret, gY, hlifecycle, hsome, hne, hbinding, rfl⟩
  · rw [ht, Endpoint.budget_of_some hsome]
    exact le_of_eq hasked
  · exact ht.trans hasked

/-- The state once message 3 is made for a verified pending value. -/
def finished (X : Suite) (self : EdhocInitiator)
    (pending : PendingMessage2 X) (peer : PeerCredential)
    (verified : List Query) : EdhocInitiator :=
  let input3 := thBytes self.th2 pending.plaintext.toList peer.credential
  let th3 := computeTh X input3
  let input4 := thBytes th3
    (message3Plaintext X self.privkey self.pubkey self.prk3e2m th3)
    (credentialBytes self.pubkey)
  { self with
    cR := pending.cR
    prk4e3m := self.prk3e2m
    th3
    th4 := computeTh X input4
    completed := true
    lifecycle := .complete
    asked := .hashed input4 :: (signQueries X self.privkey self.pubkey
      self.prk3e2m th3 labelMac3 (context3Bytes X self.pubkey th3) ++
        .hashed input3 :: (verified ++ self.asked)) }

theorem createMessage3_meets (self : EdhocInitiator)
    (pending : PendingMessage2 X) (peer : PeerCredential) :
    (createMessage3 X pending peer).Meets self
      (fun _ t => ∃ verified, Checked2 X self.prk3e2m self.th2 pending peer
        verified ∧ t = self.finished X pending peer verified)
      (fun t => t.agreements = self.agreements) := by
  refine Meets.get_bind ?_
  refine Meets.check_bind (checkMessage2_meets _ _ _ _) rfl ?_
  rintro _ ⟨context2, signature2, hcontext, hlength, hverified, rfl⟩
  refine Meets.modify_bind ?_
  refine Meets.check_bind (transcript_meets _ _ _) rfl ?_
  rintro _ rfl
  refine Meets.modify_bind ?_
  obtain ⟨⟨credentialI, plaintext3, _⟩, hsign, hcred, hplain, rfl⟩ :=
    exists_signMessage3 X self.privkey self.pubkey self.prk3e2m
      (computeTh X (thBytes self.th2 pending.plaintext.toList
        peer.credential))
  rw [hsign]
  refine Meets.ok_bind ?_
  refine Meets.check_bind (sealMessage3_meets _ _ _) rfl fun sealed _ => ?_
  refine Meets.check_bind (transcript_meets _ _ _) rfl ?_
  rintro _ rfl
  refine Meets.modify_bind ?_
  refine Meets.check (writeBstr_meets _ _) rfl fun msg3 _ => ?_
  refine ⟨_, ⟨context2, signature2, hcontext, hlength, hverified, rfl⟩, ?_⟩
  rw [hplain, hcred]
  rfl

/-- What finishing message 2 has established when it returns. -/
def Finishes (X : Suite) (self : EdhocInitiator)
    (pending : PendingMessage2 X) (peer : PeerCredential)
    (other : EdhocInitiator) : Prop :=
  self.lifecycle = .pendingMessage2 ∧
    pending.transcriptBinding = self.th2 ∧
    peer.idCred = pending.idCred.encoded.toList ∧
    ∃ verified, Checked2 X self.prk3e2m self.th2 pending peer verified ∧
      other = self.finished X pending peer verified

/-- Finishing message 2 fails without a trace, or poisons. -/
theorem finishProcessMessage2_meets (self : EdhocInitiator)
    (pending : PendingMessage2 X) (peer : PeerCredential) :
    (finishProcessMessage2 X pending peer).Meets self
      (fun _ t => self.Finishes X pending peer t)
      (fun t => t = self ∨ self.lifecycle = .pendingMessage2 ∧
        self.Poisoned t.toEndpoint) := by
  refine Meets.get_bind (Meets.failIf_bind (.inl rfl) fun hguard => ?_)
  obtain ⟨hlifecycle, hbinding⟩ := not_or.mp hguard
  refine Meets.failIf_bind (.inl rfl) fun hid => ?_
  refine Meets.onErr ((createMessage3_meets self pending peer).mono ?_
    fun _ h => h) fun t ht => .inr ⟨not_not.mp hlifecycle, ?_⟩
  · intro msg3 t h
    exact ⟨not_not.mp hlifecycle, not_not.mp hbinding, not_not.mp hid, h⟩
  · exact Endpoint.poisoned_wipe (ht ▸ Nat.le_add_right _ _)

end EdhocInitiator

end Oscore.Edhoc
