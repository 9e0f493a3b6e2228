/-
Authentication among any number of sessions of both roles, whose messages and
calls the attacker chooses.  A signature that verifies leads to the session that
made it, and to the moment when it did.
-/
import Oscore.Edhoc.Signing

namespace Oscore.Edhoc

open Rust Rust.Call

variable {X : Suite}

/-! Ideal primitives. -/

/-- The signature that verified under the key was made by a session that holds
the key, if any does. -/
def Query.Genuine (world : List (Session X)) : Query → Prop
  | .verified publicKey message _ =>
      (∃ owner ∈ world, owner.state.pubkey = publicKey) →
        ∃ signer ∈ world, signer.state.pubkey = publicKey ∧
          signer.state.HasSigned message
  | _ => True

def Query.Signs (message : Bytes) : Query → Prop
  | .signed message' _ => message' = message
  | _ => False

instance (message : Bytes) : DecidablePred (Query.Signs message)
  | .signed _ _ => inferInstanceAs (Decidable (_ = _))
  | .agreed _ | .hashed _ | .expanded _ _ | .verified _ _ _ =>
      inferInstanceAs (Decidable False)

theorem hasSigned_iff {endpoint : Endpoint} {message : Bytes} :
    endpoint.HasSigned message ↔
      ∃ query ∈ endpoint.asked, query.Signs message := by
  constructor
  · rintro ⟨signature, hmem⟩
    exact ⟨_, hmem, rfl⟩
  · rintro ⟨query, hmem, hsigns⟩
    cases query with
    | signed message' signature => exact ⟨signature, hsigns ▸ hmem⟩
    | _ => exact hsigns.elim

instance (endpoint : Endpoint) (message : Bytes) :
    Decidable (endpoint.HasSigned message) :=
  decidable_of_iff' _ hasSigned_iff

instance (world : List (Session X)) : DecidablePred (Query.Genuine world)
  | .verified _ _ _ => inferInstanceAs (Decidable (_ → _))
  | .agreed _ | .hashed _ | .expanded _ _ | .signed _ _ =>
      inferInstanceAs (Decidable True)

/-- What is assumed of the primitives, over all that the sessions did. -/
structure Ideal (world : List (Session X)) : Prop where
  free : CollisionFree X (world.flatMap fun session => session.state.asked)
  genuine : ∀ verifier ∈ world, ∀ query ∈ verifier.state.asked,
    query.Genuine world
  bound : ∀ verifier ∈ world, ∀ signer ∈ world,
    Unforged X signer.state.pubkey verifier.state.asked signer.state.asked

theorem CollisionFree.mono {asked asked' : List Query}
    (h : CollisionFree X asked) (hle : asked' ⊆ asked) :
    CollisionFree X asked' :=
  fun query hquery query' hquery' => h query (hle hquery) query' (hle hquery')

theorem Ideal.asked_subset {world : List (Session X)} {session : Session X}
    (h : session ∈ world) :
    session.state.asked ⊆ world.flatMap fun session => session.state.asked :=
  fun _ hquery => List.mem_flatMap.mpr ⟨session, h, hquery⟩

/-- What two parties of the sessions did is free of collisions. -/
theorem Ideal.free_append {world : List (Session X)} (h : Ideal world)
    {asked asked' : List Query} {session session' : Session X}
    (hsession : session ∈ world) (hsession' : session' ∈ world)
    (hle : asked ⊆ session.state.asked) (hle' : asked' ⊆ session'.state.asked) :
    CollisionFree X (asked ++ asked') :=
  h.free.mono (List.append_subset.mpr
    ⟨List.Subset.trans hle (Ideal.asked_subset hsession),
      List.Subset.trans hle' (Ideal.asked_subset hsession')⟩)

/-- A MAC that is signed twice is the MAC of one key, one label and one
context. -/
theorem fields_of_signedBytes {asked asked' : List Query}
    (hfree : CollisionFree X (asked ++ asked'))
    {prk prk' th th' pubkey : Bytes32} {label label' : Nat}
    {idCred cred context context' : Bytes} (hid : idCred.length ≤ Cbor.bstrMax)
    (hcred : cred.length ≤ 255) (hlabel : label ≤ 0xffff)
    (hlabel' : label' ≤ 0xffff) (hcontext : context.length ≤ 255)
    (hcontext' : context'.length ≤ 255)
    (hin : .expanded prk (kdfInfo label context 32) ∈ asked)
    (hin' : .expanded prk' (kdfInfo label' context' 32) ∈ asked')
    (h : signatureBytes idCred th cred
        (X.hkdfExpand prk (kdfInfo label context 32) 32).val =
      signedBytes X pubkey prk' th' label' context') :
    idCred = idCredBytes X pubkey ∧ th = th' ∧ cred = credentialBytes pubkey ∧
      prk = prk' ∧ label = label' ∧ context = context' := by
  have hown : (idCredBytes X pubkey).length ≤ Cbor.bstrMax :=
    le_of_eq_of_le (length_idCredBytes pubkey) (by decide)
  have hsignable : Signable th cred := by
    rw [Signable, List.length_append, length_bstr32]
    exact le_trans (Nat.add_le_add_left hcred _) (by decide)
  have hsignable' : Signable th' (credentialBytes pubkey) := by
    rw [Signable, List.length_append, length_bstr32, length_credentialBytes]
    decide
  rw [signedBytes] at h
  obtain ⟨hidCred, hth, hcredEq, hmac⟩ :=
    signatureBytes_injective hid hown hsignable hsignable'
      (bstrMax_of_block (by decide) _) (bstrMax_of_block (by decide) _) h
  obtain ⟨hprk, hinfo⟩ := hfree.expanded (List.mem_append_left _ hin)
    (List.mem_append_right _ hin') (Subtype.ext hmac)
  obtain ⟨hlabelEq, hcontextEq, -⟩ := kdfInfo_injective hlabel hlabel'
    (le_trans hcontext (by decide)) (le_trans hcontext' (by decide))
    (by decide) (by decide) hinfo
  exact ⟨hidCred, hth, hcredEq, hprk, hlabelEq, hcontextEq⟩

/-! Completed sessions. -/

/-- The operation completes the session: it verifies this pending message 2
under this credential, and returns message 3. -/
def EdhocInitiator.CompletesWith (X : Suite) (self : EdhocInitiator)
    (op : EdhocInitiator.Op X) (pending : PendingMessage2 X)
    (peer : PeerCredential) : Prop :=
  ∃ before msg3, self.Runs op pending peer before ∧
    (EdhocInitiator.finishProcessMessage2 X pending peer).run before =
      .ok msg3 (self.step X op)

/-- The operation completes the session: it verifies this pending message 3
under this credential. -/
def EdhocResponder.CompletesWith (X : Suite) (self : EdhocResponder)
    (op : EdhocResponder.Op X) (pending : PendingMessage3 X)
    (peer : PeerCredential) : Prop :=
  ∃ before, self.Runs op pending peer before ∧
    (EdhocResponder.finishProcessMessage3 X pending peer).run before =
      .ok () (self.step X op)

/-- A finishing call that returns completes the session. -/
theorem EdhocInitiator.completesWith_of_outcome {self : EdhocInitiator}
    {pending : PendingMessage2 X} {peer : PeerCredential}
    (h : (outcome (EdhocInitiator.finishProcessMessage2 X pending peer)
      self).isOk = true) :
    self.CompletesWith X (.finishProcessMessage2 pending peer) pending peer := by
  rcases (finishProcessMessage2_meets self pending peer).ends with
    ⟨msg3, -, hrun, -⟩ | ⟨_, hfails, -⟩
  · exact ⟨self, msg3, .finish pending peer, hrun⟩
  · rw [hfails] at h
    cases h

theorem EdhocResponder.completesWith_of_outcome {self : EdhocResponder}
    {pending : PendingMessage3 X} {peer : PeerCredential}
    (h : (outcome (EdhocResponder.finishProcessMessage3 X pending peer)
      self).isOk = true) :
    self.CompletesWith X (.finishProcessMessage3 pending peer) pending peer := by
  rcases (finishProcessMessage3_meets self pending peer).ends with
    ⟨_, -, hrun, -⟩ | ⟨_, hfails, -⟩
  · exact ⟨self, .finish pending peer, hrun⟩
  · rw [hfails] at h
    cases h

theorem length_cred_le (head : Bytes) {idCred cred : Bytes} {th : Bytes32}
    (h : (head ++ contextBytes idCred th cred).length ≤ 255) :
    cred.length ≤ 255 := by
  simp only [contextBytes, List.length_append] at h
  omega

namespace EdhocInitiator

variable {self : EdhocInitiator} {op : Op X} {pending : PendingMessage2 X}
  {peer : PeerCredential}

theorem Runs.follows {before : EdhocInitiator}
    (h : self.Runs op pending peer before) (hfollows : self.Follows X) :
    before.Follows X := by
  cases h with
  | finish => exact hfollows
  | process _ hbegin =>
      exact (beginProcessMessage2_follows hfollows _).of_ok hbegin
  | processRaw _ hbegin =>
      exact (beginProcessMessage2_follows hfollows _).of_ok hbegin

/-- What a session is made from when it completes. -/
theorem CompletesWith.hasTh4 (h : self.CompletesWith X op pending peer)
    (hfollows : self.Follows X) :
    (self.step X op).HasTh4 X pending peer ∧
      pending.idCred.encoded.toList = peer.idCred := by
  obtain ⟨before, msg3, hruns, hfinish⟩ := h
  obtain ⟨hlifecycle, -, hid, verified, hchecked, hstep⟩ :=
    (finishProcessMessage2_meets before pending peer).of_ok hfinish
  have hth2 := (hruns.follows hfollows).opened hlifecycle
  exact ⟨hstep ▸ hasTh4_finished hth2 hchecked, hid.symm⟩

end EdhocInitiator

/-- The responder has made the message 2 that the initiator has verified, and
awaits message 3. -/
structure AnsweredBy (X : Suite) (initiator : EdhocInitiator)
    (pending : PendingMessage2 X) (peer : PeerCredential)
    (responder : EdhocResponder) : Prop where
  awaiting : responder.lifecycle = .awaitingMessage3
  pubkey : responder.pubkey = peer.publicKey
  credential : peer.credential = credentialBytes responder.pubkey
  msg1 : responder.msg1 = initiator.msg1
  gY : initiator.gY = responder.ephPublic
  th2 : initiator.th2 = responder.th2
  prk3e2m : initiator.prk3e2m = responder.prk3e2m
  cI : initiator.cI = responder.cI
  cR : initiator.cR = responder.cR
  th3_iff : initiator.th3 = responder.th3 ↔
    pending.plaintext.toList = message2Plaintext X responder.privkey
      responder.pubkey responder.prk3e2m responder.th2 responder.cR

/-- What an initiator has verified, for the context of its MAC. -/
def message2Signed (X : Suite) (initiator : EdhocInitiator)
    (pending : PendingMessage2 X) (peer : PeerCredential) (context2 : Bytes) :
    Bytes :=
  signatureBytes pending.idCred.encoded.toList initiator.th2 peer.credential
    (X.hkdfExpand initiator.prk3e2m (kdfInfo labelMac2 context2 32) 32).val

theorem EdhocInitiator.HasTh4.exists_verified {initiator : EdhocInitiator}
    {pending : PendingMessage2 X} {peer : PeerCredential}
    (h : initiator.HasTh4 X pending peer) :
    ∃ context2 signature, context2 = identifier pending.cR.toList ++
        contextBytes pending.idCred.encoded.toList initiator.th2
          peer.credential ∧
      context2.length ≤ 255 ∧
      .expanded initiator.prk3e2m (kdfInfo labelMac2 context2 32) ∈
        initiator.asked ∧
      .verified peer.publicKey
          (message2Signed X initiator pending peer context2) signature ∈
        initiator.asked := by
  obtain ⟨verified, ⟨context2, signature, hcontext, hlength, -, rfl⟩, hasked⟩ :=
    h.checked
  exact ⟨context2, signature.val, hcontext, hlength,
    hasked (List.mem_cons_of_mem _ List.mem_cons_self),
    hasked List.mem_cons_self⟩

/-- A responder that has signed what the initiator verifies shares all that the
session is made from. -/
theorem answeredBy_of_signed2 {initiator : EdhocInitiator}
    {responder : EdhocResponder} {pending : PendingMessage2 X}
    {peer : PeerCredential} {context2 : Bytes}
    (hI : initiator.HasTh4 X pending peer)
    (hcontext : context2 = identifier pending.cR.toList ++
      contextBytes pending.idCred.encoded.toList initiator.th2 peer.credential)
    (hlength : context2.length ≤ 255)
    (hin : .expanded initiator.prk3e2m (kdfInfo labelMac2 context2 32) ∈
      initiator.asked)
    (hR : responder.Signed2 X (message2Signed X initiator pending peer context2))
    (hpubkey : responder.pubkey = peer.publicKey)
    (hfree : CollisionFree X (initiator.asked ++ responder.asked)) :
    AnsweredBy X initiator pending peer responder := by
  have hid : pending.idCred.encoded.toList.length ≤ Cbor.bstrMax :=
    le_trans pending.idCred.encoded.length_le (by decide)
  have hown := (exists_context2 X responder.cR responder.pubkey
    responder.th2).1
  obtain ⟨hidCred, hth2, hcred, hprk, -, hcontexts⟩ :=
    fields_of_signedBytes hfree hid (length_cred_le _ (hcontext ▸ hlength))
      (by decide) (by decide) hlength (le_trans hown (by decide)) hin
      (hR.signed (List.mem_cons_of_mem _ List.mem_cons_self)) hR.message_eq
  -- The context of the MAC holds the identifier of the responder.
  have hcR : pending.cR = responder.cR := by
    rw [hcontext, hidCred, hth2, hcred, context2Bytes] at hcontexts
    exact HVec.ext (identifier_injective pending.cR.length_le
      responder.cR.length_le (List.append_cancel_right hcontexts))
  -- `TH_2` determines message 1 and the ephemeral key of the responder.
  have hinput2 := hI.th2.input_eq (hth2 ▸ hR.th2) hfree
  obtain ⟨hgY, hhash⟩ := th2Bytes_injective hinput2
  have hmsg1 : initiator.msg1.toList = responder.msg1.toList :=
    hfree.hashed (List.mem_append_left _ hI.sent)
      (List.mem_append_right _ hR.got) hhash
  obtain ⟨gX, start, cI, hgX, hcI, hread⟩ := hR.read
  rw [← hmsg1, hI.msg1] at hgX hcI
  refine ⟨hR.awaiting, hpubkey, hcred, HVec.ext hmsg1.symm, hgY, hth2, hprk,
    ?_, hI.cR.trans hcR, ?_⟩
  · rw [hread]
    exact cI_of_message1Bytes hgX hcI
  · constructor
    · intro hth3
      have hmax := length_message2Plaintext_le (X := X) responder.privkey
        responder.pubkey responder.prk3e2m responder.th2 responder.cR
      have hinput3 := hI.th3.input_eq (hth3 ▸ hR.th3) hfree
      exact (thBytes_injective (plaintext_le pending.plaintext)
        (le_trans hmax (by decide)) hinput3).2.1
    · intro hplain
      rw [hI.th3.1, hR.th3.1, hplain, hth2, hcred]

/-- An initiator signs another MAC than the one of message 2. -/
theorem not_signed3 {initiator signer : EdhocInitiator}
    {pending : PendingMessage2 X} {peer : PeerCredential} {context2 : Bytes}
    (hcontext : context2 = identifier pending.cR.toList ++
      contextBytes pending.idCred.encoded.toList initiator.th2 peer.credential)
    (hlength : context2.length ≤ 255)
    (hin : .expanded initiator.prk3e2m (kdfInfo labelMac2 context2 32) ∈
      initiator.asked)
    (hfree : CollisionFree X (initiator.asked ++ signer.asked)) :
    ¬ signer.Signed3 X (message2Signed X initiator pending peer context2) := by
  intro h
  have hid : pending.idCred.encoded.toList.length ≤ Cbor.bstrMax :=
    le_trans pending.idCred.encoded.length_le (by decide)
  have hown := (exists_context3 X signer.pubkey signer.th3).1
  obtain ⟨-, -, -, -, hlabel, -⟩ :=
    fields_of_signedBytes hfree hid (length_cred_le _ (hcontext ▸ hlength))
      (by decide) (by decide) hlength (le_trans hown (by decide)) hin
      h.expanded h.message_eq
  exact absurd hlabel (by decide)

/-- Message 3 of the stand-in handshake, as the responder opens it. -/
def standInPending3 : PendingMessage3 .standIn :=
  (outcome (EdhocResponder.beginProcessMessage3 .standIn
    standInMessages.2.2.toList)
    (standInParties.2.step .standIn
      (.processMessage1 standInMessages.1.toList))).toOption.get (by
        decide +kernel)

/-- The two sessions of the stand-in handshake. -/
def standInWorld : List (Session .standIn) :=
  [.initiator (Crypto.blockOfNat 32 1) (Crypto.blockOfNat 32 2) (.ofByte 0)
      ([.createMessage1, .beginProcessMessage2 standInMessages.2.1.toList] ++
        [.finishProcessMessage2 standInPending2
          (.raw .standIn standInParties.2.pubkey)]),
    .responder (Crypto.blockOfNat 32 3) (Crypto.blockOfNat 32 4) 1
      ([.processMessage1 standInMessages.1.toList,
        .beginProcessMessage3 standInMessages.2.2.toList] ++
        [.finishProcessMessage3 standInPending3
          (.raw .standIn standInParties.1.pubkey)])]

theorem standInWorld_ideal : Ideal standInWorld :=
  ⟨by decide +kernel, by decide +kernel, by decide +kernel⟩

namespace EdhocResponder

variable {self : EdhocResponder} {op : Op X} {pending : PendingMessage3 X}
  {peer : PeerCredential}

theorem Runs.follows {before : EdhocResponder}
    (h : self.Runs op pending peer before) (hfollows : self.Follows X) :
    before.Follows X := by
  cases h with
  | finish => exact hfollows
  | process _ hbegin =>
      exact (beginProcessMessage3_follows hfollows _).of_ok hbegin
  | processRaw _ hbegin =>
      exact (beginProcessMessage3_follows hfollows _).of_ok hbegin

/-- What a responder has verified, for the context of its MAC. -/
def message3Signed (X : Suite) (responder : EdhocResponder)
    (pending : PendingMessage3 X) (peer : PeerCredential) : Bytes :=
  signatureBytes pending.idCred.encoded.toList responder.th3 peer.credential
    (X.hkdfExpand responder.prk4e3m (kdfInfo labelMac3 (contextBytes
      pending.idCred.encoded.toList responder.th3 peer.credential) 32) 32).val

/-- The session has verified this pending message 3 under this credential. -/
structure HasVerified (X : Suite) (responder : EdhocResponder)
    (pending : PendingMessage3 X) (peer : PeerCredential) : Prop where
  th4 : responder.Hashed X responder.th4
    (thBytes responder.th3 pending.plaintext.toList peer.credential)
  length_le : (contextBytes pending.idCred.encoded.toList responder.th3
    peer.credential).length ≤ 255
  expanded : .expanded responder.prk4e3m (kdfInfo labelMac3 (contextBytes
    pending.idCred.encoded.toList responder.th3 peer.credential) 32) ∈
      responder.asked
  verified : ∃ signature, .verified peer.publicKey
    (message3Signed X responder pending peer) signature ∈ responder.asked

theorem hasVerified_finished {verified : List Query}
    (h : Checked3 X self.prk3e2m self.th3 pending peer verified) :
    (self.finished X pending peer verified).HasVerified X pending peer := by
  obtain ⟨context3, signature, rfl, hlength, -, rfl⟩ := h
  exact ⟨⟨rfl, List.mem_cons_self⟩, hlength, by simp [finished],
    signature.val, by simp [finished, message3Signed]⟩

/-- What a session is made from when it completes. -/
theorem CompletesWith.hasTh4 (h : self.CompletesWith X op pending peer)
    (hfollows : self.Follows X) :
    (∃ msg1, (self.step X op).HasTh4 X msg1) ∧
      (self.step X op).HasVerified X pending peer := by
  obtain ⟨before, hruns, hfinish⟩ := h
  obtain ⟨hlifecycle, -, -, verified, hchecked, hstep⟩ :=
    (finishProcessMessage3_meets before pending peer).of_ok hfinish
  obtain ⟨msg1, hth3⟩ := (hruns.follows hfollows).answered (Or.inr hlifecycle)
  rw [hstep]
  exact ⟨⟨msg1, hasTh4_finished hth3⟩, hasVerified_finished hchecked⟩

end EdhocResponder

/-- The initiator has completed the session by the message 3 that the responder
has verified, and both export the same context if they have the same `TH_4`. -/
structure ConfirmedBy (X : Suite) (responder : EdhocResponder)
    (pending : PendingMessage3 X) (peer : PeerCredential)
    (initiator : EdhocInitiator) : Prop where
  complete : initiator.lifecycle = .complete
  pubkey : initiator.pubkey = peer.publicKey
  credential : peer.credential = credentialBytes initiator.pubkey
  gY : initiator.gY = responder.ephPublic
  th3 : initiator.th3 = responder.th3
  prk4e3m : initiator.prk4e3m = responder.prk4e3m
  cI : initiator.cI = responder.cI
  cR : initiator.cR = responder.cR
  th4_iff : initiator.th4 = responder.th4 ↔
    pending.plaintext.toList = message3Plaintext X initiator.privkey
      initiator.pubkey initiator.prk4e3m initiator.th3
  exports : initiator.th4 = responder.th4 → ExportsMirror X initiator responder

/-- An initiator that has signed what the responder verifies shares all that the
session is made from. -/
theorem confirmedBy_of_signed3 {responder : EdhocResponder}
    {initiator : EdhocInitiator} {pending : PendingMessage3 X}
    {pending2 : PendingMessage2 X} {peer peer2 : PeerCredential} {msg1 : Bytes}
    (hR : responder.HasTh4 X msg1)
    (hverified : responder.HasVerified X pending peer)
    (hI : initiator.HasTh4 X pending2 peer2)
    (hsigned : initiator.Signed3 X
      (EdhocResponder.message3Signed X responder pending peer))
    (hpubkey : initiator.pubkey = peer.publicKey)
    (hfree : CollisionFree X (initiator.asked ++ responder.asked))
    (hunforged : Unforged X responder.pubkey initiator.asked
      responder.asked) :
    ConfirmedBy X responder pending peer initiator := by
  have hid : pending.idCred.encoded.toList.length ≤ Cbor.bstrMax :=
    le_trans pending.idCred.encoded.length_le (by decide)
  have hown := (exists_context3 X initiator.pubkey initiator.th3).1
  have hswap : CollisionFree X (responder.asked ++ initiator.asked) :=
    hfree.mono (List.append_subset.mpr
      ⟨List.subset_append_right _ _, List.subset_append_left _ _⟩)
  obtain ⟨-, hth3, hcred, hprk, -, -⟩ :=
    fields_of_signedBytes hswap hid
      (length_cred_le [] hverified.length_le) (by decide) (by decide)
      hverified.length_le (le_trans hown (by decide)) hverified.expanded
      hsigned.expanded hsigned.message_eq
  obtain ⟨hgY, -, hcR, hcI⟩ :=
    session_eq_of_th3 hI hR.toHasTh3 hth3.symm hfree hunforged
  refine ⟨hsigned.complete, hpubkey, hcred, hgY, hth3.symm, hprk.symm, hcI,
    hcR, ?_, fun hth4 => ?_⟩
  · constructor
    · intro hth4
      have hmax := length_message3Plaintext_le (X := X) initiator.privkey
        initiator.pubkey initiator.prk4e3m initiator.th3
      have hinput4 := hsigned.th4.input_eq (hth4 ▸ hverified.th4) hfree
      exact (thBytes_injective (le_trans hmax (by decide))
        (plaintext_le pending.plaintext) hinput4).2.1.symm
    · intro hplain
      rw [hsigned.th4.1, hverified.th4.1, hplain, hth3, hcred]
  · exact exportsMirror hI.completed hR.completed hprk.symm hth4 hcR hcI
      hR.ids_ne

/-- A responder signs another MAC than the one of message 3. -/
theorem not_signed2 {responder signer : EdhocResponder}
    {pending : PendingMessage3 X} {peer : PeerCredential}
    (hverified : responder.HasVerified X pending peer)
    (hfree : CollisionFree X (responder.asked ++ signer.asked)) :
    ¬ signer.Signed2 X
      (EdhocResponder.message3Signed X responder pending peer) := by
  intro h
  have hid : pending.idCred.encoded.toList.length ≤ Cbor.bstrMax :=
    le_trans pending.idCred.encoded.length_le (by decide)
  have hown := (exists_context2 X signer.cR signer.pubkey signer.th2).1
  obtain ⟨-, -, -, -, hlabel, -⟩ :=
    fields_of_signedBytes hfree hid (length_cred_le [] hverified.length_le)
      (by decide) (by decide) hverified.length_le (le_trans hown (by decide))
      hverified.expanded
      (h.signed (List.mem_cons_of_mem _ List.mem_cons_self)) h.message_eq
  exact absurd hlabel (by decide)

theorem Unforged.mono {publicKey : Bytes32}
    {verified verified' signed : List Query}
    (h : Unforged X publicKey verified signed) (hle : verified' ⊆ verified) :
    Unforged X publicKey verified' signed :=
  fun query hquery => h query (hle hquery)

end Oscore.Edhoc
