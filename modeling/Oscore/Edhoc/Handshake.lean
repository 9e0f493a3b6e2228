/-
The undisturbed handshake.  It completes exactly for the connection identifiers
that the parsers read as the encoders wrote them.
-/
import Oscore.Edhoc.Delivery
import Oscore.Edhoc.Export
import Oscore.Edhoc.Operation

namespace Oscore.Edhoc

open Rust Rust.Call
open EdhocInitiator (message1Bytes)

variable {X : Suite}

/-- The message seals this plaintext under the keys of the endpoint. -/
def Seals (X : Suite) (endpoint : Endpoint) (plaintext msg2 : Bytes) : Prop :=
  ∃ ciphertext2 plaintext2 : HVec 128,
    msg2 = Cbor.bstr (endpoint.ephPublic.val ++ ciphertext2.toList) ∧
      ciphertext2.toList.length = plaintext2.toList.length ∧
      plaintext2.toList = plaintext ∧
      xorKeystream2 X endpoint.prk2e endpoint.th2 ciphertext2.toList =
        .ok plaintext2

namespace EdhocResponder

theorem createMessage2_returns (self : EdhocResponder) {gXy : Bytes32}
    (h : gXy ≠ zeros 32) (msg1 : Bytes) :
    (createMessage2 X gXy msg1).Returns self fun msg2 t =>
      t = self.answered X gXy msg1 ∧
        Seals X t.toEndpoint (message2Plaintext X self.privkey self.pubkey
          t.prk2e t.th2 self.cR) msg2.toList := by
  let th2 := computeTh X (th2Bytes X self.ephPublic msg1)
  let prk2e := hkdfExtract X th2.val gXy.val
  obtain ⟨⟨credentialR, plaintext2, _⟩, hsign, hcred, hplain, rfl⟩ :=
    exists_signMessage2 X self.privkey self.pubkey prk2e th2 self.cR
  have hlength := length_message2Plaintext_le (X := X) self.privkey
    self.pubkey prk2e th2 self.cR
  obtain ⟨ciphertext2, hseal, hsame, hopen⟩ :=
    exists_xorKeystream2 X prk2e th2 plaintext2
  simp only at hcred hplain
  obtain ⟨msg2, hmsg2, hbytes⟩ := exists_buildMessage2 self.ephPublic
    (le_of_eq_of_le hsame (hplain ▸ hlength))
  have hth3 := transcript_of_le (X := X) plaintext2.length_le
    (le_of_eq (hcred ▸ length_credentialBytes self.pubkey)) th2
  refine Meets.get_bind ?_
  rw [failIf_of_not _ h, transcript2_eq]
  refine Meets.ok_bind (Meets.ok_bind (Meets.modify_bind ?_))
  rw [hsign]
  refine Meets.ok_bind ?_
  rw [hseal]
  refine Meets.ok_bind ?_
  rw [transcript3, hth3]
  refine Meets.ok_bind (Meets.modify_bind ?_)
  rw [hmsg2]
  refine Meets.ok_bind ⟨?_, ciphertext2, plaintext2, hbytes, hsame, hplain, hopen⟩
  rw [hplain, hcred]
  rfl

theorem extendErr_empty_toList {N : Nat} (buf : HVec N) :
    extendErr HVec.empty buf.toList = .ok buf :=
  extendErr_eq_ok.mpr rfl

/-- Message 1 of an initiator whose identifier the responder can read. -/
theorem processMessage1_returns {self : EdhocResponder} {ephSecret gX : Bytes32}
    {cI : ConnectionId} {byte : UInt8} {msg1 : HVec 64}
    (hcreated : self.lifecycle = .created)
    (hsecret : self.ephSecret = some ephSecret)
    (hmsg1 : msg1.toList = message1Bytes gX cI) (hcI : cI.toList = [byte])
    (hbyte : ¬ Negative byte) (hne : self.cR.toList ≠ [byte])
    (hzero : X.diffieHellman ephSecret gX ≠ zeros 32) :
    (processMessage1 X msg1.toList).Returns self fun msg2 t =>
      t = (self.agreed msg1 gX byte).answered X
          (X.diffieHellman ephSecret gX) msg1.toList ∧
        Seals X t.toEndpoint (message2Plaintext X self.privkey self.pubkey
          t.prk2e t.th2 self.cR) msg2.toList := by
  have hparsed := parseGX_message1Bytes gX cI
  have hrest : sliceFrom (message1Bytes gX cI) 36 =
      (.ok (identifier cI.toList) : Outcome EdhocError Bytes) := by
    rw [sliceFrom_of_le, message1Bytes_drop]
    rw [message1Bytes_eq]
    simp [gX.property]
  have hid := (parseCI_identifier_iff cI byte).mpr ⟨hcI, hbyte⟩
  refine Meets.get_bind ?_
  rw [failIf_of_not _ (by simp [hcreated, hsecret])]
  refine Meets.ok_bind ?_
  rw [extendErr_empty_toList]
  refine Meets.ok_bind ?_
  rw [hmsg1, hparsed]
  refine Meets.ok_bind (Meets.modify_bind ?_)
  rw [hrest]
  refine Meets.ok_bind ?_
  rw [hid]
  refine Meets.ok_bind ?_
  rw [if_neg hne, hsecret]
  refine Meets.ok_bind (Meets.modify_bind ?_)
  rw [← hmsg1]
  exact Meets.onErr (createMessage2_returns (self.agreed msg1 gX byte) hzero
    msg1.toList) fun _ hfalse => hfalse.elim

end EdhocResponder

namespace EdhocInitiator

theorem createMessage1_returns {self : EdhocInitiator}
    (hcreated : self.lifecycle = .created) :
    createMessage1.Returns self fun msg1 t =>
      msg1.toList = message1Bytes self.ephPublic self.cI ∧
        t = { self with msg1, lifecycle := .message1Created } := by
  obtain ⟨msg1, hbuild, hbytes⟩ := exists_buildMessage1 self.ephPublic self.cI
  refine Meets.get_bind ?_
  rw [failIf_of_not _ (by simp [hcreated]), hbuild]
  exact Meets.ok_bind (Meets.ok_bind ⟨hbytes, rfl⟩)

theorem parseMessage2_reads (cI : ConnectionId) (th2 : Bytes32)
    (plaintext2 : HVec 128) :
    (parseMessage2 X cI th2 plaintext2).Meets fun pending =>
      pending.plaintext = plaintext2 ∧ pending.transcriptBinding = th2 ∧
        parsePlaintext2 X cI plaintext2.toList =
          .ok (pending.cR, pending.idCred, pending.signatureOffset) :=
  (parsePlaintext2_meets cI _).attach.bind fun r _ => ⟨rfl, rfl, r.property⟩

theorem exists_parseMessage2 {cI : ConnectionId} {plaintext2 : HVec 128}
    {r : ConnectionId × IdCred × Nat}
    (h : parsePlaintext2 X cI plaintext2.toList = .ok r) (th2 : Bytes32) :
    ∃ pending, parseMessage2 X cI th2 plaintext2 = .ok pending := by
  have hattach : attach (parsePlaintext2 X cI plaintext2.toList) =
      .ok ⟨r, h⟩ := attach_eq_ok.mpr h
  rw [parseMessage2, hattach]
  exact ⟨_, rfl⟩

/-- Under the shared secret the ciphertext opens to the plaintext. -/
theorem openMessage2_opens {fail : EdhocInitiator → Prop}
    {self : EdhocInitiator} {gXy : Bytes32} {ciphertext2 : Bytes}
    {plaintext2 : HVec 128} (hzero : gXy ≠ zeros 32)
    (hdecrypt : xorKeystream2 X
      (hkdfExtract X (computeTh X (th2Bytes X self.gY self.msg1.toList)).val
        gXy.val)
      (computeTh X (th2Bytes X self.gY self.msg1.toList)) ciphertext2 =
        .ok plaintext2)
    (hparse : (∃ r, parsePlaintext2 X self.cI plaintext2.toList = .ok r) ∨
      ∀ t, fail t) :
    (openMessage2 X gXy ciphertext2).Meets self
      (fun pending t => t = self.opened X gXy ∧
        pending.transcriptBinding = t.th2 ∧
        pending.plaintext = plaintext2 ∧
        parsePlaintext2 X self.cI plaintext2.toList =
          .ok (pending.cR, pending.idCred, pending.signatureOffset))
      fail := by
  refine Meets.get_bind ?_
  rw [failIf_of_not _ hzero, transcript2_eq]
  refine Meets.ok_bind (Meets.ok_bind (Meets.modify_bind ?_))
  rw [hdecrypt]
  refine Meets.ok_bind (Meets.modify_bind ?_)
  rcases hparse with ⟨r, hr⟩ | hfail
  · obtain ⟨pending, hpending⟩ := exists_parseMessage2 hr
      (computeTh X (th2Bytes X self.gY self.msg1.toList))
    obtain ⟨hplain, hbinding, hparsed⟩ :=
      (parseMessage2_reads _ _ _).of_ok hpending
    rw [hpending]
    exact Meets.ok_bind (Meets.modify_bind
      (Meets.pure ⟨rfl, hbinding, hplain, hparsed⟩))
  · refine Meets.check_bind (parseMessage2_reads _ _ _) (hfail _) ?_
    rintro pending ⟨hplain, hbinding, hparsed⟩
    exact Meets.modify_bind (Meets.pure ⟨rfl, hbinding, hplain, hparsed⟩)

/-- The initiator opens what the responder sealed; it fails at most where the
plaintext cannot be parsed. -/
theorem beginProcessMessage2_opens {fail : EdhocInitiator → Prop}
    {self : EdhocInitiator} {peer : Endpoint} {ephSecret : Bytes32}
    {plaintext msg2 : Bytes}
    (hlifecycle : self.lifecycle = .message1Created)
    (hsecret : self.ephSecret = some ephSecret)
    (hseals : Seals X peer plaintext msg2)
    (hmin : 1 + X.sigLen ≤ plaintext.length)
    (hzero : X.diffieHellman ephSecret peer.ephPublic ≠ zeros 32)
    (hth2 : peer.th2 = computeTh X
      (th2Bytes X peer.ephPublic self.msg1.toList))
    (hprk2e : peer.prk2e = hkdfExtract X peer.th2.val
      (X.diffieHellman ephSecret peer.ephPublic).val)
    (hparse : (∃ r, parsePlaintext2 X self.cI plaintext = .ok r) ∨
      ∀ t, fail t) :
    (beginProcessMessage2 X msg2).Meets self
      (fun pending t => t = (self.agreed peer.ephPublic).opened X
          (X.diffieHellman ephSecret peer.ephPublic) ∧
        pending.transcriptBinding = t.th2 ∧
        pending.plaintext.toList = plaintext ∧
        parsePlaintext2 X self.cI plaintext =
          .ok (pending.cR, pending.idCred, pending.signatureOffset))
      fail := by
  obtain ⟨ciphertext2, plaintext2, rfl, hsame, rfl, hopen⟩ := hseals
  have hlength : ciphertext2.toList.length ≤ 128 := ciphertext2.length_le
  have hsplit : splitMessage2 X
      (Cbor.bstr (peer.ephPublic.val ++ ciphertext2.toList)) =
        .ok (peer.ephPublic, ciphertext2.toList) :=
    splitMessage2_bstr (hsame.symm ▸ hmin) hlength
  have hhead : ¬ (Cbor.bstr (peer.ephPublic.val ++ ciphertext2.toList)).head? =
      some 2 := by
    have hbody : (peer.ephPublic.val ++ ciphertext2.toList).length =
        32 + ciphertext2.toList.length := by
      rw [List.length_append, peer.ephPublic.property]
    rw [bstr_of_length (by omega) (by omega)]
    simp
  refine Meets.get_bind ?_
  rw [failIf_of_not _ (by simp [hlifecycle, hsecret])]
  refine Meets.ok_bind ?_
  rw [if_neg hhead, hsplit]
  refine Meets.ok_bind ?_
  rw [hsecret]
  refine Meets.ok_bind (Meets.modify_bind ?_)
  have hdecrypt : xorKeystream2 X
      (hkdfExtract X (computeTh X (th2Bytes X peer.ephPublic
        self.msg1.toList)).val (X.diffieHellman ephSecret peer.ephPublic).val)
      (computeTh X (th2Bytes X peer.ephPublic self.msg1.toList))
      ciphertext2.toList = .ok plaintext2 := by
    rw [← hth2, ← hprk2e, hopen]
  have hfails : (∃ r, parsePlaintext2 X self.cI plaintext2.toList = .ok r) ∨
      ∀ t : EdhocInitiator, fail t.poison :=
    hparse.imp_right fun hfail t => hfail t.poison
  refine Meets.onErr (Meets.mono (openMessage2_opens hzero hdecrypt hfails) ?_
    fun _ hfail => hfail) fun _ hfail => hfail
  rintro pending t ⟨ht, hbinding, hplain, hparsed⟩
  exact ⟨ht, hbinding, congrArg _ hplain, hparsed⟩

/-- Message 3 is built, and the responder's keys open it. -/
theorem createMessage3_returns (haead : X.toCrypto.AeadCorrect)
    {seed : Bytes32} (hkey : HonestKey X seed) {self : EdhocInitiator}
    {pending : PendingMessage2 X} {fields : Bytes}
    (hid : pending.idCred.encoded.toList = idCredBytes X (X.fromSeed seed).2)
    (hoffset : pending.signatureOffset = fields.length)
    (hplain : pending.plaintext.toList = fields ++ Cbor.bstr
      (ownSignature X (X.fromSeed seed).1 (X.fromSeed seed).2 self.prk3e2m
        self.th2 labelMac2 (context2Bytes X pending.cR (X.fromSeed seed).2
          self.th2)).val) :
    (createMessage3 X pending (.raw X (X.fromSeed seed).2)).Returns self
      fun msg3 t => ∃ verified plaintext3,
        t = self.finished X pending (.raw X (X.fromSeed seed).2) verified ∧
        plaintext3.toList =
          message3Plaintext X self.privkey self.pubkey self.prk3e2m t.th3 ∧
        decryptMessage3 X self.prk3e2m t.th3 msg3.toList = .ok plaintext3 := by
  obtain ⟨verified, hverified⟩ := exists_checkMessage2 hkey self.prk3e2m
    self.th2 hid hoffset hplain
  let th3 := computeTh X (thBytes self.th2 pending.plaintext.toList
    (credentialBytes (X.fromSeed seed).2))
  have hth3 := transcript_of_le (X := X) pending.plaintext.length_le
    (le_of_eq (length_credentialBytes (X.fromSeed seed).2)) self.th2
  obtain ⟨⟨credentialI, plaintext3, _⟩, hsign, hcred, hsigned, rfl⟩ :=
    exists_signMessage3 X self.privkey self.pubkey self.prk3e2m th3
  simp only at hcred hsigned
  have hlength := length_message3Plaintext_le (X := X) self.privkey
    self.pubkey self.prk3e2m th3
  obtain ⟨sealed, msg3, hseal, hmsg3, hdecrypt⟩ := exists_sealMessage3 haead
    self.prk3e2m th3 (le_trans (le_of_eq_of_le (congrArg _ hsigned) hlength)
      (by decide))
  have hth4 := transcript_of_le (X := X) plaintext3.length_le
    (le_of_eq (hcred ▸ length_credentialBytes self.pubkey)) th3
  refine Meets.get_bind ?_
  rw [hverified]
  refine Meets.ok_bind (Meets.modify_bind ?_)
  rw [transcript3, hth3]
  refine Meets.ok_bind (Meets.modify_bind ?_)
  rw [hsign]
  refine Meets.ok_bind ?_
  rw [hseal]
  refine Meets.ok_bind ?_
  rw [transcript4, hth4]
  refine Meets.ok_bind (Meets.modify_bind ?_)
  rw [hmsg3]
  refine Meets.pure ⟨verified, plaintext3, ?_, hsigned, hdecrypt⟩
  rw [hsigned, hcred]
  rfl

/-- The initiator finishes what it opened, where it read the identifier as the
responder wrote it. -/
theorem finishProcessMessage2_returns (haead : X.toCrypto.AeadCorrect)
    {seed : Bytes32} (hkey : HonestKey X seed) {self : EdhocInitiator}
    {pending : PendingMessage2 X} {fields : Bytes}
    (hlifecycle : self.lifecycle = .pendingMessage2)
    (hbinding : pending.transcriptBinding = self.th2)
    (hid : pending.idCred.encoded.toList = idCredBytes X (X.fromSeed seed).2)
    (hoffset : pending.signatureOffset = fields.length)
    (hplain : pending.plaintext.toList = fields ++ Cbor.bstr
      (ownSignature X (X.fromSeed seed).1 (X.fromSeed seed).2 self.prk3e2m
        self.th2 labelMac2 (context2Bytes X pending.cR (X.fromSeed seed).2
          self.th2)).val) :
    (finishProcessMessage2 X pending (.raw X (X.fromSeed seed).2)).Returns self
      fun msg3 t => ∃ verified plaintext3,
        t = self.finished X pending (.raw X (X.fromSeed seed).2) verified ∧
        plaintext3.toList =
          message3Plaintext X self.privkey self.pubkey self.prk3e2m t.th3 ∧
        decryptMessage3 X self.prk3e2m t.th3 msg3.toList = .ok plaintext3 := by
  refine Meets.get_bind ?_
  rw [failIf_of_not _ (by simp [hlifecycle, hbinding])]
  refine Meets.ok_bind ?_
  rw [failIf_of_not _ (not_not.mpr hid.symm)]
  exact Meets.ok_bind (Meets.onErr
    (createMessage3_returns haead hkey hid hoffset hplain)
    fun _ hfalse => hfalse.elim)

end EdhocInitiator

namespace EdhocResponder

theorem exists_parseMessage3 {plaintext3 : HVec 128} {r : IdCred × Nat}
    (h : parsePlaintext3 X plaintext3.toList = .ok r) (th3 : Bytes32) :
    ∃ pending, parseMessage3 X th3 plaintext3 = .ok pending ∧
      pending.transcriptBinding = th3 ∧ pending.plaintext = plaintext3 ∧
      pending.idCred = r.1 ∧ pending.signatureOffset = r.2 := by
  have hattach : attach (parsePlaintext3 X plaintext3.toList) = .ok ⟨r, h⟩ :=
    attach_eq_ok.mpr h
  rw [parseMessage3, hattach]
  exact ⟨_, rfl, rfl, rfl, rfl, rfl⟩

theorem openMessage3_returns {self : EdhocResponder} {msg3 : Bytes}
    {plaintext3 : HVec 128} {r : IdCred × Nat}
    (hdecrypt : decryptMessage3 X self.prk3e2m self.th3 msg3 = .ok plaintext3)
    (hparse : parsePlaintext3 X plaintext3.toList = .ok r) :
    (openMessage3 X msg3).Returns self fun pending t =>
      t = { self with lifecycle := .pendingMessage3 } ∧
        pending.transcriptBinding = self.th3 ∧
        pending.plaintext = plaintext3 ∧ pending.idCred = r.1 ∧
        pending.signatureOffset = r.2 := by
  obtain ⟨pending, hpending, hrest⟩ := exists_parseMessage3 hparse self.th3
  refine Meets.get_bind ?_
  rw [hdecrypt]
  refine Meets.ok_bind ?_
  rw [hpending]
  exact Meets.ok_bind (Meets.modify_bind (Meets.pure ⟨rfl, hrest⟩))

theorem beginProcessMessage3_returns {self : EdhocResponder} {msg3 : Bytes}
    {plaintext3 : HVec 128} {r : IdCred × Nat}
    (hlifecycle : self.lifecycle = .awaitingMessage3)
    (hdecrypt : decryptMessage3 X self.prk3e2m self.th3 msg3 = .ok plaintext3)
    (hparse : parsePlaintext3 X plaintext3.toList = .ok r) :
    (beginProcessMessage3 X msg3).Returns self fun pending t =>
      t = { self with lifecycle := .pendingMessage3 } ∧
        pending.transcriptBinding = self.th3 ∧
        pending.plaintext = plaintext3 ∧ pending.idCred = r.1 ∧
        pending.signatureOffset = r.2 := by
  refine Meets.get_bind ?_
  rw [failIf_of_not _ (not_not.mpr hlifecycle)]
  exact Meets.ok_bind (Meets.onErr (openMessage3_returns hdecrypt hparse)
    fun _ hfalse => hfalse.elim)

/-- The responder finishes the message 3 that the initiator signed. -/
theorem finishProcessMessage3_returns {seed : Bytes32}
    (hkey : HonestKey X seed) {self : EdhocResponder}
    {pending : PendingMessage3 X}
    (hlifecycle : self.lifecycle = .pendingMessage3)
    (hbinding : pending.transcriptBinding = self.th3)
    (hid : pending.idCred.encoded.toList = idCredBytes X (X.fromSeed seed).2)
    (hoffset : pending.signatureOffset =
      (idCredBytes X (X.fromSeed seed).2).length)
    (hplain : pending.plaintext.toList = message3Plaintext X
      (X.fromSeed seed).1 (X.fromSeed seed).2 self.prk3e2m self.th3) :
    (finishProcessMessage3 X pending (.raw X (X.fromSeed seed).2)).Returns self
      fun _ t => ∃ verified,
        t = self.finished X pending (.raw X (X.fromSeed seed).2) verified := by
  obtain ⟨signature, verified, hcredential, hverified⟩ :=
    exists_checkMessage3 hkey self.prk3e2m self.th3 hid hoffset hplain
  have hth4 := transcript_of_le (X := X) pending.plaintext.length_le
    (le_of_eq (length_credentialBytes (X.fromSeed seed).2)) self.th3
  have hverify : (verifyMessage3 X pending
      (.raw X (X.fromSeed seed).2)).Returns self fun _ t => ∃ verified,
        t = self.finished X pending (.raw X (X.fromSeed seed).2) verified := by
    refine Meets.get_bind ?_
    rw [hcredential]
    refine Meets.ok_bind (Meets.modify_bind ?_)
    rw [hverified]
    refine Meets.ok_bind ?_
    rw [transcript4, hth4]
    exact Meets.ok_bind ⟨verified, rfl⟩
  refine Meets.get_bind ?_
  rw [if_neg (by simp [hlifecycle, hbinding]), if_neg (not_not.mpr hid.symm)]
  exact Meets.onErr hverify fun _ hfalse => hfalse.elim

end EdhocResponder

/-! The parties. -/

@[simp]
theorem byInitiator_eq_ok {α : Type} {call : Call EdhocInitiator EdhocError α}
    {parties other : Parties} {a : α} :
    (byInitiator call).run parties = .ok a other ↔
      call.run parties.1 = .ok a other.1 ∧ other.2 = parties.2 := by
  change byInitiator call parties = _ ↔ _
  obtain ⟨initiator, responder⟩ := other
  unfold byInitiator
  cases call.run parties.1 <;> simp [eq_comm, and_assoc]

@[simp]
theorem byResponder_eq_ok {α : Type} {call : Call EdhocResponder EdhocError α}
    {parties other : Parties} {a : α} :
    (byResponder call).run parties = .ok a other ↔
      call.run parties.2 = .ok a other.2 ∧ other.1 = parties.1 := by
  change byResponder call parties = _ ↔ _
  obtain ⟨initiator, responder⟩ := other
  unfold byResponder
  cases call.run parties.2 with
  | ok value state =>
      simp only [EStateM.Result.ok.injEq, Prod.mk.injEq]
      tauto
  | error fault state => simp

/-- A handshake is the four calls in a row. -/
theorem handshake_eq_ok {initiator initiator' : EdhocInitiator}
    {responder responder' : EdhocResponder} {msg1 : HVec 64} {msg2 : HVec 160}
    {msg3 : HVec 128} :
    (handshake X).run (initiator, responder) =
        .ok (msg1, msg2, msg3) (initiator', responder') ↔
      ∃ sent answered,
        EdhocInitiator.createMessage1.run initiator = .ok msg1 sent ∧
        (EdhocResponder.processMessage1 X msg1.toList).run responder =
          .ok msg2 answered ∧
        (EdhocInitiator.processMessage2 X msg2.toList responder.pubkey).run
          sent = .ok msg3 initiator' ∧
        (EdhocResponder.processMessage3 X msg3.toList initiator.pubkey).run
          answered = .ok () responder' := by
  simp only [handshake, bind_eq_ok, get_eq_ok, byInitiator_eq_ok,
    byResponder_eq_ok, EStateM.run_pure, EStateM.Result.ok.injEq,
    Prod.mk.injEq, Prod.exists]
  constructor
  · rintro ⟨_, _, _, _, ⟨⟨rfl, rfl⟩, rfl, rfl⟩, _, sent, _, ⟨h1, rfl⟩, _, _,
      answered, ⟨h2, rfl⟩, _, _, _, ⟨h3, rfl⟩, _, _, _, ⟨h4, rfl⟩,
      ⟨rfl, rfl, rfl⟩, rfl, rfl⟩
    exact ⟨_, _, h1, h2, h3, h4⟩
  · rintro ⟨sent, answered, h1, h2, h3, h4⟩
    exact ⟨initiator, responder, initiator, responder,
      ⟨⟨rfl, rfl⟩, rfl, rfl⟩, msg1, sent, responder, ⟨h1, rfl⟩, msg2, sent,
      answered, ⟨h2, rfl⟩, msg3, initiator', answered, ⟨h3, rfl⟩, (),
      initiator', responder', ⟨h4, rfl⟩, ⟨rfl, rfl, rfl⟩, rfl, rfl⟩

theorem EdhocInitiator.exportOscore_eq {self : EdhocInitiator}
    (hcompleted : self.completed = true) (hprk : self.prk4e3m ≠ zeros 32) :
    self.exportOscore X = exportContext X self.prk4e3m self.th4
      self.cR.toList self.cI.toList := by
  rw [EdhocInitiator.exportOscore,
    failIf_of_not _ (by simp [hcompleted, hprk]), Outcome.ok_bind]

theorem EdhocResponder.exportOscore_eq {self : EdhocResponder}
    (hcompleted : self.completed = true) (hprk : self.prk4e3m ≠ zeros 32) :
    self.exportOscore X = exportContext X self.prk4e3m self.th4
      self.cI.toList self.cR.toList := by
  rw [EdhocResponder.exportOscore,
    failIf_of_not _ (by simp [hcompleted, hprk]), Outcome.ok_bind]

/-- All calls return `Ok`, and the exported contexts mirror each other. -/
def Completes (X : Suite) (parties : Parties) : Prop :=
  ∃ messages other, (handshake X).run parties = .ok messages other ∧
    ∃ own peer, other.1.exportOscore X = .ok own ∧
      other.2.exportOscore X = .ok peer ∧
      Mirrored own.toMaterial peer.toMaterial

/-- What the primitives do for two honest parties. -/
structure HonestPrimitives (X : Suite) (seedI ephI seedR ephR : Bytes32)
    (cI : ConnectionId) : Prop where
  aead : X.toCrypto.AeadCorrect
  keyI : HonestKey X seedI
  keyR : HonestKey X seedR
  commutes : X.diffieHellman ephR (X.publicKey ephI) =
    X.diffieHellman ephI (X.publicKey ephR)
  secret_ne : X.diffieHellman ephI (X.publicKey ephR) ≠ zeros 32
  /-- The key that is derived from the secret and the first transcript. -/
  prk_ne : hkdfExtract X (computeTh X (th2Bytes X (X.publicKey ephR)
    (message1Bytes (X.publicKey ephI) cI))).val
    (X.diffieHellman ephI (X.publicKey ephR)).val ≠ zeros 32

variable {seedI ephI seedR ephR : Bytes32} {cI : ConnectionId} {cR : UInt8}

theorem processMessage2_raw (msg2 : Bytes) (pubkey : Bytes32) :
    EdhocInitiator.processMessage2 X msg2 pubkey =
      EdhocInitiator.processMessage2WithCredential X msg2 (.raw X pubkey) := by
  obtain ⟨idCred, credential, hraw, hid, hcred⟩ :=
    exists_rawKeyCredential X pubkey
  rw [EdhocInitiator.processMessage2_eq hraw, hid, hcred]

theorem processMessage3_raw (msg3 : Bytes) (pubkey : Bytes32) :
    EdhocResponder.processMessage3 X msg3 pubkey =
      EdhocResponder.processMessage3WithCredential X msg3 (.raw X pubkey) := by
  obtain ⟨idCred, credential, hraw, hid, hcred⟩ :=
    exists_rawKeyCredential X pubkey
  rw [EdhocResponder.processMessage3_eq hraw, hid, hcred]

theorem min_message2Plaintext (privkey pubkey prk3e2m th2 : Bytes32)
    (cR : ConnectionId) :
    1 + X.sigLen ≤
      (message2Plaintext X privkey pubkey prk3e2m th2 cR).length := by
  rw [message2Plaintext]
  generalize ownSignature X privkey pubkey prk3e2m th2 labelMac2
    (context2Bytes X cR pubkey th2) = signature
  have hsignature := Cbor.length_bstr_ge signature.val
  rw [signature.property] at hsignature
  simp only [List.length_append, length_idCredBytes]
  omega

/-- The initiator answers the message 2 of an honest responder. -/
theorem processMessage2_returns (haead : X.toCrypto.AeadCorrect)
    (hkey : HonestKey X seedR) {self : EdhocInitiator} {peer : Endpoint}
    {msg2 : Bytes} (hlifecycle : self.lifecycle = .message1Created)
    (hsecret : self.ephSecret = some ephI)
    (hseals : Seals X peer (message2Plaintext X (X.fromSeed seedR).1
      (X.fromSeed seedR).2 peer.prk2e peer.th2 (.ofByte cR)) msg2)
    (hzero : X.diffieHellman ephI peer.ephPublic ≠ zeros 32)
    (hth2 : peer.th2 = computeTh X
      (th2Bytes X peer.ephPublic self.msg1.toList))
    (hprk2e : peer.prk2e = hkdfExtract X peer.th2.val
      (X.diffieHellman ephI peer.ephPublic).val)
    (hcR : ¬ Negative cR) (hne : .ofByte cR ≠ self.cI) :
    (EdhocInitiator.processMessage2 X msg2 (X.fromSeed seedR).2).Returns self
      fun msg3 t => t.completed = true ∧ t.cR = .ofByte cR ∧ t.cI = self.cI ∧
        t.prk4e3m = peer.prk2e ∧
        t.th3 = computeTh X (thBytes peer.th2 (message2Plaintext X
          (X.fromSeed seedR).1 (X.fromSeed seedR).2 peer.prk2e peer.th2
          (.ofByte cR)) (credentialBytes (X.fromSeed seedR).2)) ∧
        t.th4 = computeTh X (thBytes t.th3 (message3Plaintext X self.privkey
          self.pubkey peer.prk2e t.th3) (credentialBytes self.pubkey)) ∧
        ∃ plaintext3, plaintext3.toList = message3Plaintext X self.privkey
            self.pubkey peer.prk2e t.th3 ∧
          decryptMessage3 X peer.prk2e t.th3 msg3.toList = .ok plaintext3 := by
  have hread : received cR = .ofByte cR := if_neg hcR
  obtain ⟨cred, hcred, hparsed⟩ := parsePlaintext2_signed (X := X)
    (hread ▸ hne) (X.fromSeed seedR).2 (ownSignature X (X.fromSeed seedR).1
      (X.fromSeed seedR).2 peer.prk2e peer.th2 labelMac2
      (context2Bytes X (.ofByte cR) (X.fromSeed seedR).2 peer.th2))
  rw [processMessage2_raw]
  refine (EdhocInitiator.beginProcessMessage2_opens hlifecycle hsecret hseals
    (min_message2Plaintext _ _ _ _ _) hzero hth2 hprk2e
    (.inl ⟨_, hparsed⟩)).bind ?_
  rintro pending opened ⟨hopened, hbinding, hplain, hread2⟩
  have hsame := Except.ok.inj (hread2.symm.trans hparsed)
  have hpendingR : pending.cR = .ofByte cR :=
    (congrArg (·.1) hsame).trans hread
  have hid : pending.idCred = cred := congrArg (·.2.1) hsame
  have hoffset : pending.signatureOffset =
      (identifier [cR] ++ idCredBytes X (X.fromSeed seedR).2).length :=
    congrArg (·.2.2) hsame
  have hopenTh2 : opened.th2 = peer.th2 := by
    rw [hopened, hth2]
    rfl
  have hopenPrk : opened.prk3e2m = peer.prk2e := by
    rw [hopened, hprk2e, hth2]
    rfl
  refine (EdhocInitiator.finishProcessMessage2_returns haead hkey
    (by rw [hopened]; rfl) hbinding (hid ▸ hcred) hoffset ?_).mono ?_
    fun _ hfalse => hfalse
  · rw [hplain, hpendingR, hopenTh2, hopenPrk]
    rfl
  · rintro msg3 _ ⟨verified, plaintext3, rfl, hsigned, hdecrypt⟩
    have hth3 : (opened.finished X pending (.raw X (X.fromSeed seedR).2)
        verified).th3 = computeTh X (thBytes peer.th2 (message2Plaintext X
          (X.fromSeed seedR).1 (X.fromSeed seedR).2 peer.prk2e peer.th2
          (.ofByte cR)) (credentialBytes (X.fromSeed seedR).2)) := by
      rw [← hplain, ← hopenTh2]
      rfl
    have hprivkey : opened.privkey = self.privkey := by rw [hopened]; rfl
    have hpubkey : opened.pubkey = self.pubkey := by rw [hopened]; rfl
    have hcI : opened.cI = self.cI := by rw [hopened]; rfl
    rw [hopenPrk, hprivkey, hpubkey] at hsigned
    rw [hopenPrk] at hdecrypt
    refine ⟨rfl, hpendingR, hcI, hopenPrk, hth3, ?_, plaintext3, hsigned,
      hdecrypt⟩
    rw [← hopenPrk, ← hprivkey, ← hpubkey]
    rfl

/-- The responder accepts the message 3 of an honest initiator. -/
theorem processMessage3_returns (hkey : HonestKey X seedI)
    {self : EdhocResponder} {msg3 : Bytes} {plaintext3 : HVec 128}
    (hlifecycle : self.lifecycle = .awaitingMessage3)
    (hplain : plaintext3.toList = message3Plaintext X (X.fromSeed seedI).1
      (X.fromSeed seedI).2 self.prk3e2m self.th3)
    (hdecrypt : decryptMessage3 X self.prk3e2m self.th3 msg3 =
      .ok plaintext3) :
    (EdhocResponder.processMessage3 X msg3 (X.fromSeed seedI).2).Returns self
      fun _ t => t.completed = true ∧ t.cR = self.cR ∧ t.cI = self.cI ∧
        t.prk4e3m = self.prk3e2m ∧
        t.th4 = computeTh X (thBytes self.th3 (message3Plaintext X
          (X.fromSeed seedI).1 (X.fromSeed seedI).2 self.prk3e2m self.th3)
          (credentialBytes (X.fromSeed seedI).2)) := by
  obtain ⟨cred, hcred, hparsed⟩ := parsePlaintext3_signed (X := X)
    (X.fromSeed seedI).2 (ownSignature X (X.fromSeed seedI).1
      (X.fromSeed seedI).2 self.prk3e2m self.th3 labelMac3
      (context3Bytes X (X.fromSeed seedI).2 self.th3))
  rw [← message3Plaintext, ← hplain] at hparsed
  rw [processMessage3_raw]
  refine (EdhocResponder.beginProcessMessage3_returns hlifecycle hdecrypt
    hparsed).bind ?_
  rintro pending _ ⟨rfl, hbinding, hpending, hid, hoffset⟩
  have hlate : ({ self with lifecycle := .pendingMessage3 } :
      EdhocResponder).lifecycle = .pendingMessage3 := rfl
  refine (EdhocResponder.finishProcessMessage3_returns hkey hlate hbinding
    (hid ▸ hcred) hoffset (hpending ▸ hplain)).mono ?_ fun _ hfalse => hfalse
  rintro _ _ ⟨verified, rfl⟩
  refine ⟨rfl, rfl, rfl, rfl, ?_⟩
  rw [← hplain, ← hpending]
  rfl

/-- The parties before the handshake. -/
def newParties (X : Suite) (seedI ephI seedR ephR : Bytes32)
    (cI : ConnectionId) (cR : UInt8) : Parties :=
  (.new X seedI ephI cI, .new X seedR ephR cR)

/-- What the parties hold once the responder has answered: the same transcript
hash and the same key, on the initiator's side from the responder's share. -/
theorem shared_of_answered (h : HonestPrimitives X seedI ephI seedR ephR cI)
    {byte : UInt8} {msg1 : HVec 64} {sent : EdhocInitiator}
    {answered : EdhocResponder}
    (hsent : sent = { EdhocInitiator.new X seedI ephI cI with
      msg1, lifecycle := .message1Created })
    (hanswered : answered = ((EdhocResponder.new X seedR ephR cR).agreed msg1
      (X.publicKey ephI) byte).answered X
        (X.diffieHellman ephR (X.publicKey ephI)) msg1.toList) :
    answered.ephPublic = X.publicKey ephR ∧
      answered.th2 = computeTh X
        (th2Bytes X answered.ephPublic sent.msg1.toList) ∧
      answered.prk2e = hkdfExtract X answered.th2.val
        (X.diffieHellman ephI answered.ephPublic).val := by
  have hpublic : answered.ephPublic = X.publicKey ephR := by
    rw [hanswered]
    rfl
  refine ⟨hpublic, ?_, ?_⟩
  · rw [hanswered, hsent]
    rfl
  · rw [hpublic, ← h.commutes, hanswered]
    rfl

/-- Both sides have completed, with the same identifiers, key and hash. -/
structure EndsAlike (cI cR : ConnectionId) (initiator : EdhocInitiator)
    (responder : EdhocResponder) : Prop where
  completedI : initiator.completed = true
  completedR : responder.completed = true
  cI : initiator.cI = cI ∧ responder.cI = cI
  cR : initiator.cR = cR ∧ responder.cR = cR
  prk : responder.prk4e3m = initiator.prk4e3m
  prk_ne : initiator.prk4e3m ≠ zeros 32
  th : responder.th4 = initiator.th4

/-- Identifiers that are read as they were written carry it to its end. -/
theorem handshake_of_readable
    (h : HonestPrimitives X seedI ephI seedR ephR cI) {byte : UInt8}
    (hcI : cI.toList = [byte]) (hbyte : ¬ Negative byte)
    (hcR : ¬ Negative cR) (hne : cI.toList ≠ [cR]) :
    ∃ messages initiator responder,
      (handshake X).run (newParties X seedI ephI seedR ephR cI cR) =
        .ok messages (initiator, responder) ∧
      EndsAlike cI (.ofByte cR) initiator responder := by
  have hids : ConnectionId.ofByte cR ≠ cI := fun heq => hne (heq ▸ rfl)
  have hbytes : (ConnectionId.ofByte cR).toList ≠ [byte] :=
    fun heq => hne (hcI.trans heq.symm)
  have hzero : X.diffieHellman ephR (X.publicKey ephI) ≠ zeros 32 :=
    h.commutes ▸ h.secret_ne
  have hcreated : (EdhocInitiator.new X seedI ephI cI).lifecycle = .created :=
    rfl
  have hcreated' : (EdhocResponder.new X seedR ephR cR).lifecycle =
      .created := rfl
  obtain ⟨msg1, sent, hrun1, hmsg1, hsent⟩ :=
    (EdhocInitiator.createMessage1_returns hcreated).exists_run
  obtain ⟨msg2, answered, hrun2, hanswered, hseals⟩ :=
    (EdhocResponder.processMessage1_returns (X := X) hcreated' rfl hmsg1 hcI
      hbyte hbytes hzero).exists_run
  obtain ⟨hpublic, hth2, hprk2e⟩ := shared_of_answered h hsent hanswered
  obtain ⟨msg3, initiator, hrun3, hcompleted, hcR', hcI', hprk, hth3, hth4,
      plaintext3, hplain3, hdecrypt⟩ :=
    (processMessage2_returns h.aead h.keyR (by rw [hsent])
      (by rw [hsent]; rfl) hseals (hpublic ▸ h.secret_ne) hth2 hprk2e hcR
      (by rw [hsent]; exact hids)).exists_run
  have hth3' : answered.th3 = initiator.th3 := by
    rw [hth3, hanswered]
    rfl
  have hprk3 : answered.prk3e2m = answered.prk2e := by
    rw [hanswered]
    rfl
  have hprivkey : sent.privkey = (X.fromSeed seedI).1 := by rw [hsent]; rfl
  have hpubkey : sent.pubkey = (X.fromSeed seedI).2 := by rw [hsent]; rfl
  rw [hprivkey, hpubkey] at hth4 hplain3
  rw [← hth3'] at hth4 hplain3 hdecrypt
  rw [← hprk3] at hth4 hplain3 hdecrypt hprk
  obtain ⟨_, responder, hrun4, hcompleted', hcR'', hcI'', hprk', hth4'⟩ :=
    (processMessage3_returns h.keyI (by rw [hanswered]; rfl) hplain3
      hdecrypt).exists_run
  have hrun : (handshake X).run (newParties X seedI ephI seedR ephR cI cR) =
      .ok (msg1, msg2, msg3) (initiator, responder) :=
    handshake_eq_ok.mpr ⟨sent, answered, hrun1, hrun2, hrun3, hrun4⟩
  have hreadI : responder.cI = cI := by
    rw [hcI'', hanswered]
    exact HVec.ext hcI.symm
  have hreadR : responder.cR = .ofByte cR := by
    rw [hcR'', hanswered]
    rfl
  have hownI : initiator.cI = cI := by
    rw [hcI', hsent]
    rfl
  have hprkne : initiator.prk4e3m ≠ zeros 32 := by
    have hinput : sent.msg1.toList = message1Bytes (X.publicKey ephI) cI := by
      rw [hsent]
      exact hmsg1
    rw [hprk, hprk3, hprk2e, hth2, hpublic, hinput]
    exact h.prk_ne
  exact ⟨_, _, _, hrun, hcompleted, hcompleted', ⟨hownI, hreadI⟩,
    ⟨hcR', hreadR⟩, hprk'.trans hprk.symm, hprkne, hth4'.trans hth4.symm⟩

theorem EndsAlike.completes {cI cR : ConnectionId} {parties : Parties}
    {messages : HVec 64 × HVec 160 × HVec 128} {initiator : EdhocInitiator}
    {responder : EdhocResponder} (h : EndsAlike cI cR initiator responder)
    (hids : cR ≠ cI)
    (hrun : (handshake X).run parties = .ok messages (initiator, responder)) :
    Completes X parties := by
  obtain ⟨own, hown⟩ := exists_exportContext X initiator.prk4e3m initiator.th4
    hids
  obtain ⟨peer, hpeer⟩ := exists_exportContext X initiator.prk4e3m
    initiator.th4 (Ne.symm hids)
  refine ⟨_, _, hrun, own, peer, ?_, ?_, mirrored_of_exportContext hown hpeer⟩
  · rw [EdhocInitiator.exportOscore_eq h.completedI h.prk_ne, h.cR.1, h.cI.1]
    exact hown
  · rw [EdhocResponder.exportOscore_eq h.completedR (h.prk ▸ h.prk_ne),
      h.cI.2, h.cR.2, h.prk, h.th]
    exact hpeer

/-- In a handshake that completes, each side has read the identifier that the
other side wrote. -/
theorem readable_of_completes
    (h : HonestPrimitives X seedI ephI seedR ephR cI)
    (hcompletes : Completes X (newParties X seedI ephI seedR ephR cI cR)) :
    (∃ byte, cI.toList = [byte] ∧ ¬ Negative byte) ∧ ¬ Negative cR := by
  obtain ⟨⟨msg1, msg2, msg3⟩, ⟨initiator, responder⟩, hrun, own, peer, hown,
    hpeer, hmirror⟩ := hcompletes
  obtain ⟨sent, answered, hrun1, hrun2, hrun3, hrun4⟩ :=
    handshake_eq_ok.mp hrun
  obtain ⟨-, hmsg1, hsent⟩ :=
    (EdhocInitiator.createMessage1_meets _).of_ok hrun1
  obtain ⟨secret, stored, gX, start, byte, -, hsecret, -, hgX, hcI, hne, -⟩ :=
    (EdhocResponder.processMessage1_meets _ _).of_ok hrun2
  cases Option.some.inj hsecret
  rw [hmsg1, parseGX_message1Bytes] at hgX
  cases Except.ok.inj hgX
  rw [hmsg1, message1Bytes_drop, parseCI_identifier_iff] at hcI
  refine ⟨⟨byte, hcI⟩, ?_⟩
  have hzero : X.diffieHellman ephR (X.publicKey ephI) ≠ zeros 32 :=
    h.commutes ▸ h.secret_ne
  obtain ⟨hanswered, hseals⟩ := (EdhocResponder.processMessage1_returns
    (X := X) rfl rfl hmsg1 hcI.1 hcI.2 hne hzero).of_ok hrun2
  obtain ⟨hpublic, hth2, hprk2e⟩ := shared_of_answered h hsent hanswered
  rw [processMessage2_raw] at hrun3
  obtain ⟨pending, opened, hbegin, hfinish⟩ := bind_eq_ok.mp hrun3
  obtain ⟨-, -, hplain, hparsed⟩ :=
    (EdhocInitiator.beginProcessMessage2_opens (by rw [hsent])
      (by rw [hsent]; rfl) hseals (min_message2Plaintext _ _ _ _ _)
      (hpublic ▸ h.secret_ne) hth2 hprk2e (.inr fun _ => trivial)).of_ok
        hbegin
  rw [message2Plaintext, List.append_assoc] at hparsed
  have hread : pending.cR = received cR := received_of_parsePlaintext2 hparsed
  obtain ⟨-, -, -, _, -, rfl⟩ :=
    (EdhocInitiator.finishProcessMessage2_meets _ _ _).of_ok hfinish
  rw [processMessage3_raw] at hrun4
  obtain ⟨pending3, opened3, hbegin3, hfinish3⟩ := bind_eq_ok.mp hrun4
  obtain ⟨-, -, rfl⟩ :=
    (EdhocResponder.beginProcessMessage3_meets _ _).of_ok hbegin3
  obtain ⟨-, -, -, _, -, rfl⟩ :=
    (EdhocResponder.finishProcessMessage3_meets _ _ _).of_ok hfinish3
  obtain ⟨_, -, hown⟩ := Outcome.bind_eq_ok.mp hown
  obtain ⟨_, -, hpeer⟩ := Outcome.bind_eq_ok.mp hpeer
  have hsender : own.senderId = pending.cR.toList :=
    (ids_of_exportContext hown).1
  have hrecipient : peer.recipientId = [cR] := by
    rw [(ids_of_exportContext hpeer).2, hanswered]
    rfl
  rw [← received_eq_iff, ← hread, ← hsender, ← hrecipient]
  exact hmirror.recipientId.symm

/-- An undisturbed handshake between parties with different identifiers
completes exactly if the initiator has a one-byte identifier and neither
identifier is a negative integer. -/
theorem completes_iff (h : HonestPrimitives X seedI ephI seedR ephR cI)
    (hne : cI.toList ≠ [cR]) :
    Completes X (newParties X seedI ephI seedR ephR cI cR) ↔
      (∃ byte, cI.toList = [byte] ∧ ¬ Negative byte) ∧ ¬ Negative cR := by
  constructor
  · exact readable_of_completes h
  · rintro ⟨⟨byte, hcI, hbyte⟩, hcR⟩
    have hids : ConnectionId.ofByte cR ≠ cI := fun heq => hne (heq ▸ rfl)
    obtain ⟨_, _, _, hrun, halike⟩ :=
      handshake_of_readable h hcI hbyte hcR hne
    exact halike.completes hids hrun

theorem standIn_honestKey (seed : Bytes32) : HonestKey .standIn seed where
  validPoint := rfl
  decodes := rfl
  verifies message := by
    simp only [Suite.standIn, decide_eq_true_eq]

/-- The stand-in primitives for ephemeral keys that differ. -/
theorem standIn_honestPrimitives :
    HonestPrimitives .standIn (Crypto.blockOfNat 32 1)
      (Crypto.blockOfNat 32 2) (Crypto.blockOfNat 32 3)
      (Crypto.blockOfNat 32 4) (.ofByte 0) where
  aead := Crypto.standIn_aeadCorrect
  keyI := standIn_honestKey _
  keyR := standIn_honestKey _
  commutes := by decide +kernel
  secret_ne := by decide +kernel
  prk_ne := by decide +kernel

theorem completes_iff_standIn :
    Completes .standIn standInParties ↔
      (∃ byte, (ConnectionId.ofByte 0).toList = [byte] ∧ ¬ Negative byte) ∧
        ¬ Negative 1 :=
  completes_iff standIn_honestPrimitives (by decide)

/-- An identifier of the responder that is a negative integer. -/
theorem negative_identifier_not_completes :
    HonestPrimitives .standIn (Crypto.blockOfNat 32 1)
        (Crypto.blockOfNat 32 2) (Crypto.blockOfNat 32 3)
        (Crypto.blockOfNat 32 4) (.ofByte 0) ∧
      (ConnectionId.ofByte 0).toList ≠ [0x21] ∧
      ¬ Completes .standIn (newParties .standIn (Crypto.blockOfNat 32 1)
        (Crypto.blockOfNat 32 2) (Crypto.blockOfNat 32 3)
        (Crypto.blockOfNat 32 4) (.ofByte 0) 0x21) := by
  refine ⟨standIn_honestPrimitives, by decide, fun hcompletes => ?_⟩
  have hread := readable_of_completes standIn_honestPrimitives hcompletes
  exact hread.2 (by decide)

/-! The identifier in message 1. -/

/-- Message 1 brings the identifier of its initiator to a responder that waits
for it exactly if the identifier is one byte and no negative integer. -/
theorem message1_carries_iff {initiator : EdhocInitiator}
    (hinitiator : initiator.lifecycle = .created)
    {ops : List (EdhocResponder.Op X)} {responder : EdhocResponder}
    (hreached : responder = History.run (EdhocResponder.step X)
      (.new X seedR ephR cR) ops)
    (hresponder : responder.lifecycle = .created)
    (hne : responder.cR ≠ initiator.cI)
    (hzero : X.diffieHellman ephR initiator.ephPublic ≠ zeros 32) :
    (EdhocInitiator.createMessage1.Returns initiator fun msg1 _ =>
        (EdhocResponder.processMessage1 X msg1.toList).Returns responder
          fun _ t => t.cI = initiator.cI) ↔
      ∃ byte, initiator.cI.toList = [byte] ∧ ¬ Negative byte := by
  have hsecret : responder.ephSecret = some ephR := by
    have hreaches := EdhocResponder.run_reaches (.new X seedR ephR cR) ops
    rw [← hreached] at hreaches
    exact hreaches.ephSecret_of_created hresponder
  constructor
  · intro h
    obtain ⟨msg1, sent, hrun1, hprocess⟩ := Meets.exists_run h
    obtain ⟨-, hmsg1, -⟩ := (EdhocInitiator.createMessage1_meets _).of_ok hrun1
    obtain ⟨msg2, answered, hrun2, -⟩ := Meets.exists_run hprocess
    obtain ⟨_, _, gX, start, byte, -, -, -, hgX, hcI, -⟩ :=
      (EdhocResponder.processMessage1_meets _ _).of_ok hrun2
    rw [hmsg1, parseGX_message1Bytes] at hgX
    cases Except.ok.inj hgX
    rw [hmsg1, message1Bytes_drop, parseCI_identifier_iff] at hcI
    exact ⟨byte, hcI⟩
  · rintro ⟨byte, hcI, hbyte⟩
    have hbytes : responder.cR.toList ≠ [byte] := fun heq =>
      hne (HVec.ext (heq.trans hcI.symm))
    refine (EdhocInitiator.createMessage1_returns hinitiator).mono ?_
      fun _ hfalse => hfalse
    rintro msg1 _ ⟨hmsg1, -⟩
    refine (EdhocResponder.processMessage1_returns (X := X) hresponder hsecret
      hmsg1 hcI hbyte hbytes hzero).mono ?_ fun _ hfalse => hfalse
    rintro msg2 _ ⟨rfl, -⟩
    exact HVec.ext hcI.symm

theorem message1_carries_iff_standIn :
    (EdhocInitiator.createMessage1.Returns standInParties.1 fun msg1 _ =>
        (EdhocResponder.processMessage1 .standIn msg1.toList).Returns
          standInParties.2 fun _ t => t.cI = standInParties.1.cI) ↔
      ∃ byte, standInParties.1.cI.toList = [byte] ∧ ¬ Negative byte :=
  have hreached : standInParties.2 = History.run
      (EdhocResponder.step .standIn) standInParties.2 [] := rfl
  message1_carries_iff rfl hreached rfl (by decide) (by decide +kernel)

/-- An initiator with an identifier of two bytes. -/
def longIdInitiator : EdhocInitiator :=
  .new .standIn (Crypto.blockOfNat 32 1) (Crypto.blockOfNat 32 2)
    ⟨[0xaa, 0xbb], by decide⟩

/-- Its message 1 is refused. -/
theorem message1_of_long_id_refused :
    standInParties.2.cR ≠ longIdInitiator.cI ∧
      (outcome EdhocInitiator.createMessage1 longIdInitiator).isOk = true ∧
      (outcome EdhocInitiator.createMessage1 longIdInitiator >>= fun msg1 =>
        outcome (EdhocResponder.processMessage1 .standIn msg1.toList)
          standInParties.2) = .error (.err .invalidMessage) :=
  ⟨by decide, by decide +kernel, by decide +kernel⟩

end Oscore.Edhoc
