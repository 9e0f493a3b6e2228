/-
Agreement under an active attacker.  Both roles keep, through all calls and
whatever they are given, the hashes their state is made from; where the last
ones are equal, all that went into them is.
-/
import Oscore.Edhoc.Unwind
import Oscore.Edhoc.Delivery
import Oscore.Edhoc.Handshake
import Oscore.Edhoc.Lifecycle

namespace Oscore.Edhoc

open Rust Rust.Call
open EdhocInitiator (message1Bytes)

variable {X : Suite}

/-! What is assumed of the primitives, in the uses that were made of them. -/

/-- Two uses of a hash or of an expansion have one result. -/
def Query.Collide (X : Suite) : Query → Query → Prop
  | .hashed input, .hashed input' =>
      input ≠ input' ∧ computeTh X input = computeTh X input'
  | .expanded prk info, .expanded prk' info' =>
      (prk, info) ≠ (prk', info') ∧
        X.hkdfExpand prk info 32 = X.hkdfExpand prk' info' 32
  | _, _ => False

instance (X : Suite) (query query' : Query) :
    Decidable (query.Collide X query') := by
  unfold Query.Collide
  split <;> infer_instance

/-- A signature that was made for one message verifies on another. -/
def Query.Confuse (X : Suite) (publicKey : Bytes32) : Query → Query → Prop
  | .verified key message signature, .signed message' signature' =>
      key = publicKey ∧ signature = signature' ∧ message ≠ message' ∧
        (toBlock X.sigLen signature).any (X.verify key message) = true
  | _, _ => False

instance (X : Suite) (publicKey : Bytes32) (query query' : Query) :
    Decidable (query.Confuse X publicKey query') := by
  unfold Query.Confuse
  split <;> infer_instance

/-- The hash and the expansion are free of collisions. -/
def CollisionFree (X : Suite) (asked : List Query) : Prop :=
  ∀ query ∈ asked, ∀ query' ∈ asked, ¬ query.Collide X query'

/-- What verified under the key verified on the message it was signed for. -/
def Unforged (X : Suite) (publicKey : Bytes32) (verified signed : List Query) :
    Prop :=
  ∀ query ∈ verified, ∀ query' ∈ signed, ¬ query.Confuse X publicKey query'

instance (X : Suite) (asked : List Query) :
    Decidable (CollisionFree X asked) :=
  inferInstanceAs (Decidable (∀ query ∈ asked, ∀ query' ∈ asked, _))

instance (X : Suite) (publicKey : Bytes32) (verified signed : List Query) :
    Decidable (Unforged X publicKey verified signed) :=
  inferInstanceAs (Decidable (∀ query ∈ verified, ∀ query' ∈ signed, _))

theorem CollisionFree.hashed {asked : List Query}
    (h : CollisionFree X asked) {input input' : Bytes}
    (hin : .hashed input ∈ asked) (hin' : .hashed input' ∈ asked)
    (heq : computeTh X input = computeTh X input') : input = input' :=
  by_contra fun hne => h _ hin _ hin' ⟨hne, heq⟩

theorem CollisionFree.expanded {asked : List Query}
    (h : CollisionFree X asked) {prk prk' : Bytes32} {info info' : Bytes}
    (hin : .expanded prk info ∈ asked) (hin' : .expanded prk' info' ∈ asked)
    (heq : X.hkdfExpand prk info 32 = X.hkdfExpand prk' info' 32) :
    prk = prk' ∧ info = info' :=
  Prod.mk.inj (by_contra fun hne => h _ hin _ hin' ⟨hne, heq⟩)

theorem Unforged.message_eq {publicKey : Bytes32} {verified signed : List Query}
    (h : Unforged X publicKey verified signed) {message message' : Bytes}
    {signature : Block X.sigLen}
    (hin : .verified publicKey message signature.val ∈ verified)
    (hin' : .signed message' signature.val ∈ signed)
    (hverify : X.verify publicKey message signature = true) :
    message = message' := by
  by_contra hne
  refine h _ hin _ hin' ⟨rfl, rfl, hne, ?_⟩
  rw [toBlock_val]
  exact hverify

/-- A transcript hash, with the use of the hash that made it. -/
def Endpoint.Hashed (X : Suite) (self : Endpoint) (th : Bytes32)
    (input : Bytes) : Prop :=
  th = computeTh X input ∧ .hashed input ∈ self.asked

theorem Endpoint.Hashed.mono {self other : Endpoint} {th : Bytes32}
    {input : Bytes} (h : self.Hashed X th input)
    (hle : self.asked ⊆ other.asked) : other.Hashed X th input :=
  ⟨h.1, hle h.2⟩

/-- Equal hashes of two parties are hashes of one input. -/
theorem Endpoint.Hashed.input_eq {self other : Endpoint} {th : Bytes32}
    {input input' : Bytes} (h : self.Hashed X th input)
    (h' : other.Hashed X th input')
    (hfree : CollisionFree X (self.asked ++ other.asked)) : input = input' :=
  hfree.hashed (List.mem_append_left _ h.2) (List.mem_append_right _ h'.2)
    (h.1.symm.trans h'.1)

/-! The initiator. -/

namespace EdhocInitiator

/-- `TH_2` is made from message 1 as it was sent, and from a peer key. -/
structure HasTh2 (X : Suite) (initiator : EdhocInitiator) : Prop where
  msg1 : initiator.msg1.toList = message1Bytes initiator.ephPublic initiator.cI
  sent : .hashed initiator.msg1.toList ∈ initiator.asked
  th2 : initiator.Hashed X initiator.th2
    (th2Bytes X initiator.gY initiator.msg1.toList)

/-- The session is complete: `TH_3` and `TH_4` are made from the verified
message 2 and from message 3. -/
structure HasTh4 (X : Suite) (initiator : EdhocInitiator)
    (pending : PendingMessage2 X) (peer : PeerCredential) : Prop
    extends initiator.HasTh2 X where
  completed : initiator.completed = true
  cR : initiator.cR = pending.cR
  prk4e3m : initiator.prk4e3m = initiator.prk3e2m
  checked : ∃ verified, Checked2 X initiator.prk3e2m initiator.th2 pending peer
    verified ∧ verified ⊆ initiator.asked
  th3 : initiator.Hashed X initiator.th3
    (thBytes initiator.th2 pending.plaintext.toList peer.credential)
  th4 : ∃ plaintext cred : Bytes, plaintext.length ≤ Cbor.bstrMax ∧
    initiator.Hashed X initiator.th4 (thBytes initiator.th3 plaintext cred)

/-- What the state is made from, wherever the session is. -/
structure Follows (X : Suite) (initiator : EdhocInitiator) : Prop where
  sent : initiator.lifecycle = .message1Created →
    initiator.msg1.toList = message1Bytes initiator.ephPublic initiator.cI
  opened : initiator.lifecycle = .pendingMessage2 → initiator.HasTh2 X
  complete : initiator.lifecycle = .complete →
    ∃ pending peer, initiator.HasTh4 X pending peer

variable {self : EdhocInitiator}

theorem follows_of_lifecycle (hsent : self.lifecycle ≠ .message1Created)
    (hopened : self.lifecycle ≠ .pendingMessage2)
    (hcomplete : self.lifecycle ≠ .complete) : self.Follows X :=
  ⟨fun h => absurd h hsent, fun h => absurd h hopened,
    fun h => absurd h hcomplete⟩

theorem follows_of_poisoned {before : Endpoint}
    (h : before.Poisoned self.toEndpoint) : self.Follows X := by
  apply follows_of_lifecycle <;> simp [h.lifecycle]

/-- The call keeps what the state is made from. -/
abbrev KeepsFollowing (X : Suite) {α : Type}
    (call : Call EdhocInitiator EdhocError α) (self : EdhocInitiator) : Prop :=
  Meets call self (fun _ t => t.Follows X) fun t => t.Follows X

theorem createMessage1_follows (h : self.Follows X) :
    KeepsFollowing X EdhocInitiator.createMessage1 self := by
  apply (createMessage1_meets self).mono
  · rintro msg1 _ ⟨-, hbytes, rfl⟩
    exact ⟨fun _ => hbytes, fun h => absurd h (by simp),
      fun h => absurd h (by simp)⟩
  · rintro _ rfl
    exact h

theorem beginProcessMessage2_follows (h : self.Follows X) (msg2 : Bytes) :
    KeepsFollowing X (EdhocInitiator.beginProcessMessage2 X msg2) self := by
  apply (beginProcessMessage2_meets self msg2).mono
  · rintro pending _ ⟨secret, gY, hlifecycle, -, -, -, rfl⟩
    have hopened : ((self.agreed gY).opened X
        (X.diffieHellman secret gY)).HasTh2 X :=
      ⟨h.sent hlifecycle, List.mem_cons_of_mem _ List.mem_cons_self, rfl,
        List.mem_cons_self⟩
    exact ⟨fun h => absurd h (by simp [opened]), fun _ => hopened,
      fun h => absurd h (by simp [opened])⟩
  · rintro t (rfl | ⟨-, hpoisoned, -⟩)
    · exact h
    · exact follows_of_poisoned hpoisoned

theorem hasTh4_finished {pending : PendingMessage2 X} {peer : PeerCredential}
    {verified : List Query} (h : self.HasTh2 X)
    (hchecked : Checked2 X self.prk3e2m self.th2 pending peer verified) :
    (self.finished X pending peer verified).HasTh4 X pending peer := by
  have hasked : self.asked ⊆ (self.finished X pending peer verified).asked := by
    intro query hquery
    simp only [finished, List.mem_cons, List.mem_append]
    tauto
  have hverified :
      verified ⊆ (self.finished X pending peer verified).asked := by
    intro query hquery
    simp only [finished, List.mem_cons, List.mem_append]
    tauto
  refine ⟨⟨h.msg1, hasked h.sent, h.th2.mono hasked⟩, rfl, rfl, rfl,
    ⟨verified, hchecked, hverified⟩, ⟨rfl, ?_⟩, _, _, ?_, rfl, ?_⟩
  · simp only [finished, List.mem_cons, List.mem_append]
    tauto
  · exact le_trans (length_message3Plaintext_le _ _ _ _) (by decide)
  · exact List.mem_cons_self

theorem finishProcessMessage2_follows (h : self.Follows X)
    (pending : PendingMessage2 X) (peer : PeerCredential) :
    KeepsFollowing X (EdhocInitiator.finishProcessMessage2 X pending peer)
      self := by
  apply (finishProcessMessage2_meets self pending peer).mono
  · rintro msg3 _ ⟨hlifecycle, -, -, verified, hchecked, rfl⟩
    have hcomplete := hasTh4_finished (h.opened hlifecycle) hchecked
    exact ⟨fun h => absurd h (by simp [finished]),
      fun h => absurd h (by simp [finished]),
      fun _ => ⟨pending, peer, hcomplete⟩⟩
  · rintro t (rfl | ⟨-, hpoisoned⟩)
    · exact h
    · exact follows_of_poisoned hpoisoned

theorem processMessage2WithCredential_follows (h : self.Follows X)
    (msg2 : Bytes) (peer : PeerCredential) :
    KeepsFollowing X
      (EdhocInitiator.processMessage2WithCredential X msg2 peer) self :=
  (beginProcessMessage2_follows h msg2).bind fun pending _ hbegin =>
    finishProcessMessage2_follows hbegin pending peer

theorem step_follows (h : self.Follows X) (op : Op X) :
    (self.step X op).Follows X := by
  cases op with
  | createMessage1 => exact (createMessage1_follows h).after
  | beginProcessMessage2 msg2 =>
      exact (beginProcessMessage2_follows h msg2).after
  | finishProcessMessage2 pending peer =>
      exact (finishProcessMessage2_follows h pending peer).after
  | processMessage2WithCredential msg2 peer =>
      exact (processMessage2WithCredential_follows h msg2 peer).after
  | processMessage2 msg2 peerPubkey =>
      have hkeeps : KeepsFollowing X
          (EdhocInitiator.processMessage2 X msg2 peerPubkey) self :=
        processMessage2_raw msg2 peerPubkey ▸
          processMessage2WithCredential_follows h msg2 _
      exact hkeeps.after
  | exportOscore => exact h
  | zeroize =>
      apply follows_of_lifecycle <;>
        simp [step, apply, zeroize, wipe, Endpoint.wipe]

theorem run_follows (seed ephSeed : Bytes32) (cI : ConnectionId)
    (ops : List (Op X)) :
    (History.run (step X) (new X seed ephSeed cI) ops).Follows X := by
  have hstep : ∀ (s : EdhocInitiator) (op : Op X), s.Follows X →
      (s.step X op).Follows X := fun s op h => step_follows h op
  have hstart : (new X seed ephSeed cI).Follows X := by
    apply follows_of_lifecycle <;> simp [new, Endpoint.new]
  exact History.invariant hstep hstart ops

end EdhocInitiator

/-! The responder. -/

namespace EdhocResponder

/-- `TH_2` and `TH_3` are made from message 1 as it was read, and from message 2
as it was signed. -/
structure HasTh3 (X : Suite) (responder : EdhocResponder) (msg1 : Bytes) :
    Prop where
  read : ∃ gX start cI, parseGX msg1 = .ok (gX, start) ∧
    parseCI (msg1.drop start) = .ok cI ∧ responder.cI = .ofByte cI
  ids_ne : responder.cI ≠ responder.cR
  got : .hashed msg1 ∈ responder.asked
  th2 : responder.Hashed X responder.th2 (th2Bytes X responder.ephPublic msg1)
  signed : signQueries X responder.privkey responder.pubkey responder.prk3e2m
    responder.th2 labelMac2
      (context2Bytes X responder.cR responder.pubkey responder.th2) ⊆
        responder.asked
  th3 : responder.Hashed X responder.th3 (thBytes responder.th2
    (message2Plaintext X responder.privkey responder.pubkey responder.prk3e2m
      responder.th2 responder.cR) (credentialBytes responder.pubkey))

/-- The session is complete: `TH_4` is made from `TH_3`. -/
structure HasTh4 (X : Suite) (responder : EdhocResponder) (msg1 : Bytes) :
    Prop extends responder.HasTh3 X msg1 where
  completed : responder.completed = true
  prk4e3m : responder.prk4e3m = responder.prk3e2m
  th4 : ∃ plaintext cred : Bytes, plaintext.length ≤ Cbor.bstrMax ∧
    responder.Hashed X responder.th4 (thBytes responder.th3 plaintext cred)

/-- What the state is made from, wherever the session is. -/
structure Follows (X : Suite) (responder : EdhocResponder) : Prop where
  answered : responder.lifecycle = .awaitingMessage3 ∨
    responder.lifecycle = .pendingMessage3 → ∃ msg1, responder.HasTh3 X msg1
  complete : responder.lifecycle = .complete →
    ∃ msg1, responder.HasTh4 X msg1

variable {self : EdhocResponder}

theorem follows_of_lifecycle (hawaiting : self.lifecycle ≠ .awaitingMessage3)
    (hpending : self.lifecycle ≠ .pendingMessage3)
    (hcomplete : self.lifecycle ≠ .complete) : self.Follows X :=
  ⟨fun h => h.elim (absurd · hawaiting) (absurd · hpending),
    fun h => absurd h hcomplete⟩

theorem follows_of_poisoned {before : Endpoint}
    (h : before.Poisoned self.toEndpoint) : self.Follows X := by
  apply follows_of_lifecycle <;> simp [h.lifecycle]

/-- The call keeps what the state is made from. -/
abbrev KeepsFollowing (X : Suite) {α : Type}
    (call : Call EdhocResponder EdhocError α) (self : EdhocResponder) : Prop :=
  Meets call self (fun _ t => t.Follows X) fun t => t.Follows X

theorem hasTh3_answered {gXy gX : Bytes32} {msg1 : Bytes} {start : Nat}
    {cI : UInt8} (hgX : parseGX msg1 = .ok (gX, start))
    (hcI : parseCI (msg1.drop start) = .ok cI) (hown : self.cI = .ofByte cI)
    (hne : self.cR.toList ≠ [cI]) :
    (self.answered X gXy msg1).HasTh3 X msg1 := by
  refine ⟨⟨gX, start, cI, hgX, hcI, hown⟩, ?_, ?_, ⟨rfl, ?_⟩, ?_, rfl, ?_⟩
  · intro hsame
    have hids : self.cI = self.cR := hsame
    rw [← hids, hown] at hne
    exact hne rfl
  · simp only [answered, List.mem_cons, List.mem_append]
    tauto
  · simp only [answered, List.mem_cons, List.mem_append]
    tauto
  · intro query hquery
    exact List.mem_cons_of_mem _ (List.mem_append_left _ hquery)
  · exact List.mem_cons_self

theorem processMessage1_follows (h : self.Follows X) (msg1 : Bytes) :
    KeepsFollowing X (EdhocResponder.processMessage1 X msg1) self := by
  apply (processMessage1_meets self msg1).mono
  · rintro msg2 _ ⟨secret, stored, gX, start, cI, -, -, -, hgX, hcI, hne, rfl⟩
    have hanswered : ((self.agreed stored gX cI).answered X
        (X.diffieHellman secret gX) msg1).HasTh3 X msg1 :=
      hasTh3_answered hgX hcI rfl hne
    exact ⟨fun _ => ⟨msg1, hanswered⟩, fun h => absurd h (by simp [answered])⟩
  · rintro t (rfl | ⟨hcreated, ⟨gX, rfl⟩ | ⟨hpoisoned, -⟩⟩)
    · exact h
    · apply follows_of_lifecycle <;> simp [hcreated]
    · exact follows_of_poisoned hpoisoned

theorem beginProcessMessage3_follows (h : self.Follows X) (msg3 : Bytes) :
    KeepsFollowing X (EdhocResponder.beginProcessMessage3 X msg3) self := by
  apply (beginProcessMessage3_meets self msg3).mono
  · rintro pending _ ⟨hlifecycle, -, rfl⟩
    obtain ⟨msg1, hth3⟩ := h.answered (Or.inl hlifecycle)
    exact ⟨fun _ => ⟨msg1, ⟨hth3.read, hth3.ids_ne, hth3.got, hth3.th2,
      hth3.signed, hth3.th3⟩⟩, fun h => absurd h (by simp)⟩
  · rintro t (rfl | ⟨-, hpoisoned⟩)
    · exact h
    · exact follows_of_poisoned hpoisoned

theorem hasTh4_finished {pending : PendingMessage3 X} {peer : PeerCredential}
    {verified : List Query} {msg1 : Bytes} (h : self.HasTh3 X msg1) :
    (self.finished X pending peer verified).HasTh4 X msg1 := by
  have hasked : self.asked ⊆ (self.finished X pending peer verified).asked :=
    fun query hquery =>
      List.mem_cons_of_mem _ (List.mem_append_right _ hquery)
  exact ⟨⟨h.read, h.ids_ne, hasked h.got, h.th2.mono hasked,
    fun _ hquery => hasked (h.signed hquery), h.th3.mono hasked⟩, rfl, rfl, _, _,
    plaintext_le pending.plaintext, rfl, List.mem_cons_self⟩

theorem finishProcessMessage3_follows (h : self.Follows X)
    (pending : PendingMessage3 X) (peer : PeerCredential) :
    KeepsFollowing X (EdhocResponder.finishProcessMessage3 X pending peer)
      self := by
  apply (finishProcessMessage3_meets self pending peer).mono
  · rintro _ _ ⟨hlifecycle, -, -, verified, -, rfl⟩
    obtain ⟨msg1, hth3⟩ := h.answered (Or.inr hlifecycle)
    exact ⟨fun h => absurd h (by simp [finished]),
      fun _ => ⟨msg1, hasTh4_finished hth3⟩⟩
  · exact fun t hpoisoned => follows_of_poisoned hpoisoned

theorem processMessage3WithCredential_follows (h : self.Follows X)
    (msg3 : Bytes) (peer : PeerCredential) :
    KeepsFollowing X
      (EdhocResponder.processMessage3WithCredential X msg3 peer) self :=
  (beginProcessMessage3_follows h msg3).bind fun pending _ hbegin =>
    finishProcessMessage3_follows hbegin pending peer

theorem step_follows (h : self.Follows X) (op : Op X) :
    (self.step X op).Follows X := by
  cases op with
  | processMessage1 msg1 => exact (processMessage1_follows h msg1).after
  | beginProcessMessage3 msg3 =>
      exact (beginProcessMessage3_follows h msg3).after
  | finishProcessMessage3 pending peer =>
      exact (finishProcessMessage3_follows h pending peer).after
  | processMessage3WithCredential msg3 peer =>
      exact (processMessage3WithCredential_follows h msg3 peer).after
  | processMessage3 msg3 peerPubkey =>
      have hkeeps : KeepsFollowing X
          (EdhocResponder.processMessage3 X msg3 peerPubkey) self :=
        processMessage3_raw msg3 peerPubkey ▸
          processMessage3WithCredential_follows h msg3 _
      exact hkeeps.after
  | exportOscore => exact h
  | zeroize =>
      apply follows_of_lifecycle <;>
        simp [step, apply, zeroize, wipe, Endpoint.wipe]

theorem run_follows (seed ephSeed : Bytes32) (cR : UInt8)
    (ops : List (Op X)) :
    (History.run (step X) (new X seed ephSeed cR) ops).Follows X := by
  have hstep : ∀ (s : EdhocResponder) (op : Op X), s.Follows X →
      (s.step X op).Follows X := fun s op h => step_follows h op
  have hstart : (new X seed ephSeed cR).Follows X := by
    apply follows_of_lifecycle <;> simp [new, Endpoint.new]
  exact History.invariant hstep hstart ops

end EdhocResponder

/-! Two parties. -/

/-- An honest plaintext of message 2 ends with the signature. -/
theorem ownSignature_suffix (X : Suite) (privkey pubkey prk3e2m th2 : Bytes32)
    (cR : ConnectionId) :
    (ownSignature X privkey pubkey prk3e2m th2 labelMac2
      (context2Bytes X cR pubkey th2)).val <:+
        message2Plaintext X privkey pubkey prk3e2m th2 cR := by
  rw [message2Plaintext, Cbor.bstr]
  exact (List.suffix_append _ _).trans (List.suffix_append _ _)

/-- Two signatures at the end of one plaintext are one. -/
theorem signature_unique {plaintext : Bytes} {a b : Block X.sigLen}
    (ha : a.val <:+ plaintext) (hb : b.val <:+ plaintext) : a = b := by
  have hlength : a.val.length = b.val.length := a.property.trans b.property.symm
  have hsuffix := List.suffix_of_suffix_length_le ha hb hlength.le
  exact Subtype.ext (hsuffix.eq_of_length hlength)

/-- Message 1 determines the identifier that is read from it. -/
theorem cI_of_message1Bytes {ephPublic gX : Bytes32} {cI : ConnectionId}
    {start : Nat} {byte : UInt8}
    (hgX : parseGX (message1Bytes ephPublic cI) = .ok (gX, start))
    (hcI : parseCI ((message1Bytes ephPublic cI).drop start) = .ok byte) :
    cI = .ofByte byte := by
  cases Except.ok.inj ((parseGX_message1Bytes ephPublic cI).symm.trans hgX)
  rw [message1Bytes_drop, parseCI_identifier_iff] at hcI
  exact HVec.ext hcI.1

/-- The MAC and the signature of message 2 settle the key and the identifier of
the responder, whatever the initiator decoded. -/
theorem key_and_cR_of_checked2 {prk prk' th2 privkey pubkey : Bytes32}
    {cR : ConnectionId} {pending : PendingMessage2 X} {peer : PeerCredential}
    {asked asked' verified : List Query}
    (hchecked : Checked2 X prk th2 pending peer verified)
    (hverified : verified ⊆ asked)
    (hsigned : signQueries X privkey pubkey prk' th2 labelMac2
      (context2Bytes X cR pubkey th2) ⊆ asked')
    (hplain : pending.plaintext.toList =
      message2Plaintext X privkey pubkey prk' th2 cR)
    (hcred : peer.credential = credentialBytes pubkey)
    (hfree : CollisionFree X (asked ++ asked'))
    (hunforged : Unforged X pubkey asked asked') :
    prk = prk' ∧ pending.cR = cR := by
  obtain ⟨context2, signature, rfl, hlength, h, rfl⟩ := hchecked
  have hkey := h.holdsKey pubkey hcred
  have hsignature : signature = ownSignature X privkey pubkey prk' th2
      labelMac2 (context2Bytes X cR pubkey th2) :=
    signature_unique (hplain ▸ h.suffix) (ownSignature_suffix X _ _ _ _ _)
  have hverify := h.verify
  rw [hkey] at hverified hverify
  subst hsignature
  -- The message that verified is the one that was signed.
  have hmessage := hunforged.message_eq (hverified List.mem_cons_self)
    (hsigned List.mem_cons_self) hverify
  have hid : pending.idCred.encoded.toList.length ≤ Cbor.bstrMax :=
    le_trans pending.idCred.encoded.length_le (by decide)
  have hown : (idCredBytes X pubkey).length ≤ Cbor.bstrMax :=
    le_of_eq_of_le (length_idCredBytes pubkey) (by decide)
  have hsignable : Signable th2 (credentialBytes pubkey) := by
    rw [Signable, List.length_append, length_bstr32, length_credentialBytes]
    decide
  rw [hcred, signedBytes] at hmessage
  obtain ⟨hidCred, -, -, hmac⟩ :=
    signatureBytes_injective hid hown hsignable hsignable
      (bstrMax_of_block (by decide) _) (bstrMax_of_block (by decide) _)
      hmessage
  -- Its MAC was made from one key and one context.
  have hin := hverified (List.mem_cons_of_mem _ List.mem_cons_self)
  have hin' := hsigned (List.mem_cons_of_mem _ List.mem_cons_self)
  rw [hcred] at hin hlength
  obtain ⟨hprk, hinfo⟩ := hfree.expanded (List.mem_append_left _ hin)
    (List.mem_append_right _ hin') (Subtype.ext hmac)
  have hcontext2 : (context2Bytes X cR pubkey th2).length ≤ Cbor.bstrMax :=
    le_trans (exists_context2 X cR pubkey th2).1 (by decide)
  obtain ⟨-, hcontext, -⟩ := kdfInfo_injective (by decide) (by decide)
    (le_trans hlength (by decide)) hcontext2 (by decide) (by decide) hinfo
  rw [hidCred, context2Bytes] at hcontext
  have hidentifier := List.append_cancel_right hcontext
  exact ⟨hprk, HVec.ext (identifier_injective pending.cR.length_le
    cR.length_le hidentifier)⟩

/-- One `TH_3` is one session: the keys and the identifiers are the same. -/
theorem session_eq_of_th3 {initiator : EdhocInitiator}
    {responder : EdhocResponder} {pending : PendingMessage2 X}
    {peer : PeerCredential} {msg1 : Bytes}
    (hI : initiator.HasTh4 X pending peer) (hR : responder.HasTh3 X msg1)
    (hth3 : initiator.th3 = responder.th3)
    (hfree : CollisionFree X (initiator.asked ++ responder.asked))
    (hunforged : Unforged X responder.pubkey initiator.asked
      responder.asked) :
    initiator.gY = responder.ephPublic ∧
      initiator.prk3e2m = responder.prk3e2m ∧ initiator.cR = responder.cR ∧
      initiator.cI = responder.cI := by
  -- `TH_3` determines `TH_2`, the plaintext of message 2 and the credential.
  have hinput3 := hI.th3.input_eq (hth3 ▸ hR.th3) hfree
  have hmax : (message2Plaintext X responder.privkey responder.pubkey
      responder.prk3e2m responder.th2 responder.cR).length ≤ Cbor.bstrMax :=
    le_trans (length_message2Plaintext_le _ _ _ _ _) (by decide)
  obtain ⟨hth2, hplain, hcred⟩ :=
    thBytes_injective (plaintext_le pending.plaintext) hmax hinput3
  -- `TH_2` determines message 1.
  have hinput2 := hI.th2.input_eq (hth2 ▸ hR.th2) hfree
  obtain ⟨hgY, hhash⟩ := th2Bytes_injective hinput2
  have hmsg1 : initiator.msg1.toList = msg1 :=
    hfree.hashed (List.mem_append_left _ hI.sent)
      (List.mem_append_right _ hR.got) hhash
  obtain ⟨gX, start, cI, hgX, hcI, hown⟩ := hR.read
  rw [← hmsg1, hI.msg1] at hgX hcI
  obtain ⟨verified, hchecked, hverified⟩ := hI.checked
  rw [hth2] at hchecked
  obtain ⟨hprk, hcR⟩ := key_and_cR_of_checked2 hchecked hverified hR.signed
    hplain hcred hfree hunforged
  refine ⟨hgY, hprk, hI.cR.trans hcR, ?_⟩
  rw [hown]
  exact cI_of_message1Bytes hgX hcI

/-- One `TH_4` is one session: the keys and the identifiers are the same. -/
theorem session_eq {initiator : EdhocInitiator} {responder : EdhocResponder}
    {pending : PendingMessage2 X} {peer : PeerCredential} {msg1 : Bytes}
    (hI : initiator.HasTh4 X pending peer) (hR : responder.HasTh4 X msg1)
    (hth4 : initiator.th4 = responder.th4)
    (hfree : CollisionFree X (initiator.asked ++ responder.asked))
    (hunforged : Unforged X responder.pubkey initiator.asked
      responder.asked) :
    initiator.prk4e3m = responder.prk4e3m ∧ initiator.cR = responder.cR ∧
      initiator.cI = responder.cI := by
  -- `TH_4` determines `TH_3`.
  obtain ⟨plaintext3, credI, hle, hI4⟩ := hI.th4
  obtain ⟨plaintext3', credI', hle', hR4⟩ := hR.th4
  have hinput4 := hI4.input_eq (hth4 ▸ hR4) hfree
  obtain ⟨hth3, -, -⟩ := thBytes_injective hle hle' hinput4
  obtain ⟨-, hprk, hids⟩ :=
    session_eq_of_th3 hI hR.toHasTh3 hth3 hfree hunforged
  exact ⟨by rw [hI.prk4e3m, hR.prk4e3m, hprk], hids⟩

/-- Both sides export a context and the contexts mirror each other, or neither
does, since the key of the session is all zero. -/
inductive ExportsMirror (X : Suite) (initiator : EdhocInitiator)
    (responder : EdhocResponder) : Prop
  | neither (hzero : initiator.prk4e3m = zeros 32)
      (hI : initiator.exportOscore X = .error (.err .noContext))
      (hR : responder.exportOscore X = .error (.err .noContext))
  | both (hne : initiator.prk4e3m ≠ zeros 32) {own peer : Context X.toCrypto}
      (hI : initiator.exportOscore X = .ok own)
      (hR : responder.exportOscore X = .ok peer)
      (hsender : own.senderId = peer.recipientId)
      (hrecipient : own.recipientId = peer.senderId)
      (hmirror : Mirrored own.toMaterial peer.toMaterial)

theorem exportsMirror {initiator : EdhocInitiator} {responder : EdhocResponder}
    (hI : initiator.completed = true) (hR : responder.completed = true)
    (hprk : initiator.prk4e3m = responder.prk4e3m)
    (hth4 : initiator.th4 = responder.th4) (hcR : initiator.cR = responder.cR)
    (hcI : initiator.cI = responder.cI) (hne : responder.cI ≠ responder.cR) :
    ExportsMirror X initiator responder := by
  by_cases hzero : initiator.prk4e3m = zeros 32
  · apply ExportsMirror.neither hzero
    · rw [EdhocInitiator.exportOscore, failIf, if_pos (Or.inr hzero)]
      rfl
    · rw [EdhocResponder.exportOscore, failIf,
        if_pos (Or.inr (hprk.symm.trans hzero))]
      rfl
  · obtain ⟨own, hown⟩ := exists_exportContext X initiator.prk4e3m
      initiator.th4 hne.symm
    obtain ⟨peer, hpeer⟩ := exists_exportContext X initiator.prk4e3m
      initiator.th4 hne
    obtain ⟨hsender, hrecipient⟩ := ids_of_exportContext hown
    obtain ⟨hsender', hrecipient'⟩ := ids_of_exportContext hpeer
    have hexport : initiator.exportOscore X = .ok own := by
      rw [EdhocInitiator.exportOscore_eq hI hzero, hcR, hcI]
      exact hown
    have hexport' : responder.exportOscore X = .ok peer := by
      rw [EdhocResponder.exportOscore_eq hR (hprk ▸ hzero), ← hprk, ← hth4]
      exact hpeer
    exact .both hzero hexport hexport' (hsender.trans hrecipient'.symm)
      (hrecipient.trans hsender'.symm) (mirrored_of_exportContext hown hpeer)

/-- An initiator after any calls, with any bytes and values given to them. -/
def EdhocInitiator.Reachable (X : Suite) (self : EdhocInitiator) : Prop :=
  ∃ (seed ephSeed : Bytes32) (cI : ConnectionId)
    (ops : List (EdhocInitiator.Op X)),
    self = History.run (EdhocInitiator.step X) (.new X seed ephSeed cI) ops

/-- A responder after any calls, with any bytes and values given to them. -/
def EdhocResponder.Reachable (X : Suite) (self : EdhocResponder) : Prop :=
  ∃ (seed ephSeed : Bytes32) (cR : UInt8)
    (ops : List (EdhocResponder.Op X)),
    self = History.run (EdhocResponder.step X) (.new X seed ephSeed cR) ops

/-- Whatever bytes are delivered: two complete sessions with one `TH_4` export
contexts that mirror each other. -/
theorem contexts_agree (X : Suite) (initiator : EdhocInitiator)
    (responder : EdhocResponder) (hrunI : initiator.Reachable X)
    (hrunR : responder.Reachable X) (hI : initiator.lifecycle = .complete)
    (hR : responder.lifecycle = .complete)
    (hth4 : initiator.th4 = responder.th4)
    (hfree : CollisionFree X (initiator.asked ++ responder.asked))
    (hunforged : Unforged X responder.pubkey initiator.asked
      responder.asked) : ExportsMirror X initiator responder := by
  have hfollowsI : initiator.Follows X := by
    obtain ⟨seed, ephSeed, cI, ops, rfl⟩ := hrunI
    exact EdhocInitiator.run_follows seed ephSeed cI ops
  have hfollowsR : responder.Follows X := by
    obtain ⟨seed, ephSeed, cR, ops, rfl⟩ := hrunR
    exact EdhocResponder.run_follows seed ephSeed cR ops
  obtain ⟨pending, peer, hasI⟩ := hfollowsI.complete hI
  obtain ⟨msg1, hasR⟩ := hfollowsR.complete hR
  obtain ⟨hprk, hcR, hcI⟩ := session_eq hasI hasR hth4 hfree hunforged
  exact exportsMirror hasI.completed hasR.completed hprk hth4 hcR hcI
    hasR.ids_ne

/-- The initiator of the stand-in handshake behind its calls. -/
def standInInitiator : EdhocInitiator :=
  History.run (EdhocInitiator.step .standIn) standInParties.1
    [.createMessage1, .processMessage2 standInMessages.2.1.toList
      standInParties.2.pubkey]

/-- The responder of the stand-in handshake behind its calls. -/
def standInResponder : EdhocResponder :=
  History.run (EdhocResponder.step .standIn) standInParties.2
    [.processMessage1 standInMessages.1.toList,
      .processMessage3 standInMessages.2.2.toList standInParties.1.pubkey]

theorem contexts_agree_standIn :
    ExportsMirror .standIn standInInitiator standInResponder :=
  contexts_agree .standIn standInInitiator standInResponder
    ⟨_, _, _, _, rfl⟩ ⟨_, _, _, _, rfl⟩ (by decide +kernel)
    (by decide +kernel) (by decide +kernel) (by decide +kernel)
    (by decide +kernel)

end Oscore.Edhoc
