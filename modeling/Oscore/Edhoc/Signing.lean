/-
What a session signs.  Its log only grows; a signature enters it in message 2 or
in message 3 and nowhere else, so that every signature leads back to the moment
when it was made, and to the state that it was made from.
-/
import Oscore.Edhoc.Agreement

namespace Oscore.Edhoc

open Rust Rust.Call

variable {X : Suite}

/-! What the calls of a session add to its log. -/

def Query.Unsigned : Query → Prop
  | .signed _ _ => False
  | _ => True

namespace Endpoint

/-- The log has grown by uses of this kind; the public keys have not changed. -/
structure Grows (kind : Query → Prop) (before after : Endpoint) : Prop where
  pubkey : after.pubkey = before.pubkey
  ephPublic : after.ephPublic = before.ephPublic
  kept : before.asked ⊆ after.asked
  added : ∀ query ∈ after.asked, query ∈ before.asked ∨ kind query

instance (kind : Query → Prop) : IsPreorder Endpoint (Grows kind) where
  refl _ := ⟨rfl, rfl, List.Subset.refl _, fun _ => .inl⟩
  trans _ _ _ h h' := by
    refine ⟨h'.pubkey.trans h.pubkey, h'.ephPublic.trans h.ephPublic,
      List.Subset.trans h.kept h'.kept, ?_⟩
    intro query hquery
    rcases h'.added query hquery with hquery | hkind
    · exact h.added query hquery
    · exact .inr hkind

variable {self other : Endpoint} {kind : Query → Prop}

theorem Grows.mono {kind' : Query → Prop} (h : Grows kind self other)
    (hle : ∀ query, kind query → kind' query) : Grows kind' self other :=
  ⟨h.pubkey, h.ephPublic, h.kept, fun query hquery =>
    (h.added query hquery).imp_right (hle query)⟩

/-- The log is that of before, behind uses of this kind. -/
theorem grows_of_eq (queries : List Query)
    (hasked : other.asked = queries ++ self.asked)
    (hkind : ∀ query ∈ queries, kind query)
    (hkeys : (other.pubkey, other.ephPublic) = (self.pubkey, self.ephPublic)) :
    Grows kind self other := by
  obtain ⟨hpubkey, hephPublic⟩ := Prod.mk.inj hkeys
  refine ⟨hpubkey, hephPublic, ?_, ?_⟩
  · rw [hasked]
    exact List.subset_append_right _ _
  · intro query hquery
    rw [hasked, List.mem_append] at hquery
    exact hquery.symm.imp_right (hkind query)

/-- The endpoint has signed the message. -/
def HasSigned (endpoint : Endpoint) (message : Bytes) : Prop :=
  ∃ signature, .signed message signature ∈ endpoint.asked

theorem Grows.hasSigned (h : Grows Query.Unsigned self other)
    {message : Bytes} (hsigned : other.HasSigned message) :
    self.HasSigned message := by
  obtain ⟨signature, hmem⟩ := hsigned
  rcases h.added _ hmem with hmem | hfalse
  · exact ⟨signature, hmem⟩
  · exact hfalse.elim

end Endpoint

/-- The calls of a role, seen from the fields that the roles share. -/
abbrev GrowsBy {σ α : Type} (kind : Query → Prop) (endpoint : σ → Endpoint)
    (call : Call σ EdhocError α) : Prop :=
  Moves (Endpoint.Grows kind) endpoint call

theorem Checked2.unsigned {prk3e2m th2 : Bytes32} {pending : PendingMessage2 X}
    {peer : PeerCredential} {queries : List Query}
    (h : Checked2 X prk3e2m th2 pending peer queries) :
    ∀ query ∈ queries, query.Unsigned := by
  obtain ⟨_, _, -, -, -, rfl⟩ := h
  simp [Query.Unsigned]

theorem Checked3.unsigned {prk4e3m th3 : Bytes32} {pending : PendingMessage3 X}
    {peer : PeerCredential} {queries : List Query}
    (h : Checked3 X prk4e3m th3 pending peer queries) :
    ∀ query ∈ queries, query.Unsigned := by
  obtain ⟨_, _, -, -, -, rfl⟩ := h
  simp [Query.Unsigned]

namespace EdhocInitiator

open Endpoint (grows_of_eq)

theorem wipe_grows (kind : Query → Prop) (self : EdhocInitiator)
    (lifecycle : Lifecycle) :
    Endpoint.Grows kind self.toEndpoint (self.wipe lifecycle).toEndpoint :=
  grows_of_eq [] rfl (by simp) rfl

theorem createMessage1_grows :
    GrowsBy Query.Unsigned toEndpoint EdhocInitiator.createMessage1 := by
  refine Moves.get_bind fun self => Moves.check_bind _ fun _ => ?_
  refine Moves.check_bind _ fun msg1 => Moves.modify_bind (fun s => ?_) ?_
  · exact grows_of_eq [] rfl (by simp) rfl
  · exact Moves.pure _

theorem openMessage2_grows (gXy : Bytes32) (ciphertext2 : Bytes) :
    GrowsBy Query.Unsigned toEndpoint
      (EdhocInitiator.openMessage2 X gXy ciphertext2) := by
  refine Moves.get_bind fun self => Moves.check_bind _ fun _ => ?_
  refine Moves.check_bind _ fun th2 => Moves.modify_bind (fun s => ?_) ?_
  · exact grows_of_eq [_, _] rfl (by simp [Query.Unsigned]) rfl
  refine Moves.check_bind _ fun _ => Moves.modify_bind (fun s => ?_) ?_
  · exact grows_of_eq [] rfl (by simp) rfl
  refine Moves.check_bind _ fun _ => Moves.modify_bind (fun s => ?_) ?_
  · exact grows_of_eq [] rfl (by simp) rfl
  · exact Moves.pure _

theorem beginProcessMessage2_grows (msg2 : Bytes) :
    GrowsBy Query.Unsigned toEndpoint
      (EdhocInitiator.beginProcessMessage2 X msg2) := by
  refine Moves.get_bind fun self => Moves.check_bind _ fun _ => ?_
  refine Moves.ite (Moves.modify_bind (fun s => ?_) (Moves.throw _)) ?_
  · exact wipe_grows _ s _
  refine Moves.check_bind _ fun item => Moves.check_bind _ fun _ => ?_
  refine Moves.modify_bind (fun s => ?_) (Moves.onErr ?_ fun s => ?_)
  · exact grows_of_eq [_] rfl (by simp [Query.Unsigned]) rfl
  · exact openMessage2_grows _ _
  · exact wipe_grows _ s _

theorem createMessage3_grows (pending : PendingMessage2 X)
    (peer : PeerCredential) :
    GrowsBy (fun _ => True) toEndpoint
      (EdhocInitiator.createMessage3 X pending peer) := by
  refine Moves.get_bind fun self => Moves.check_bind _ fun verified => ?_
  refine Moves.modify_bind (fun s => ?_) (Moves.check_bind _ fun th3 => ?_)
  · exact grows_of_eq verified rfl (by simp) rfl
  refine Moves.modify_bind (fun s => ?_) (Moves.check_bind _ fun signed => ?_)
  · exact grows_of_eq [_] rfl (by simp) rfl
  refine Moves.check_bind _ fun _ => Moves.check_bind _ fun th4 => ?_
  refine Moves.modify_bind (fun s => ?_) (Moves.check _)
  exact grows_of_eq (_ :: signed.queries) rfl (by simp) rfl

theorem finishProcessMessage2_grows (pending : PendingMessage2 X)
    (peer : PeerCredential) :
    GrowsBy (fun _ => True) toEndpoint
      (EdhocInitiator.finishProcessMessage2 X pending peer) := by
  refine Moves.get_bind fun self => Moves.check_bind _ fun _ => ?_
  refine Moves.check_bind _ fun _ => Moves.onErr ?_ fun s => ?_
  · exact createMessage3_grows pending peer
  · exact wipe_grows _ s _

theorem processMessage2WithCredential_grows (msg2 : Bytes)
    (peer : PeerCredential) :
    GrowsBy (fun _ => True) toEndpoint
      (EdhocInitiator.processMessage2WithCredential X msg2 peer) := by
  have hbegin : GrowsBy (fun _ => True) toEndpoint
      (EdhocInitiator.beginProcessMessage2 X msg2) :=
    fun s => (beginProcessMessage2_grows msg2 s).mono fun _ _ => trivial
  exact hbegin.bind fun pending => finishProcessMessage2_grows pending peer

theorem step_grows (self : EdhocInitiator) (op : Op X) :
    Endpoint.Grows (fun _ => True) self.toEndpoint
      (self.step X op).toEndpoint := by
  cases op with
  | createMessage1 =>
      exact (createMessage1_grows self).mono fun _ _ => trivial
  | beginProcessMessage2 msg2 =>
      exact (beginProcessMessage2_grows msg2 self).mono fun _ _ => trivial
  | finishProcessMessage2 pending peer =>
      exact finishProcessMessage2_grows pending peer self
  | processMessage2WithCredential msg2 peer =>
      exact processMessage2WithCredential_grows msg2 peer self
  | processMessage2 msg2 peerPubkey =>
      have hgrows : GrowsBy (fun _ => True) toEndpoint
          (EdhocInitiator.processMessage2 X msg2 peerPubkey) :=
        processMessage2_raw msg2 peerPubkey ▸
          processMessage2WithCredential_grows msg2 _
      exact hgrows self
  | exportOscore => exact refl (r := Endpoint.Grows _) self.toEndpoint
  | zeroize => exact wipe_grows _ self _

/-- The initiator has just signed the message, in message 3. -/
structure Signed3 (X : Suite) (initiator : EdhocInitiator) (message : Bytes) :
    Prop where
  complete : initiator.lifecycle = .complete
  message_eq : message = signedBytes X initiator.pubkey initiator.prk4e3m
    initiator.th3 labelMac3 (context3Bytes X initiator.pubkey initiator.th3)
  expanded : .expanded initiator.prk4e3m (kdfInfo labelMac3
    (context3Bytes X initiator.pubkey initiator.th3) 32) ∈ initiator.asked
  th4 : initiator.Hashed X initiator.th4 (thBytes initiator.th3
    (message3Plaintext X initiator.privkey initiator.pubkey initiator.prk4e3m
      initiator.th3) (credentialBytes initiator.pubkey))

theorem hasSigned_finished {self : EdhocInitiator}
    {pending : PendingMessage2 X} {peer : PeerCredential}
    {verified : List Query} (hverified : ∀ query ∈ verified, query.Unsigned)
    {message : Bytes}
    (h : (self.finished X pending peer verified).HasSigned message) :
    self.HasSigned message ∨
      (self.finished X pending peer verified).Signed3 X message := by
  obtain ⟨signature, hmem⟩ := h
  simp only [finished, signQueries, List.cons_append, List.nil_append,
    List.mem_cons, List.mem_append, reduceCtorEq, false_or,
    Query.signed.injEq] at hmem
  rcases hmem with ⟨hmessage, -⟩ | hmem | hmem
  · right
    refine ⟨rfl, hmessage, ?_, rfl, List.mem_cons_self⟩
    simp [finished, signQueries]
  · exact (hverified _ hmem).elim
  · exact .inl ⟨signature, hmem⟩

/-- The call signs nothing but in message 3, and only where it returns. -/
abbrev Signs3 (X : Suite) {α : Type} (call : Call EdhocInitiator EdhocError α)
    (self : EdhocInitiator) : Prop :=
  Meets call self
    (fun _ t => ∀ message, t.HasSigned message →
      self.HasSigned message ∨ t.Signed3 X message)
    fun t => Endpoint.Grows Query.Unsigned self.toEndpoint t.toEndpoint

/-- Message 3 fits its buffer: it is the plaintext and a tag. -/
theorem length_sealMessage3 (prk3e2m th3 : Bytes32) (data3 : HVec 128) :
    (sealMessage3 X prk3e2m th3 data3).Meets fun sealed =>
      sealed.toList.length = data3.toList.length + tagLen := by
  obtain ⟨keys, hkeys⟩ := exists_message3Keys X prk3e2m th3
  obtain ⟨a3, ha3⟩ := exists_buildA3 th3
  rw [sealMessage3, hkeys, Outcome.ok_bind, ha3]
  refine (Outcome.Meets.okOr _ _).bind fun sealed hseal => ?_
  have hlength := X.toCrypto.ccmEncrypt_length _ _ _ _ _ _
    (encryptInPlace_eq_some.mp hseal)
  refine (extendErr_meets _ _).mono fun out hout => ?_
  rw [hout, List.length_append, hlength, sealed.2.property]

theorem exists_encodeMessage3 {sealed : HVec 128}
    (h : sealed.toList.length ≤ 85) :
    ∃ msg3 : HVec 128, encodeBstr HVec.empty sealed.toList = .ok msg3 := by
  have hhead := Cbor.length_bstrHead_le sealed.toList.length
  have hfit : (Cbor.bstr sealed.toList).length ≤ 128 := by
    rw [Cbor.bstr, List.length_append]
    omega
  obtain ⟨msg3, hmsg3, -⟩ := exists_extendErr_empty hfit
  refine ⟨msg3, ?_⟩
  rw [encodeBstr, writeBstr_eq (le_trans h (by decide)), hmsg3]

/-- Where creating message 3 fails, nothing is signed yet. -/
theorem createMessage3_fails (self : EdhocInitiator)
    (pending : PendingMessage2 X) (peer : PeerCredential) :
    (EdhocInitiator.createMessage3 X pending peer).Meets self (fun _ _ => True)
      fun t => Endpoint.Grows Query.Unsigned self.toEndpoint t.toEndpoint := by
  refine Meets.get_bind ?_
  refine Meets.check_bind (checkMessage2_meets _ _ _ _)
    (grows_of_eq [] rfl (by simp) rfl) ?_
  intro verified hchecked
  refine Meets.modify_bind ?_
  refine Meets.check_bind (transcript_meets _ _ _)
    (grows_of_eq verified rfl hchecked.unsigned rfl) ?_
  rintro _ rfl
  refine Meets.modify_bind ?_
  obtain ⟨signed, hsign, -, hplain, -⟩ :=
    exists_signMessage3 X self.privkey self.pubkey self.prk3e2m
      (computeTh X (thBytes self.th2 pending.plaintext.toList
        peer.credential))
  rw [hsign]
  refine Meets.ok_bind ?_
  have hverified : ∀ query ∈ .hashed (thBytes self.th2
      pending.plaintext.toList peer.credential) :: verified, query.Unsigned :=
    List.forall_mem_cons.mpr ⟨trivial, hchecked.unsigned⟩
  refine Meets.check_bind (length_sealMessage3 _ _ _)
    (grows_of_eq _ rfl hverified rfl) fun sealed hlength => ?_
  refine Meets.check_bind (transcript_meets _ _ _)
    (grows_of_eq _ rfl hverified rfl) fun th4 _ => ?_
  refine Meets.modify_bind ?_
  have hle : sealed.toList.length ≤ 85 := by
    have hplaintext := length_message3Plaintext_le (X := X) self.privkey
      self.pubkey self.prk3e2m (computeTh X (thBytes self.th2
        pending.plaintext.toList peer.credential))
    rw [hlength, hplain]
    exact Nat.add_le_add_right hplaintext tagLen
  obtain ⟨msg3, hmsg3⟩ := exists_encodeMessage3 hle
  rw [hmsg3]
  exact Meets.pure trivial

theorem createMessage3_signs (self : EdhocInitiator)
    (pending : PendingMessage2 X) (peer : PeerCredential) :
    Signs3 X (EdhocInitiator.createMessage3 X pending peer) self := by
  refine ((createMessage3_meets self pending peer).both
    (createMessage3_fails self pending peer)).mono ?_ fun t h => h.2
  rintro msg3 _ ⟨⟨verified, hchecked, rfl⟩, -⟩ message h
  exact hasSigned_finished hchecked.unsigned h

theorem finishProcessMessage2_signs (self : EdhocInitiator)
    (pending : PendingMessage2 X) (peer : PeerCredential) :
    Signs3 X (EdhocInitiator.finishProcessMessage2 X pending peer) self := by
  have hself : Endpoint.Grows Query.Unsigned self.toEndpoint
      self.toEndpoint := grows_of_eq [] rfl (by simp) rfl
  refine Meets.get_bind (Meets.failIf_bind hself fun _ => ?_)
  refine Meets.failIf_bind hself fun _ => ?_
  exact Meets.onErr (createMessage3_signs self pending peer) fun t h =>
    IsTrans.trans _ _ _ h (wipe_grows _ t _)

theorem signs_of_unsigned {α : Type}
    {call : Call EdhocInitiator EdhocError α} {self : EdhocInitiator}
    {post : α → EdhocInitiator → Prop} {fail : EdhocInitiator → Prop}
    (h : GrowsBy Query.Unsigned toEndpoint call)
    (hmeets : Meets call self post fail) : Signs3 X call self :=
  (h.meets hmeets).mono (fun _ _ hgrows _ => .inl ∘ hgrows.hasSigned)
    fun _ hgrows => hgrows

theorem processMessage2WithCredential_signs (self : EdhocInitiator)
    (msg2 : Bytes) (peer : PeerCredential) :
    Signs3 X (EdhocInitiator.processMessage2WithCredential X msg2 peer)
      self := by
  refine ((beginProcessMessage2_grows msg2).meets
    (beginProcessMessage2_meets self msg2)).bind fun pending t hgrows => ?_
  refine (finishProcessMessage2_signs t pending peer).mono ?_ ?_
  · intro msg3 u h message hsigned
    exact (h message hsigned).imp_left hgrows.hasSigned
  · exact fun u h => IsTrans.trans _ _ _ hgrows h

/-- A step signs nothing but message 3, when it completes the session. -/
theorem step_signs (self : EdhocInitiator) (op : Op X) (message : Bytes)
    (h : (self.step X op).HasSigned message) :
    self.HasSigned message ∨ (self.step X op).Signed3 X message := by
  have hafter : ∀ {α : Type} {call : Call EdhocInitiator EdhocError α},
      Signs3 X call self → (after call self).HasSigned message →
        self.HasSigned message ∨ (after call self).Signed3 X message := by
    intro α call hsigns hsigned
    rcases hsigns.ends with ⟨_, -, -, hpost⟩ | ⟨_, -, hgrows⟩
    · exact hpost message hsigned
    · exact .inl (hgrows.hasSigned hsigned)
  cases op with
  | createMessage1 =>
      exact hafter (signs_of_unsigned createMessage1_grows
        (createMessage1_meets self)) h
  | beginProcessMessage2 msg2 =>
      exact hafter (signs_of_unsigned (beginProcessMessage2_grows msg2)
        (beginProcessMessage2_meets self msg2)) h
  | finishProcessMessage2 pending peer =>
      exact hafter (finishProcessMessage2_signs self pending peer) h
  | processMessage2WithCredential msg2 peer =>
      exact hafter (processMessage2WithCredential_signs self msg2 peer) h
  | processMessage2 msg2 peerPubkey =>
      have hsigns : Signs3 X
          (EdhocInitiator.processMessage2 X msg2 peerPubkey) self :=
        processMessage2_raw msg2 peerPubkey ▸
          processMessage2WithCredential_signs self msg2 _
      exact hafter hsigns h
  | exportOscore => exact .inl h
  | zeroize => exact .inl ((wipe_grows _ self _).hasSigned h)

end EdhocInitiator

namespace EdhocResponder

open Endpoint (grows_of_eq)

theorem wipe_grows (kind : Query → Prop) (self : EdhocResponder)
    (lifecycle : Lifecycle) :
    Endpoint.Grows kind self.toEndpoint (self.wipe lifecycle).toEndpoint :=
  grows_of_eq [] rfl (by simp) rfl

theorem createMessage2_grows (gXy : Bytes32) (msg1 : Bytes) :
    GrowsBy (fun _ => True) toEndpoint
      (EdhocResponder.createMessage2 X gXy msg1) := by
  refine Moves.get_bind fun self => Moves.check_bind _ fun _ => ?_
  refine Moves.check_bind _ fun th2 => Moves.modify_bind (fun s => ?_) ?_
  · exact grows_of_eq [_, _] rfl (by simp) rfl
  refine Moves.check_bind _ fun signed => Moves.check_bind _ fun _ => ?_
  refine Moves.check_bind _ fun th3 => Moves.modify_bind (fun s => ?_) ?_
  · exact grows_of_eq (_ :: signed.queries) rfl (by simp) rfl
  refine Moves.check_bind _ fun msg2 => Moves.modify_bind (fun s => ?_) ?_
  · exact grows_of_eq [] rfl (by simp) rfl
  · exact Moves.pure _

theorem processMessage1_grows (msg1 : Bytes) :
    GrowsBy (fun _ => True) toEndpoint
      (EdhocResponder.processMessage1 X msg1) := by
  refine Moves.get_bind fun self => Moves.check_bind _ fun _ => ?_
  refine Moves.check_bind _ fun _ => Moves.check_bind _ fun item => ?_
  refine Moves.modify_bind (fun s => ?_) (Moves.check_bind _ fun rest => ?_)
  · exact grows_of_eq [] rfl (by simp) rfl
  refine Moves.check_bind _ fun cI => Moves.ite ?_ ?_
  · exact Moves.modify_bind (fun s => wipe_grows _ s _) (Moves.throw _)
  refine Moves.check_bind _ fun _ => Moves.modify_bind (fun s => ?_) ?_
  · exact grows_of_eq [_] rfl (by simp) rfl
  · exact Moves.onErr (createMessage2_grows _ _) fun s => wipe_grows _ s _

theorem beginProcessMessage3_grows (msg3 : Bytes) :
    GrowsBy Query.Unsigned toEndpoint
      (EdhocResponder.beginProcessMessage3 X msg3) := by
  refine Moves.get_bind fun self => Moves.check_bind _ fun _ => ?_
  refine Moves.onErr (Moves.get_bind fun self => ?_) fun s => wipe_grows _ s _
  refine Moves.check_bind _ fun _ => Moves.check_bind _ fun pending => ?_
  refine Moves.modify_bind (fun s => ?_) (Moves.pure _)
  exact grows_of_eq [] rfl (by simp) rfl

theorem verifyMessage3_grows (pending : PendingMessage3 X)
    (peer : PeerCredential) :
    GrowsBy Query.Unsigned toEndpoint
      (EdhocResponder.verifyMessage3 X pending peer) := by
  refine Moves.get_bind fun self => ?_
  refine Moves.check_bind_of_ok _ fun signature hsignature => ?_
  obtain ⟨hpoint, hdecodes, hkey, hend⟩ :=
    (checkCredential3_meets pending peer).of_ok hsignature
  refine Moves.modify_bind (fun s => ?_) ?_
  · exact grows_of_eq [] rfl (by simp) rfl
  refine Moves.check_bind_of_ok _ fun verified hverified => ?_
  have hchecked := (checkMessage3_meets _ _ pending hpoint hdecodes hkey
    hend).of_ok hverified
  refine Moves.check_bind _ fun th4 s => ?_
  refine grows_of_eq (_ :: verified) rfl ?_ rfl
  exact List.forall_mem_cons.mpr ⟨trivial, hchecked.unsigned⟩

theorem finishProcessMessage3_grows (pending : PendingMessage3 X)
    (peer : PeerCredential) :
    GrowsBy Query.Unsigned toEndpoint
      (EdhocResponder.finishProcessMessage3 X pending peer) := by
  refine Moves.get_bind fun self => Moves.ite ?_ (Moves.ite ?_ ?_)
  · exact Moves.modify_bind (fun s => wipe_grows _ s _) (Moves.throw _)
  · exact Moves.modify_bind (fun s => wipe_grows _ s _) (Moves.throw _)
  · exact Moves.onErr (verifyMessage3_grows pending peer)
      fun s => wipe_grows _ s _

theorem processMessage3WithCredential_grows (msg3 : Bytes)
    (peer : PeerCredential) :
    GrowsBy Query.Unsigned toEndpoint
      (EdhocResponder.processMessage3WithCredential X msg3 peer) :=
  (beginProcessMessage3_grows msg3).bind fun pending =>
    finishProcessMessage3_grows pending peer

theorem processMessage3_grows (msg3 : Bytes) (peerPubkey : Bytes32) :
    GrowsBy Query.Unsigned toEndpoint
      (EdhocResponder.processMessage3 X msg3 peerPubkey) :=
  processMessage3_raw msg3 peerPubkey ▸
    processMessage3WithCredential_grows msg3 _

/-- The responder has just signed the message, in message 2. -/
structure Signed2 (X : Suite) (responder : EdhocResponder) (message : Bytes) :
    Prop extends responder.HasTh3 X responder.msg1.toList where
  awaiting : responder.lifecycle = .awaitingMessage3
  message_eq : message = signedBytes X responder.pubkey responder.prk3e2m
    responder.th2 labelMac2
      (context2Bytes X responder.cR responder.pubkey responder.th2)

theorem hasSigned_answered {self : EdhocResponder} {gXy : Bytes32}
    {msg1 message : Bytes}
    (h : (self.answered X gXy msg1).HasSigned message)
    (hth3 : (self.answered X gXy msg1).HasTh3 X
      (self.answered X gXy msg1).msg1.toList) :
    self.HasSigned message ∨ (self.answered X gXy msg1).Signed2 X message := by
  obtain ⟨signature, hmem⟩ := h
  simp only [answered, signQueries, List.cons_append, List.nil_append,
    List.mem_cons, reduceCtorEq, false_or, Query.signed.injEq] at hmem
  rcases hmem with ⟨hmessage, -⟩ | hmem
  · exact .inr ⟨hth3, rfl, hmessage⟩
  · exact .inl ⟨signature, hmem⟩

/-- The call signs nothing but in message 2, and only where it returns. -/
abbrev Signs2 (X : Suite) {α : Type} (call : Call EdhocResponder EdhocError α)
    (self : EdhocResponder) : Prop :=
  Meets call self
    (fun _ t => ∀ message, t.HasSigned message →
      self.HasSigned message ∨ t.Signed2 X message)
    fun t => Endpoint.Grows Query.Unsigned self.toEndpoint t.toEndpoint

theorem createMessage2_fails (self : EdhocResponder) (gXy : Bytes32)
    (msg1 : Bytes) :
    (EdhocResponder.createMessage2 X gXy msg1).Meets self
      (fun _ t => t = self.answered X gXy msg1) (· = self) := by
  by_cases h : gXy = zeros 32
  · refine Meets.get_bind ?_
    rw [failIf, if_pos h]
    exact rfl
  · exact (createMessage2_returns self h msg1).mono (fun _ _ hok => hok.1)
      fun _ hfalse => hfalse.elim

theorem processMessage1_signs (self : EdhocResponder) (msg1 : Bytes) :
    Signs2 X (EdhocResponder.processMessage1 X msg1) self := by
  have hfield : ∀ gX, Endpoint.Grows Query.Unsigned self.toEndpoint
      { self with gX : EdhocResponder }.toEndpoint :=
    fun gX => grows_of_eq [] rfl (by simp) rfl
  have hself := hfield self.gX
  refine Meets.get_bind (Meets.failIf_bind hself fun _ => ?_)
  refine Meets.check_bind (extendErr_meets _ _) hself ?_
  intro storedMsg1 hstored
  refine Meets.check_bind (parseGX_meets msg1).returned hself ?_
  rintro ⟨gX, start⟩ ⟨hgX, hstart⟩
  refine Meets.modify_bind ?_
  refine Meets.check_bind (sliceFrom_meets msg1 hstart) (hfield gX) ?_
  rintro _ rfl
  refine Meets.check_bind (parseCI_meets _).returned (hfield gX) ?_
  rintro cI ⟨hcI, -⟩
  refine Meets.ite (fun _ => ?_) fun hne => ?_
  · exact Meets.modify_bind (Meets.throw _
      (IsTrans.trans _ _ _ (hfield gX) (wipe_grows _ _ _)))
  refine Meets.check_bind (.okOr _ _) (hfield gX) fun ephSecret _ => ?_
  refine Meets.modify_bind (Meets.onErr (createMessage2_fails _ _ _) ?_ |>.mono
    ?_ fun _ h => h)
  · rintro _ rfl
    exact grows_of_eq [_] rfl (by simp [Query.Unsigned]) rfl
  · rintro msg2 _ rfl message h
    have hown : storedMsg1.toList = msg1 := hstored
    have hth3 : ((self.agreed storedMsg1 gX cI).answered X
        (X.diffieHellman ephSecret gX) msg1).HasTh3 X storedMsg1.toList := by
      rw [hown]
      exact hasTh3_answered hgX hcI rfl hne
    have hagreed : Endpoint.Grows Query.Unsigned self.toEndpoint
        (self.agreed storedMsg1 gX cI).toEndpoint :=
      grows_of_eq [_] rfl (by simp [Query.Unsigned]) rfl
    exact (hasSigned_answered h hth3).imp_left hagreed.hasSigned

/-- A step signs nothing but message 2, when it answers message 1. -/
theorem step_signs (self : EdhocResponder) (op : Op X) (message : Bytes)
    (h : (self.step X op).HasSigned message) :
    self.HasSigned message ∨ (self.step X op).Signed2 X message := by
  cases op with
  | processMessage1 msg1 =>
      rcases (processMessage1_signs (X := X) self msg1).ends with
        ⟨_, -, -, hpost⟩ | ⟨_, -, hgrows⟩
      · exact hpost message h
      · exact .inl (hgrows.hasSigned h)
  | beginProcessMessage3 msg3 =>
      exact .inl ((beginProcessMessage3_grows msg3 self).hasSigned h)
  | finishProcessMessage3 pending peer =>
      exact .inl ((finishProcessMessage3_grows pending peer self).hasSigned h)
  | processMessage3WithCredential msg3 peer =>
      exact .inl ((processMessage3WithCredential_grows msg3 peer
        self).hasSigned h)
  | processMessage3 msg3 peerPubkey =>
      exact .inl ((processMessage3_grows msg3 peerPubkey self).hasSigned h)
  | exportOscore => exact .inl h
  | zeroize => exact .inl ((wipe_grows _ self _).hasSigned h)

theorem step_grows (self : EdhocResponder) (op : Op X) :
    Endpoint.Grows (fun _ => True) self.toEndpoint
      (self.step X op).toEndpoint := by
  cases op with
  | processMessage1 msg1 => exact processMessage1_grows msg1 self
  | beginProcessMessage3 msg3 =>
      exact (beginProcessMessage3_grows msg3 self).mono fun _ _ => trivial
  | finishProcessMessage3 pending peer =>
      exact (finishProcessMessage3_grows pending peer self).mono
        fun _ _ => trivial
  | processMessage3WithCredential msg3 peer =>
      exact (processMessage3WithCredential_grows msg3 peer self).mono
        fun _ _ => trivial
  | processMessage3 msg3 peerPubkey =>
      exact (processMessage3_grows msg3 peerPubkey self).mono
        fun _ _ => trivial
  | exportOscore => exact refl (r := Endpoint.Grows _) self.toEndpoint
  | zeroize => exact wipe_grows _ self _

end EdhocResponder

/-! Sessions. -/

/-- The initiator behind these calls. -/
def EdhocInitiator.afterOps (X : Suite) (seed ephSeed : Bytes32)
    (cI : ConnectionId) (ops : List (EdhocInitiator.Op X)) : EdhocInitiator :=
  History.run (EdhocInitiator.step X) (.new X seed ephSeed cI) ops

/-- The responder behind these calls. -/
def EdhocResponder.afterOps (X : Suite) (seed ephSeed : Bytes32) (cR : UInt8)
    (ops : List (EdhocResponder.Op X)) : EdhocResponder :=
  History.run (EdhocResponder.step X) (.new X seed ephSeed cR) ops

/-- A session in either role, with the calls that were made so far. -/
inductive Session (X : Suite) where
  | initiator (seed ephSeed : Bytes32) (cI : ConnectionId)
      (ops : List (EdhocInitiator.Op X))
  | responder (seed ephSeed : Bytes32) (cR : UInt8)
      (ops : List (EdhocResponder.Op X))

/-- The fields that the roles share, as the calls have left them. -/
def Session.state : Session X → Endpoint
  | .initiator seed ephSeed cI ops =>
      (EdhocInitiator.afterOps X seed ephSeed cI ops).toEndpoint
  | .responder seed ephSeed cR ops =>
      (EdhocResponder.afterOps X seed ephSeed cR ops).toEndpoint

theorem EdhocInitiator.afterOps_grows (seed ephSeed : Bytes32)
    (cI : ConnectionId) {done ops : List (EdhocInitiator.Op X)}
    (h : done <+: ops) :
    Endpoint.Grows (fun _ => True)
      (EdhocInitiator.afterOps X seed ephSeed cI done).toEndpoint
      (EdhocInitiator.afterOps X seed ephSeed cI ops).toEndpoint :=
  History.related_of_prefix EdhocInitiator.step_grows _ h

theorem EdhocResponder.afterOps_grows (seed ephSeed : Bytes32) (cR : UInt8)
    {done ops : List (EdhocResponder.Op X)} (h : done <+: ops) :
    Endpoint.Grows (fun _ => True)
      (EdhocResponder.afterOps X seed ephSeed cR done).toEndpoint
      (EdhocResponder.afterOps X seed ephSeed cR ops).toEndpoint :=
  History.related_of_prefix EdhocResponder.step_grows _ h

theorem not_hasSigned_of_asked_nil {endpoint : Endpoint}
    (h : endpoint.asked = []) (message : Bytes) :
    ¬ endpoint.HasSigned message := by
  rintro ⟨signature, hmem⟩
  rw [h] at hmem
  exact absurd hmem List.not_mem_nil

/-- Whatever an initiator has signed, it signed in message 3. -/
theorem EdhocInitiator.exists_signed3 {seed ephSeed : Bytes32}
    {cI : ConnectionId} {ops : List (EdhocInitiator.Op X)} {message : Bytes}
    (h : (EdhocInitiator.afterOps X seed ephSeed cI ops).HasSigned message) :
    ∃ done, done <+: ops ∧
      (EdhocInitiator.afterOps X seed ephSeed cI done).Signed3 X message :=
  History.exists_moment (fun s => s.toEndpoint.HasSigned)
    (EdhocInitiator.Signed3 X) EdhocInitiator.step_signs
    (not_hasSigned_of_asked_nil rfl message) h

/-- Whatever a responder has signed, it signed in message 2. -/
theorem EdhocResponder.exists_signed2 {seed ephSeed : Bytes32} {cR : UInt8}
    {ops : List (EdhocResponder.Op X)} {message : Bytes}
    (h : (EdhocResponder.afterOps X seed ephSeed cR ops).HasSigned message) :
    ∃ done, done <+: ops ∧
      (EdhocResponder.afterOps X seed ephSeed cR done).Signed2 X message :=
  History.exists_moment (fun s => s.toEndpoint.HasSigned)
    (EdhocResponder.Signed2 X) EdhocResponder.step_signs
    (not_hasSigned_of_asked_nil rfl message) h

end Oscore.Edhoc
