/-
No nonce is used twice by the contexts of one secret, salt, ID context and
sender ID.  Messages with a PIV of their own differ in a reserved sequence,
responses without one in the request they answer, and the two kinds in the
identifier that goes into the nonce.
-/
import Oscore.BareResponse
import Oscore.NonceSource

namespace Oscore

open Rust

namespace Entry

variable {C : Crypto} {σ ε : Type}

/-- The nonce a released message was encrypted under. -/
def nonce? (entry : Entry C) : Option Nonce :=
  match entry.event with
  | .sentRequest seq .. => some (entry.material.ownNonce seq)
  | .sentResponse (some seq) .. => some (entry.material.ownNonce seq)
  | .sentResponse none _ _ _ requestKid requestPiv _ =>
      some (computeNonce requestKid requestPiv entry.material.commonIv)
  | _ => none

/-- The ciphertext of the message is an output of AES-CCM under this nonce and
the sender key of the entry. -/
def SealedUnder (entry : Entry C) (nonce : Nonce) (message : Protected) :
    Prop :=
  ∃ aad plaintext body tag,
    C.ccmEncrypt entry.material.senderKey nonce aad plaintext =
      some (body, tag) ∧ message.1.toList = body ++ tag.val

/-- The entry records what an operation did on a context of its material. -/
def Acted (S : ContextStateStore σ ε) (entry : Entry C) : Prop :=
  ∃ session store action session' store',
    session.context.toMaterial = entry.material ∧
      Session.Effect S session store action session' store' (some entry.event)

theorem sealedUnder_of_sealMessage {entry : Entry C} {nonce : Nonce}
    {requestKid requestPiv : Bytes} {code : UInt8}
    {classEOptions payload : Bytes} {message : Protected}
    (h : sealMessage C entry.material.senderKey nonce requestKid requestPiv
      code classEOptions payload = .ok message.1) :
    entry.SealedUnder nonce message := by
  obtain ⟨aad, body, tag, -, hencrypt, hout⟩ := sealMessage_eq_ok.mp h
  exact ⟨aad.toList, _, body, tag, hencrypt, hout⟩

/-- A released message was encrypted under the nonce of its entry. -/
theorem Acted.sealed {S : ContextStateStore σ ε} {entry : Entry C}
    (h : entry.Acted S) {message : Protected}
    (hmessage : entry.event.protected? = some message) :
    ∃ nonce, entry.nonce? = some nonce ∧ entry.SealedUnder nonce message := by
  obtain ⟨session, store, action, session', store', hmaterial, heffect⟩ := h
  obtain ⟨handle, material, event⟩ := entry
  obtain rfl : session.context.toMaterial = material := hmaterial
  cases heffect with
  | sentRequest sender code classEOptions payload sent holds ok =>
      cases hmessage
      exact ⟨_, rfl, sealedUnder_of_sealMessage
        (Context.protectRequestReserved_eq_ok.mp ok).1⟩
  | sentResponse sender code classEOptions payload requestKid requestPiv sent
      holds ok =>
      cases hmessage
      exact ⟨_, rfl, sealedUnder_of_sealMessage
        (Context.protectResponseWithReservedPiv_eq_ok.mp ok).2.1⟩
  | sentOwn code classEOptions payload requestKid requestPiv sent holds active
      request below ok =>
      cases hmessage
      exact ⟨_, rfl, sealedUnder_of_sealMessage
        (Context.sealResponse_eq_ok.mp ok).1⟩
  | sentBare seq code classEOptions payload requestKid requestPiv sent active
      request bare ok =>
      cases hmessage
      exact ⟨_, rfl, sealedUnder_of_sealMessage
        (Context.sealResponse_eq_ok.mp ok).1⟩
  | _ => cases hmessage

/-- A response without a PIV uses the nonce of a request of the recipient. -/
theorem Acted.bare {S : ContextStateStore σ ε} {entry : Entry C}
    (h : entry.Acted S) {piv : Bytes}
    (hpiv : entry.event.barePiv? = some piv) :
    ∃ seq : OscoreSeqNum, OscoreSeqNum.fromPiv piv = some seq ∧
      entry.nonce? = some (computeNonce entry.material.recipientId
        seq.encodePiv entry.material.commonIv) := by
  obtain ⟨session, store, action, session', store', hmaterial, heffect⟩ := h
  obtain ⟨handle, material, event⟩ := entry
  obtain rfl : session.context.toMaterial = material := hmaterial
  cases heffect with
  | sentBare seq code classEOptions payload requestKid requestPiv sent active
      request bare ok =>
      cases hpiv
      refine ⟨seq, bare.seq_eq, ?_⟩
      rw [← OscoreSeqNum.fromPiv_eq_some.mp bare.seq_eq,
        ← (Session.request_of_not_bad request).1]
      rfl
  | _ => cases hpiv

/-- The two kinds of released messages. -/
theorem kind_of_nonce? {entry : Entry C} {nonce : Nonce}
    (h : entry.nonce? = some nonce) :
    (∃ seq, entry.event.ownSeq? = some seq ∧
        nonce = entry.material.ownNonce seq) ∨
      ∃ piv, entry.event.barePiv? = some piv := by
  unfold nonce? at h
  split at h
  · rename_i seq _ _ _ _ hevent
    exact Or.inl ⟨seq, by rw [hevent]; rfl, (Option.some.inj h).symm⟩
  · rename_i seq _ _ _ _ _ _ hevent
    exact Or.inl ⟨seq, by rw [hevent]; rfl, (Option.some.inj h).symm⟩
  · rename_i _ _ _ _ piv _ hevent
    exact Or.inr ⟨piv, by rw [hevent]; rfl⟩
  · cases h

end Entry

namespace Deployment

variable {C : Crypto} {σ ε : Type} {S : ContextStateStore σ ε}
  {K : SenderContract S} {sys sys' : Deployment C σ}

/-- Every entry but a registration records what an operation did. -/
def Logged (S : ContextStateStore σ ε) (sys : Deployment C σ) : Prop :=
  ∀ entry ∈ sys.log, entry.event = .registered ∨ entry.Acted S

theorem Logged.change (h : Logged S sys) {op : Op}
    (hchange : Change K sys op sys') : Logged S sys' := by
  cases hchange with
  | registered handle context store =>
      intro entry hentry
      rcases List.mem_cons.mp hentry with rfl | hentry
      · exact Or.inl rfl
      · exact h entry hentry
  | acted handle action session session' store event hlive heffect =>
      intro entry hentry
      rcases List.mem_append.mp hentry with hnew | hentry
      · obtain ⟨event, rfl, rfl⟩ :=
          Option.map_eq_some_iff.mp (Option.mem_toList.mp hnew)
        exact Or.inr ⟨session, sys.store, action, session', store, rfl,
          heffect⟩
      · exact h entry hentry
  | _ => exact h

theorem logged_run (K : SenderContract S) (store : σ) (ops : List Op) :
    Logged S (History.run (step S) (boot C store) ops) := by
  refine History.invariant (fun sys op h => h.change (step_change K sys op))
    ?_ ops
  intro entry hentry
  cases hentry

/-- Two messages of one sender, in the order of the log, with what the ledgers
of reserved sequences and of answered requests say about them. -/
theorem nonce_ne {later earlier : Entry C}
    (hlater : later.event = .registered ∨ later.Acted S)
    (hearlier : earlier.event = .registered ∨ earlier.Acted S)
    (hown : ∀ seq seq', later.event.ownSeq? = some seq →
      earlier.event.ownSeq? = some seq' →
      (later.material.contextId, seq) ≠ (earlier.material.contextId, seq'))
    (hbare : ∀ piv piv', later.event.barePiv? = some piv →
      earlier.event.barePiv? = some piv' →
      later.material.contextId = earlier.material.contextId →
      OscoreSeqNum.fromPiv piv ≠ OscoreSeqNum.fromPiv piv')
    (hsame : later.material.SameSender earlier.material) {nonce : Nonce}
    (h : later.nonce? = some nonce) : earlier.nonce? ≠ some nonce := by
  intro h'
  have hacted : later.Acted S := hlater.resolve_left fun hevent => by
    simp [Entry.nonce?, hevent] at h
  have hacted' : earlier.Acted S := hearlier.resolve_left fun hevent => by
    simp [Entry.nonce?, hevent] at h'
  rcases Entry.kind_of_nonce? h with ⟨seq, hseq, rfl⟩ | ⟨piv, hpiv⟩ <;>
    rcases Entry.kind_of_nonce? h' with ⟨seq', hseq', heq⟩ | ⟨piv', hpiv'⟩
  · have hsequence := hsame.ownNonce_injective heq
    exact hown seq seq' hseq hseq' (by rw [hsame.contextId, hsequence])
  · obtain ⟨request, -, hnonce⟩ := hacted'.bare hpiv'
    rw [hnonce, Option.some.injEq, Material.ownNonce, hsame.commonIv] at h'
    have hid := (computeNonce_injective earlier.material.recipientId_le
      later.material.senderId_le h').1
    exact earlier.material.ids_ne (hsame.senderId.symm.trans hid.symm)
  · obtain ⟨request, -, hnonce⟩ := hacted.bare hpiv
    rw [hnonce, heq, Option.some.injEq, Material.ownNonce,
      ← hsame.commonIv] at h
    have hid := (computeNonce_injective later.material.recipientId_le
      earlier.material.senderId_le h).1
    exact later.material.ids_ne (hsame.senderId.trans hid.symm)
  · obtain ⟨request, hrequest, hnonce⟩ := hacted.bare hpiv
    obtain ⟨request', hrequest', hnonce'⟩ := hacted'.bare hpiv'
    rw [hnonce, ← h', hnonce', Option.some.injEq, hsame.commonIv] at h
    have hsequence := (computeNonce_injective later.material.recipientId_le
      earlier.material.recipientId_le h).2
    refine hbare piv piv' hpiv hpiv' hsame.contextId ?_
    rw [hrequest, hrequest', hsequence]

/-- Whatever is released is encrypted under the nonce of its entry, and any two
messages of one sender context, of whatever kind, have different nonces. -/
structure NoncesUnique (sys : Deployment C σ) : Prop where
  sealed : ∀ entry ∈ sys.log, ∀ message,
    entry.event.protected? = some message →
    ∃ nonce, entry.nonce? = some nonce ∧ entry.SealedUnder nonce message
  unique : sys.log.Pairwise fun later earlier =>
    later.material.SameSender earlier.material → ∀ nonce,
      later.nonce? = some nonce → earlier.nonce? ≠ some nonce

/-- Over any contexts that share a store, crashes and restores, as long as no
response takes an unreserved sequence: the contexts of one secret, salt, ID
context and sender ID never encrypt under one nonce twice. -/
theorem nonces_unique (K : SenderContract S) (store : σ) (ops : List Op)
    (hguard : History.Guarded (step S) (fun sys op => ¬ sys.TakesUnreserved op)
      (boot C store) ops) :
    NoncesUnique (History.run (step S) (boot C store) ops) := by
  have hlogged := logged_run (C := C) K store ops
  have hown := List.pairwise_filterMap.mp (spentOnce_run K store hguard).nodup
  have hbare := answersOnce_of_oneOwner (oneOwner_run (C := C) K store ops)
  constructor
  · intro entry hentry message hmessage
    refine ((hlogged entry hentry).resolve_left fun hevent => ?_).sealed
      hmessage
    rw [hevent] at hmessage
    cases hmessage
  · refine (hown.and hbare).imp_of_mem ?_
    intro later earlier hmem hmem' h hsame nonce hnonce
    refine nonce_ne (hlogged later hmem) (hlogged earlier hmem') ?_ h.2 hsame
      hnonce
    intro seq seq' hseq hseq'
    exact h.1 _ (by simp [Entry.release?, hseq]) _
      (by simp [Entry.release?, hseq'])

theorem nonces_unique_reservedRun :
    NoncesUnique (History.run (step memoryStore)
      (boot Crypto.standIn MemoryState.empty) reservedRun) :=
  nonces_unique memoryStoreSender MemoryState.empty reservedRun
    (by simp [History.Guarded, reservedRun, TakesUnreserved])

end Deployment

end Oscore
