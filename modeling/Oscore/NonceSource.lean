/-
What a nonce says about the message encrypted under it: the identifier and the
sequence it was made from.  A message with a PIV of its own is made from the
sender ID, a response without one from the recipient ID, and a context keeps
the two apart.
-/
import Oscore.NonceUse
import Oscore.Sealing

namespace Oscore

open Rust

/-- The message that an operation released. -/
def Event.protected? : Event → Option Protected
  | .sentRequest _ _ _ _ message => some message
  | .sentResponse _ _ _ _ _ _ message => some message
  | _ => none

/-- The operation encrypts under a PIV of its own, not under that of the
request it answers. -/
def Action.ownPiv : Action → Bool
  | .protectRequest .. => true
  | .protectResponseWithPiv .. => true
  | .protectResponse _ _ _ _ _ includePiv => includePiv
  | _ => false

/-- A sealed message comes from an encryption under its nonce. -/
theorem Context.sealing?_of_sealMessage {C : Crypto} {self : Context C}
    {nonce : Nonce} {requestKid requestPiv : Bytes} {code : UInt8}
    {classEOptions payload : Bytes} {ctOut : HVec ctCap}
    (h : sealMessage C self.senderKey nonce requestKid requestPiv code
      classEOptions payload = .ok ctOut) :
    ∃ s, self.sealing? nonce requestKid requestPiv code classEOptions payload =
      some s ∧ ctOut.toList = s.ciphertext := by
  obtain ⟨aad, body, tag, haad, hencrypt, hout⟩ := sealMessage_eq_ok.mp h
  have hfit : (innerPlaintext code classEOptions payload).length ≤ ctCap :=
    Nat.le_trans (Nat.le_add_right _ tagLen)
      (length_innerPlaintext code classEOptions payload ▸
        ctRequired_of_sealMessage h)
  have hplain : buildPlaintext code classEOptions payload =
      .ok ⟨innerPlaintext code classEOptions payload, hfit⟩ := by
    rw [buildPlaintext_eq, okOr_eq_ok, HVec.extend_eq_some]
    rfl
  refine ⟨⟨self.senderKey, nonce, aad.toList, body ++ tag.val,
    innerPlaintext code classEOptions payload⟩, ?_, hout⟩
  simp only [sealing?, hplain, haad, hencrypt, Option.map_some]

namespace Session

variable {C : Crypto} {σ ε : Type}

theorem sealing?_response {context after : Context C} {code : UInt8}
    {classEOptions payload requestKid requestPiv noncePiv : Bytes}
    {includePiv : Bool} {respSeq : Option OscoreSeqNum}
    (hrequest : ¬ context.badRequest requestKid requestPiv)
    (hactive : context.active = true)
    (hallowed : ¬ (includePiv = false ∧ context.allowNoPivResponse = false))
    (hpiv : (Context.responsePiv requestPiv includePiv).run context =
      .ok (noncePiv, respSeq) after) :
    sealing? ⟨context, .free⟩ (.protectResponse code classEOptions payload
        requestKid requestPiv includePiv) =
      context.sealing? (computeNonce (if includePiv then context.senderId
        else requestKid) noncePiv context.commonIv) requestKid requestPiv code
        classEOptions payload := by
  have hchecks : ¬ (context.badRequest requestKid requestPiv ∨
      context.active = false ∨
        (includePiv = false ∧ context.allowNoPivResponse = false)) := by
    rintro (hbad | hinactive | hforbidden)
    · exact hrequest hbad
    · exact Bool.noConfusion (hactive.symm.trans hinactive)
    · exact hallowed hforbidden
  simp only [sealing?, if_neg hchecks, hpiv]

/-- Whatever is released was encrypted by the operation. -/
theorem sealing?_of_sent (S : ContextStateStore σ ε) {session : Session C}
    {store : σ} {action : Action} {event : Event} {message : Protected}
    (h : (session.act S store action).2.2 = some event)
    (hmessage : event.protected? = some message) :
    ∃ s, session.sealing? action = some s ∧
      message.1.toList = s.ciphertext := by
  have heffect := act_effect S session store action
  rw [h] at heffect
  generalize (act S session store action).1 = session' at heffect
  generalize (act S session store action).2.1 = store' at heffect
  obtain ⟨context, borrow⟩ := session
  cases heffect with
  | sentRequest sender code classEOptions payload sent holds ok =>
      obtain rfl := Option.some.inj hmessage
      obtain rfl : borrow = .reserved sender := holds
      exact Context.sealing?_of_sealMessage
        (Context.protectRequestReserved_eq_ok.mp ok).1
  | sentResponse sender code classEOptions payload requestKid requestPiv sent
      holds ok =>
      obtain rfl := Option.some.inj hmessage
      obtain rfl : borrow = .reserved sender := holds
      obtain ⟨hrequest, hseal, -⟩ :=
        Context.protectResponseWithReservedPiv_eq_ok.mp ok
      simp only [sealing?, if_neg hrequest]
      exact Context.sealing?_of_sealMessage hseal
  | sentOwn code classEOptions payload requestKid requestPiv sent holds active
      request below ok =>
      obtain rfl := Option.some.inj hmessage
      obtain rfl : borrow = .free := holds
      rw [sealing?_response request active (by simp)
        (Context.responsePiv_eq_ok.mpr (Or.inl ⟨rfl, below, rfl, rfl, rfl⟩))]
      exact Context.sealing?_of_sealMessage
        (Context.sealResponse_eq_ok.mp ok).1
  | sentBare seq code classEOptions payload requestKid requestPiv sent active
      request bare ok =>
      obtain rfl := Option.some.inj hmessage
      cases borrow with
      | free =>
          have hallowed : ¬ (false = false ∧
              context.allowNoPivResponse = false) :=
            fun h => Bool.noConfusion (bare.allowed.symm.trans h.2)
          rw [sealing?_response request active hallowed
            (Context.responsePiv_eq_ok.mpr
              (Or.inr ⟨seq, rfl, bare.seq_eq, bare.fresh, rfl, rfl, rfl⟩))]
          exact Context.sealing?_of_sealMessage
            (Context.sealResponse_eq_ok.mp ok).1
      | reserved sender => cases h
      | pending call response begun => cases h
  | _ => cases hmessage

/-- The identifier that the nonce of an operation is made from. -/
def nonceId (session : Session C) (action : Action) : Bytes :=
  if action.ownPiv = true then session.context.senderId
  else session.context.recipientId

theorem nonceId_le (session : Session C) (action : Action) :
    (session.nonceId action).length ≤ nonceIdLen := by
  unfold nonceId
  split
  · exact session.context.senderId_le
  · exact session.context.recipientId_le

theorem nonce_of_sealing? {session : Session C} {action : Action}
    {s : Sealing} (h : session.sealing? action = some s) :
    ∃ seq : OscoreSeqNum, s.nonce = computeNonce (session.nonceId action)
      seq.encodePiv session.context.commonIv := by
  cases encrypts_of_sealing? h with
  | request sender code classEOptions payload holds ok =>
      obtain ⟨_, _, _, -, -, rfl⟩ := Context.sealing?_eq_some ok
      exact ⟨sender.sequence, rfl⟩
  | response sender code classEOptions payload requestKid requestPiv holds
      request ok =>
      obtain ⟨_, _, _, -, -, rfl⟩ := Context.sealing?_eq_some ok
      exact ⟨sender.sequence, rfl⟩
  | unreserved code classEOptions payload requestKid requestPiv includePiv
      noncePiv respSeq after holds request active allowed piv ok =>
      obtain ⟨_, _, _, -, -, rfl⟩ := Context.sealing?_eq_some ok
      rcases Context.responsePiv_eq_ok.mp piv with
        ⟨rfl, -, rfl, -, -⟩ | ⟨seq, rfl, hseq, -, rfl, -, -⟩
      · exact ⟨session.context.senderSeq, rfl⟩
      · -- the request PIV is the one its sequence is written as
        obtain ⟨rfl, -⟩ := request_of_not_bad request
        rw [OscoreSeqNum.fromPiv_eq_some.mp hseq]
        exact ⟨seq, rfl⟩

/-- A nonce of one sender context is never used for both kinds. -/
theorem nonce_ne_of_ownPiv {own bare : Session C} {send answer : Action}
    {s t : Sealing}
    (hsame : own.context.toMaterial.SameSender bare.context.toMaterial)
    (hown : send.ownPiv = true) (hbare : answer.ownPiv = false)
    (hs : own.sealing? send = some s) (ht : bare.sealing? answer = some t) :
    s.nonce ≠ t.nonce := by
  intro heq
  obtain ⟨seq, hseq⟩ := nonce_of_sealing? hs
  obtain ⟨seq', hseq'⟩ := nonce_of_sealing? ht
  rw [hseq, hseq', hsame.commonIv] at heq
  have hid := (computeNonce_injective (own.nonceId_le send)
    (bare.nonceId_le answer) heq).1
  rw [nonceId, if_pos hown, nonceId, if_neg (by simp [hbare]),
    hsame.senderId] at hid
  exact bare.context.ids_ne hid

end Session

/-- Nonces determine the identifier and the sequence they are made from, and
thereby keep messages with a PIV apart from responses without one, in whatever
states the contexts of one sender are. -/
structure NoncesNameSource (C : Crypto) : Prop where
  injective : ∀ (iv : Nonce) (id₁ id₂ : Bytes) (s₁ s₂ : OscoreSeqNum),
    id₁.length ≤ nonceIdLen → id₂.length ≤ nonceIdLen →
    computeNonce id₁ s₁.encodePiv iv = computeNonce id₂ s₂.encodePiv iv →
    id₁ = id₂ ∧ s₁ = s₂
  sealed : ∀ {σ ε : Type} (S : ContextStateStore σ ε) (session : Session C)
    (store : σ) (action : Action) (event : Event) (message : Protected),
    (session.act S store action).2.2 = some event →
    event.protected? = some message →
    ∃ s, session.sealing? action = some s ∧ message.1.toList = s.ciphertext
  apart : ∀ (own bare : Session C) (send answer : Action) (s t : Sealing),
    own.context.toMaterial.SameSender bare.context.toMaterial →
    send.ownPiv = true → answer.ownPiv = false →
    own.sealing? send = some s → bare.sealing? answer = some t →
    s.nonce ≠ t.nonce

theorem nonces_name_source (C : Crypto) : NoncesNameSource C where
  injective _ _ _ _ _ hid₁ hid₂ h := computeNonce_injective hid₁ hid₂ h
  sealed S _ _ _ _ _ h hmessage := Session.sealing?_of_sent S h hmessage
  apart _ _ _ _ _ _ hsame hown hbare hs ht :=
    Session.nonce_ne_of_ownPiv hsame hown hbare hs ht

end Oscore
