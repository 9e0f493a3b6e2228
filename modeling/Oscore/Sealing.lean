/-
What the protect and unprotect calls ask of AES-CCM: the encryption behind a
released message, and the encryption a successful decryption undoes.
-/
import Oscore.RoundTrip
import Oscore.Session

namespace Oscore

open Rust Rust.Call

/-- What one AES-CCM call relates; the ciphertext includes the tag. -/
structure Sealing where
  key : Key
  nonce : Nonce
  aad : Bytes
  ciphertext : Bytes
  plaintext : Bytes
deriving DecidableEq

/-- The plaintext bytes of a released message. -/
def plaintextOf (message : Message) : Bytes :=
  innerPlaintext message.1 message.2.1.toList message.2.2.toList

namespace Context

variable {C : Crypto}

/-- The encryption that protecting a message under `nonce` performs. -/
def sealing? (self : Context C) (nonce : Nonce) (requestKid requestPiv : Bytes)
    (code : UInt8) (classEOptions payload : Bytes) : Option Sealing :=
  match buildPlaintext code classEOptions payload,
      buildAadCbor requestKid requestPiv 64 with
  | .ok plaintext, .ok aad =>
      (C.ccmEncrypt self.senderKey nonce aad.toList plaintext.toList).map
        fun (body, tag) => ⟨self.senderKey, nonce, aad.toList, body ++ tag.val,
          plaintext.toList⟩
  | _, _ => none

/-- The encryption that a decryption undoes, if it succeeds. -/
def opening? (self : Context C) (nonce : Nonce)
    (requestKid requestPiv ciphertext : Bytes) : Option Sealing :=
  match buildAadCbor requestKid requestPiv 64 with
  | .error _ => none
  | .ok aad =>
      match openMessage C self.recipientKey nonce aad.toList ciphertext with
      | .error _ => none
      | .ok plaintext => some ⟨self.recipientKey, nonce, aad.toList, ciphertext,
          plaintext.toList⟩

theorem sealing?_eq_some {self : Context C} {nonce : Nonce}
    {requestKid requestPiv : Bytes} {code : UInt8}
    {classEOptions payload : Bytes} {s : Sealing}
    (h : self.sealing? nonce requestKid requestPiv code classEOptions payload =
      some s) :
    ∃ aad body tag, buildAadCbor requestKid requestPiv 64 = .ok aad ∧
      C.ccmEncrypt self.senderKey nonce aad.toList
        (innerPlaintext code classEOptions payload) = some (body, tag) ∧
      s = ⟨self.senderKey, nonce, aad.toList, body ++ tag.val,
        innerPlaintext code classEOptions payload⟩ := by
  unfold sealing? at h
  split at h
  · rename_i plaintext aad hplain haad
    rw [buildPlaintext_eq, okOr_eq_ok, HVec.extend_eq_some] at hplain
    obtain ⟨⟨body, tag⟩, hencrypt, rfl⟩ := Option.map_eq_some_iff.mp h
    rw [HVec.toList_empty, List.nil_append] at hplain
    exact ⟨aad, body, tag, haad, hplain ▸ hencrypt, by rw [hplain]⟩
  · cases h

/-- An encryption the peer has room for is completed. -/
theorem sealMessage_of_sealing? {self : Context C} {nonce : Nonce}
    {requestKid requestPiv : Bytes} {code : UInt8}
    {classEOptions payload : Bytes} {s : Sealing}
    (h : self.sealing? nonce requestKid requestPiv code classEOptions payload =
      some s) (hfit : s.plaintext.length ≤ ptCap) :
    ∃ ctOut, sealMessage C self.senderKey nonce requestKid requestPiv code
        classEOptions payload = .ok ctOut ∧ ctOut.toList = s.ciphertext := by
  obtain ⟨aad, body, tag, haad, hencrypt, rfl⟩ := sealing?_eq_some h
  have hlength := C.ccmEncrypt_length _ _ _ _ _ _ hencrypt
  have hout : (body ++ tag.val).length ≤ ctCap := by
    rw [List.length_append, tag.property, hlength]
    simp only [ptCap, tagLen, ctCap] at *
    omega
  exact ⟨⟨body ++ tag.val, hout⟩, sealMessage_eq_ok.mpr
    ⟨aad, body, tag, haad, hencrypt, rfl⟩, rfl⟩

theorem aad_of_sealing? {self : Context C} {nonce : Nonce}
    {requestKid requestPiv : Bytes} {code : UInt8}
    {classEOptions payload : Bytes} {s : Sealing}
    (h : self.sealing? nonce requestKid requestPiv code classEOptions payload =
      some s) (hfits : FitsAad requestKid requestPiv) :
    s.aad = aadBytes requestKid requestPiv ∧
      s.plaintext = innerPlaintext code classEOptions payload := by
  obtain ⟨aad, body, tag, haad, -, rfl⟩ := sealing?_eq_some h
  obtain ⟨aad', haad', hbytes⟩ := buildAadCbor_of_fits hfits
  rw [haad, Except.ok.injEq] at haad'
  subst haad'
  exact ⟨hbytes, rfl⟩

theorem opening?_of_opens {self : Context C} {nonce : Nonce}
    {requestKid requestPiv ciphertext : Bytes} {plaintext : HVec ptCap}
    {code : UInt8} {body : HVec outCap × HVec outCap}
    (hfits : FitsAad requestKid requestPiv)
    (h : self.Opens nonce requestKid requestPiv ciphertext plaintext code
      body) :
    plaintext.toList = innerPlaintext code body.1.toList body.2.toList ∧
      self.opening? nonce requestKid requestPiv ciphertext =
        some ⟨self.recipientKey, nonce, aadBytes requestKid requestPiv,
          ciphertext, plaintext.toList⟩ := by
  obtain ⟨aad, rest, haad, hopen, hplain, hbody⟩ := h
  obtain ⟨aad', haad', hbytes⟩ := buildAadCbor_of_fits hfits
  rw [haad, Except.ok.injEq] at haad'
  subst haad'
  constructor
  · rw [hplain, releaseBody_join hbody, innerPlaintext_eq]
  · rw [← hbytes]
    simp only [opening?, haad, hopen]

end Context

namespace Session

variable {C : Crypto} {σ ε : Type}

/-- The encryption an operation performs, whether or not it is released. -/
def sealing? (session : Session C) (action : Action) : Option Sealing :=
  let context := session.context
  match action, session.borrow with
  | .protectRequest code classEOptions payload, .reserved sender =>
      context.sealing? (computeNonce context.senderId
          sender.sequence.encodePiv context.commonIv) context.senderId
        sender.sequence.encodePiv code classEOptions payload
  | .protectResponseWithPiv code classEOptions payload requestKid requestPiv,
      .reserved sender =>
      if context.badRequest requestKid requestPiv then none
      else context.sealing? (computeNonce context.senderId
          sender.sequence.encodePiv context.commonIv) requestKid requestPiv
        code classEOptions payload
  | .protectResponse code classEOptions payload requestKid requestPiv
      includePiv, .free =>
      if context.badRequest requestKid requestPiv ∨ context.active = false ∨
          (includePiv = false ∧ context.allowNoPivResponse = false) then none
      else
        match (Context.responsePiv requestPiv includePiv).run context with
        | .error _ _ => none
        | .ok (noncePiv, _) _ =>
            context.sealing?
              (computeNonce (if includePiv then context.senderId
                else requestKid) noncePiv context.commonIv)
              requestKid requestPiv code classEOptions payload
  | _, _ => none

/-- The encryption that the decryption of an operation undoes, if it
succeeds. -/
def opening? (session : Session C) (action : Action) : Option Sealing :=
  let context := session.context
  match action, session.borrow with
  | .unprotectRequest oscoreOption ciphertext, .free =>
      match parseOption oscoreOption with
      | .error _ => none
      | .ok opt => context.opening? (computeNonce context.recipientId opt.piv
          context.commonIv) opt.kid opt.piv ciphertext
  | .beginResponse call, .free =>
      match parseOption call.oscoreOption with
      | .error _ => none
      | .ok opt => context.opening? (computeNonce
            (if opt.piv ≠ [] then context.recipientId else context.senderId)
            (if opt.piv ≠ [] then opt.piv else call.requestPiv)
            context.commonIv)
          context.senderId call.requestPiv call.ciphertext
  | _, _ => none

/-- The call ends with a request that encrypts as `s`. -/
def SendsRequest (material : Material C) (event : Option Event)
    (s : Sealing) : Prop :=
  ∃ seq code classEOptions payload message,
    event = some (.sentRequest seq code classEOptions payload message) ∧
      s.aad = aadBytes material.senderId seq.encodePiv ∧
      message.1.toList = s.ciphertext ∧
      innerPlaintext code classEOptions payload = s.plaintext

/-- The call ends with a response that encrypts as `s`, to a request of the
peer. -/
def SendsResponse (material : Material C) (event : Option Event)
    (s : Sealing) : Prop :=
  ∃ ownSeq code classEOptions payload requestPiv message,
    event = some (.sentResponse ownSeq code classEOptions payload
        material.recipientId requestPiv message) ∧
      requestPiv.length ≤ pivMaxLen ∧
      s.aad = aadBytes material.recipientId requestPiv ∧
      message.1.toList = s.ciphertext ∧
      innerPlaintext code classEOptions payload = s.plaintext

/-- The three ways an operation encrypts. -/
inductive Encrypts (session : Session C) (s : Sealing) : Action → Prop where
  | request (sender : ReservedSender) (code : UInt8)
      (classEOptions payload : Bytes)
      (holds : session.borrow = .reserved sender)
      (ok : session.context.sealing? (computeNonce session.context.senderId
          sender.sequence.encodePiv session.context.commonIv)
        session.context.senderId sender.sequence.encodePiv code classEOptions
        payload = some s) :
      Encrypts session s (.protectRequest code classEOptions payload)
  | response (sender : ReservedSender) (code : UInt8)
      (classEOptions payload requestKid requestPiv : Bytes)
      (holds : session.borrow = .reserved sender)
      (request : ¬ session.context.badRequest requestKid requestPiv)
      (ok : session.context.sealing? (computeNonce session.context.senderId
          sender.sequence.encodePiv session.context.commonIv) requestKid
        requestPiv code classEOptions payload = some s) :
      Encrypts session s (.protectResponseWithPiv code classEOptions payload
        requestKid requestPiv)
  | unreserved (code : UInt8)
      (classEOptions payload requestKid requestPiv : Bytes)
      (includePiv : Bool) (noncePiv : Bytes) (respSeq : Option OscoreSeqNum)
      (after : Context C)
      (holds : session.borrow = .free)
      (request : ¬ session.context.badRequest requestKid requestPiv)
      (active : session.context.active = true)
      (allowed : ¬ (includePiv = false ∧
        session.context.allowNoPivResponse = false))
      (piv : (Context.responsePiv requestPiv includePiv).run session.context =
        .ok (noncePiv, respSeq) after)
      (ok : session.context.sealing? (computeNonce
          (if includePiv then session.context.senderId else requestKid)
          noncePiv session.context.commonIv) requestKid requestPiv code
        classEOptions payload = some s) :
      Encrypts session s (.protectResponse code classEOptions payload
        requestKid requestPiv includePiv)

theorem encrypts_of_sealing? {session : Session C} {action : Action}
    {s : Sealing} (h : session.sealing? action = some s) :
    session.Encrypts s action := by
  obtain ⟨context, borrow⟩ := session
  cases action with
  | protectRequest code classEOptions payload =>
      cases borrow with
      | reserved sender =>
          exact .request sender code classEOptions payload rfl h
      | free => cases h
      | pending call response begun => cases h
  | protectResponseWithPiv code classEOptions payload requestKid requestPiv =>
      cases borrow with
      | reserved sender =>
          simp only [sealing?] at h
          split at h
          · cases h
          · rename_i hrequest
            exact .response sender code classEOptions payload requestKid
              requestPiv rfl hrequest h
      | free => cases h
      | pending call response begun => cases h
  | protectResponse code classEOptions payload requestKid requestPiv
      includePiv =>
      cases borrow with
      | free =>
          simp only [sealing?] at h
          split at h
          · cases h
          · rename_i hchecks
            simp only [not_or, Bool.not_eq_false] at hchecks
            obtain ⟨hrequest, hactive, hallowed⟩ := hchecks
            split at h
            · cases h
            · rename_i noncePiv respSeq after hpiv
              exact .unreserved code classEOptions payload requestKid
                requestPiv includePiv noncePiv respSeq after rfl hrequest
                hactive hallowed hpiv h
      | reserved sender => cases h
      | pending call response begun => cases h
  | _ => cases borrow <;> cases h

/-- The request a response may answer is one of the peer. -/
theorem request_of_not_bad {context : Context C}
    {requestKid requestPiv : Bytes}
    (h : ¬ context.badRequest requestKid requestPiv) :
    requestKid = context.recipientId ∧ requestPiv.length ≤ pivMaxLen := by
  simp only [Context.badRequest, not_or, Bool.not_eq_true,
    Option.isNone_eq_false_iff, Option.isSome_iff_exists, not_not, ne_eq] at h
  obtain ⟨-, ⟨seq, hseq⟩, hkid⟩ := h
  exact ⟨hkid, (OscoreSeqNum.length_of_fromPiv hseq).2⟩

theorem key_of_sealing? {session : Session C} {action : Action} {s : Sealing}
    (h : session.sealing? action = some s) :
    s.key = session.context.senderKey := by
  cases encrypts_of_sealing? h with
  | request | response | unreserved =>
      rename_i ok
      obtain ⟨_, _, _, -, -, rfl⟩ := Context.sealing?_eq_some ok
      rfl

/-- An encryption the peer has room for ends in a released message. -/
theorem sends_of_sealing? (S : ContextStateStore σ ε) (store : σ)
    {session : Session C} {action : Action} {s : Sealing}
    (h : session.sealing? action = some s)
    (hfit : s.plaintext.length ≤ ptCap) :
    SendsRequest session.context.toMaterial
        (session.act S store action).2.2 s ∨
      SendsResponse session.context.toMaterial
        (session.act S store action).2.2 s := by
  obtain ⟨context, borrow⟩ := session
  cases encrypts_of_sealing? h with
  | request sender code classEOptions payload holds ok =>
      obtain rfl : borrow = .reserved sender := holds
      obtain ⟨ctOut, hseal, hout⟩ := Context.sealMessage_of_sealing? ok hfit
      obtain ⟨opt, hoption⟩ := context.exists_requestOption sender.sequence
      have hprotect : context.protectRequestReserved sender.sequence code
          classEOptions payload = .ok (ctOut, opt) :=
        Context.protectRequestReserved_eq_ok.mpr ⟨hseal, hoption⟩
      obtain ⟨haad, hplain⟩ := Context.aad_of_sealing? ok
        ⟨context.senderId_le, sender.sequence.length_encodePiv_le⟩
      refine Or.inl ⟨sender.sequence, code, classEOptions, payload,
        (ctOut, opt), ?_, haad, hout, hplain.symm⟩
      simp only [act, ReservedSender.protectRequest, hprotect]
  | response sender code classEOptions payload requestKid requestPiv holds
      request ok =>
      obtain rfl : borrow = .reserved sender := holds
      obtain ⟨rfl, hpiv⟩ := request_of_not_bad request
      obtain ⟨ctOut, hseal, hout⟩ := Context.sealMessage_of_sealing? ok hfit
      obtain ⟨opt, hoption⟩ := Context.exists_responseOption sender.sequence
      have hprotect : context.protectResponseWithReservedPiv sender.sequence
          code classEOptions payload context.recipientId requestPiv =
            .ok (ctOut, opt) :=
        Context.protectResponseWithReservedPiv_eq_ok.mpr
          ⟨request, hseal, hoption⟩
      obtain ⟨haad, hplain⟩ := Context.aad_of_sealing? ok
        ⟨context.recipientId_le, hpiv⟩
      refine Or.inr ⟨some sender.sequence, code, classEOptions, payload,
        requestPiv, (ctOut, opt), ?_, hpiv, haad, hout, hplain.symm⟩
      simp only [act, ReservedSender.protectResponseWithPiv, hprotect]
  | unreserved code classEOptions payload requestKid requestPiv includePiv
      noncePiv respSeq after holds request active allowed piv ok =>
      obtain rfl : borrow = .free := holds
      obtain ⟨rfl, hlength⟩ := request_of_not_bad request
      obtain ⟨ctOut, hseal, hout⟩ := Context.sealMessage_of_sealing? ok hfit
      obtain ⟨haad, hplain⟩ := Context.aad_of_sealing? ok
        ⟨context.recipientId_le, hlength⟩
      obtain ⟨opt, after', hprotect⟩ : ∃ opt after',
          (Context.protectResponse code classEOptions payload
            context.recipientId requestPiv includePiv).run context =
              .ok (ctOut, opt) after' := by
        rcases Context.responsePiv_eq_ok.mp piv with
          ⟨rfl, hlt, rfl, rfl, rfl⟩ | ⟨seq, rfl, hseq, hfresh, rfl, rfl, rfl⟩
        · obtain ⟨opt, hoption⟩ :=
            Context.exists_responseOption context.senderSeq
          exact ⟨opt, _, Context.protectResponse_eq_ok.mpr ⟨active, request,
            Or.inl ⟨rfl, hlt,
              Context.sealResponse_eq_ok.mpr ⟨hseal, hoption⟩, rfl⟩⟩⟩
        · have hallowed : after.allowNoPivResponse = true := by
            simpa using allowed
          exact ⟨HVec.empty, _, Context.protectResponse_eq_ok.mpr ⟨active,
            request, Or.inr ⟨rfl, seq, ⟨hallowed, hseq, hfresh⟩,
              Context.sealResponse_eq_ok.mpr ⟨hseal, rfl⟩, rfl⟩⟩⟩
      refine Or.inr ⟨if includePiv then some context.senderSeq else none, code,
        classEOptions, payload, requestPiv, (ctOut, opt), ?_, hlength, haad,
        hout, hplain.symm⟩
      simp only [act, hprotect]

/-- The recipient opened this ciphertext as part of an exchange that the
identifier and PIV name. -/
structure Opened (material : Material C)
    (requestKid requestPiv ciphertext plaintext : Bytes) (s : Sealing) :
    Prop where
  key : s.key = material.recipientKey
  aad : s.aad = aadBytes requestKid requestPiv
  fits : FitsAad requestKid requestPiv
  ciphertext : s.ciphertext = ciphertext
  plaintext : s.plaintext = plaintext
  short : s.plaintext.length ≤ ptCap

theorem opened_request {session : Session C} {oscoreOption ciphertext : Bytes}
    {opt : OscoreOption} {seq : OscoreSeqNum} {plaintext : HVec ptCap}
    {message : Message} (holds : session.borrow = .free)
    (h : session.context.AcceptsRequest oscoreOption ciphertext opt seq
      plaintext message) :
    ∃ s, session.opening? (.unprotectRequest oscoreOption ciphertext) =
        some s ∧
      Opened session.context.toMaterial session.context.recipientId opt.piv
        ciphertext (plaintextOf message) s := by
  obtain ⟨context, borrow⟩ := session
  obtain rfl : borrow = .free := holds
  have hfits : FitsAad opt.kid opt.piv :=
    ⟨h.kid_eq ▸ context.recipientId_le,
      (OscoreSeqNum.length_of_fromPiv h.seq_eq).2⟩
  obtain ⟨hplain, hopening⟩ := Context.opening?_of_opens hfits h.opens
  have hkid := h.kid_eq
  have hquery : Session.opening? ⟨context, .free⟩
      (.unprotectRequest oscoreOption ciphertext) =
        context.opening? (computeNonce context.recipientId opt.piv
          context.commonIv) opt.kid opt.piv ciphertext := by
    simp only [opening?, h.parsed]
  exact ⟨_, hquery.trans hopening, rfl, congrArg (aadBytes · opt.piv) hkid,
    hkid ▸ hfits, rfl, hplain, plaintext.length_le⟩

theorem opened_response {session : Session C} {call : ResponseCall}
    {opt : OscoreOption} {plaintext : HVec ptCap} {pending : PendingResponse}
    (holds : session.borrow = .free)
    (h : session.context.Authenticates call opt plaintext pending) :
    ∃ s, session.opening? (.beginResponse call) = some s ∧
      Opened session.context.toMaterial session.context.senderId
        call.requestPiv call.ciphertext
        (plaintextOf (pending.code, pending.options, pending.payload)) s := by
  obtain ⟨context, borrow⟩ := session
  obtain rfl : borrow = .free := holds
  have hfits : FitsAad context.senderId call.requestPiv :=
    ⟨context.senderId_le,
      (OscoreSeqNum.length_of_fromPiv h.requestSeq_eq).2⟩
  obtain ⟨hplain, hopening⟩ := Context.opening?_of_opens hfits h.opens
  have hquery : Session.opening? ⟨context, .free⟩ (.beginResponse call) =
      context.opening? (computeNonce
          (if opt.piv ≠ [] then context.recipientId else context.senderId)
          (if opt.piv ≠ [] then opt.piv else call.requestPiv)
          context.commonIv)
        context.senderId call.requestPiv call.ciphertext := by
    simp only [opening?, h.parsed]
  exact ⟨_, hquery.trans hopening, rfl, rfl, hfits, rfl, hplain,
    plaintext.length_le⟩

end Session

end Oscore
