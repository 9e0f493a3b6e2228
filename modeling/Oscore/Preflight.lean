/-
The two preflight checks against what the peer then does.  They bound options
and payload one by one, where the receiver also bounds their sum, and only the
one for responses checks that the options are complete.
-/
import Oscore.InnerBody
import Oscore.KeyRecord
import Oscore.Store

namespace Oscore

open Rust

/-- The plaintext fits the buffer the receiver decrypts it in. -/
def FitsReceiver (classEOptions payload : Bytes) : Prop :=
  ctRequired classEOptions payload ≤ ptCap + tagLen

namespace Context

variable {C : Crypto}

theorem requiredFits_eq_ok {classEOptions payload : Bytes} {u : Unit} :
    requiredFits classEOptions payload = .ok u ↔
      ctRequired classEOptions payload ≤ ctCap := by
  have hmarker : 1 + classEOptions.length + (if payload = [] then 0 else 1) +
      payload.length + tagLen = ctRequired classEOptions payload := by
    unfold ctRequired
    by_cases hpayload : payload = []
    · simp [hpayload]
    · simp only [hpayload, ↓reduceIte]
      omega
  simp only [requiredFits, checkedAdd, Outcome.bind_eq_ok, okOr_eq_ok,
    failIf_eq_ok, Option.bind_eq_some_iff, Option.ite_none_right_eq_some,
    Option.some.injEq, Nat.not_lt]
  constructor
  · rintro ⟨_, ⟨_, ⟨-, rfl⟩, _, ⟨-, rfl⟩, _, ⟨-, rfl⟩, -, rfl⟩, hle⟩
    rwa [hmarker] at hle
  · intro hle
    rw [← hmarker] at hle
    simp only [ctCap, tagLen, usizeMax] at hle ⊢
    exact ⟨_, ⟨_, ⟨by omega, rfl⟩, _, ⟨by omega, rfl⟩, _, ⟨by omega, rfl⟩,
      by omega, rfl⟩, hle⟩

theorem receiverCaps_eq_ok {classEOptions payload : Bytes} {u : Unit} :
    receiverCaps classEOptions payload = .ok u ↔
      classEOptions.length ≤ outCap ∧ payload.length ≤ outCap := by
  simp [receiverCaps, Outcome.bind_eq_ok]

/-- Options and payload that fit the released buffers fit the output. -/
theorem ctRequired_le {classEOptions payload : Bytes}
    (hoptions : classEOptions.length ≤ outCap)
    (hpayload : payload.length ≤ outCap) :
    ctRequired classEOptions payload ≤ ctCap := by
  simp only [ctRequired, outCap, ctCap, tagLen] at *
  split <;> omega

theorem preflightProtectRequest_eq_ok {self : Context C}
    {classEOptions payload : Bytes} :
    self.preflightProtectRequest classEOptions payload = .ok () ↔
      self.active = true ∧ classEOptions.length ≤ outCap ∧
        payload.length ≤ outCap := by
  simp only [preflightProtectRequest, Outcome.bind_eq_ok, failIf_eq_ok,
    receiverCaps_eq_ok, requiredFits_eq_ok, exists_const, Bool.not_eq_false]
  constructor
  · rintro ⟨hactive, hcaps, -⟩
    exact ⟨hactive, hcaps⟩
  · rintro ⟨hactive, hcaps⟩
    refine ⟨hactive, hcaps, ctRequired_le hcaps.1 hcaps.2, ?_⟩
    -- The option of a request always fits.
    have hcontext := self.idContext_le
    have hsender := self.senderId_le
    simp only [pivMaxLen, oscoreOptionMaxLen, idContextCapacity, nonceIdLen,
      nonceIdEnd] at hcontext hsender ⊢
    split
    · rename_i bytes hcase
      simp only [hcase, Option.getD_some] at hcontext
      omega
    · omega

theorem preflightProtectResponse_eq_ok {self : Context C}
    {classEOptions payload requestKid requestPiv : Bytes} :
    self.preflightProtectResponse classEOptions payload requestKid
        requestPiv = .ok () ↔
      self.active = true ∧ ¬ self.badRequest requestKid requestPiv ∧
        classEOptions.length ≤ outCap ∧ payload.length ≤ outCap ∧
        parseInnerBody classEOptions = .ok (classEOptions, []) := by
  simp only [preflightProtectResponse, Outcome.bind_eq_ok, failIf_eq_ok,
    receiverCaps_eq_ok, requiredFits_eq_ok, exists_const, not_or,
    Bool.not_eq_false, not_not, Prod.exists, ne_eq]
  constructor
  · rintro ⟨⟨hactive, hrequest⟩, hcaps, _, _, hparse, ⟨rfl, rfl⟩, -⟩
    exact ⟨hactive, hrequest, hcaps.1, hcaps.2, hparse⟩
  · rintro ⟨hactive, hrequest, hoptions, hpayload, hparse⟩
    exact ⟨⟨hactive, hrequest⟩, ⟨hoptions, hpayload⟩, _, _, hparse,
      ⟨rfl, rfl⟩, ctRequired_le hoptions hpayload⟩

/-- The call of the peer hands out exactly this message. -/
def Delivers (received : Call (Context C) OscoreError Message)
    (peer : Context C) (code : UInt8) (classEOptions payload : Bytes) : Prop :=
  ∃ message after, received.run peer = .ok message after ∧
    message.1 = code ∧ message.2.1.toList = classEOptions ∧
    message.2.2.toList = payload

theorem length_of_sealMessage {key : Key} {nonce : Nonce}
    {requestKid requestPiv : Bytes} {code : UInt8}
    {classEOptions payload : Bytes} {ctOut : HVec ctCap}
    (h : sealMessage C key nonce requestKid requestPiv code classEOptions
      payload = .ok ctOut) :
    ctOut.toList.length = ctRequired classEOptions payload := by
  obtain ⟨aad, body, tag, -, hencrypt, hout⟩ := sealMessage_eq_ok.mp h
  rw [hout, List.length_append, tag.property,
    C.ccmEncrypt_length _ _ _ _ _ _ hencrypt, length_innerPlaintext]

theorem le_ctRequired (classEOptions payload : Bytes) :
    tagLen + 1 ≤ ctRequired classEOptions payload := by
  simp only [ctRequired, tagLen]
  omega

/-- A sealed message is released as it was written exactly when its plaintext
fits the receiver and its options are complete. -/
theorem opens_exactly_iff (haead : C.AeadCorrect) {self : Context C}
    {nonce : Nonce} {requestKid requestPiv : Bytes} {code : UInt8}
    {options payload : HVec outCap} {ctOut : HVec ctCap}
    (hseal : sealMessage C self.recipientKey nonce requestKid requestPiv code
      options.toList payload.toList = .ok ctOut) :
    (∃ plaintext, self.Opens nonce requestKid requestPiv ctOut.toList plaintext
        code (options, payload)) ↔
      findPayloadMarker C options.toList = .ok none ∧
        FitsReceiver options.toList payload.toList := by
  have hlength := length_innerPlaintext code options.toList payload.toList
  simp only [opens_sealed_iff haead hseal, releaseBody_eq_iff, true_and]
  constructor
  · rintro ⟨plaintext, hplain, hscan⟩
    have hle := plaintext.length_le
    rw [hplain] at hle
    exact ⟨hscan, by rw [FitsReceiver]; omega⟩
  · rintro ⟨hscan, hfits⟩
    rw [FitsReceiver] at hfits
    exact ⟨⟨innerPlaintext code options.toList payload.toList, by omega⟩, rfl,
      hscan⟩

/-- What the peer makes of a protected request. -/
theorem delivers_request_iff (haead : C.AeadCorrect) {self peer : Context C}
    (hmirror : self.Mirrors peer.toMaterial) {seq : OscoreSeqNum}
    {code : UInt8} {options payload : HVec outCap} {message : Protected}
    (hprotect : self.protectRequestReserved seq code options.toList
      payload.toList = .ok message)
    (hfresh : peer.replay.isReplay seq = false) :
    Delivers (unprotectRequest message.2.toList message.1.toList) peer code
        options.toList payload.toList ↔
      findPayloadMarker C options.toList = .ok none ∧
        FitsReceiver options.toList payload.toList := by
  obtain ⟨hseal, hoption⟩ := protectRequestReserved_eq_ok.mp hprotect
  have hparsed := parseOption_request seq self.idContext_le self.senderId_le
  rw [← requestOption_eq_ok.mp hoption] at hparsed
  rw [← hmirror.recipientKey, ← hmirror.recipientId, ← hmirror.commonIv]
    at hseal
  rw [← opens_exactly_iff haead hseal]
  constructor
  · rintro ⟨⟨code', options', payload'⟩, after, hrun, rfl, hoptions, hpayload⟩
    obtain ⟨opt, seq', plaintext, h, -⟩ := unprotectRequest_eq_ok.mp hrun
    have hopt := h.parsed
    rw [hparsed, Except.ok.injEq] at hopt
    have hopens := h.opens
    rw [h.kid_eq, ← hopt] at hopens
    cases HVec.ext hoptions
    cases HVec.ext hpayload
    exact ⟨plaintext, hopens⟩
  · rintro ⟨plaintext, hopens⟩
    have haccepts : peer.AcceptsRequest message.2.toList message.1.toList
        ⟨seq.encodePiv, self.idContext.getD [], self.idContext.isSome,
          self.senderId, true⟩ seq plaintext (code, options, payload) :=
      { length_le := by
          rw [length_of_sealMessage hseal]
          exact le_ctRequired _ _
        parsed := hparsed
        piv_ne := seq.encodePiv_ne_nil
        kidPresent := rfl
        kid_eq := hmirror.recipientId.symm
        kidContext := by
          rintro ⟨hpresent, habsent | hother⟩
          · rw [hmirror.idContext] at habsent
            exact absurd (hpresent.symm.trans habsent) (by decide)
          · exact hother (by rw [hmirror.idContext])
        seq_eq := seq.fromPiv_encodePiv
        fresh := hfresh
        opens := by
          rw [← hmirror.recipientId]
          exact hopens }
    exact ⟨(code, options, payload), peer.acceptRequest seq,
      unprotectRequest_eq_ok.mpr ⟨_, seq, plaintext, haccepts, rfl⟩, rfl, rfl,
      rfl⟩

/-- A response under the responder's own PIV is accepted where it opens. -/
theorem acceptsResponse_own {peer : Context C} {seq requestSeq : OscoreSeqNum}
    {code : UInt8} {options payload : HVec outCap} {requestPiv : Bytes}
    {message : Protected} {plaintext : HVec ptCap} (observe : Bool)
    (hseal : sealMessage C peer.recipientKey
      (computeNonce peer.recipientId seq.encodePiv peer.commonIv)
      peer.senderId requestPiv code options.toList payload.toList =
        .ok message.1)
    (hoption : responseOption seq.encodePiv = .ok message.2)
    (hcode : isResponseCode code = true)
    (hrequest : OscoreSeqNum.fromPiv requestPiv = some requestSeq)
    (hfresh : observe = false →
      peer.receivedResponse.isReuse requestSeq = false)
    (hpiv : peer.receivedResponsePiv.isReuse seq = false)
    (hopens : peer.Opens
      (computeNonce peer.recipientId seq.encodePiv peer.commonIv)
      peer.senderId requestPiv message.1.toList plaintext code
      (options, payload)) :
    peer.AcceptsResponse message.2.toList message.1.toList requestPiv observe
      ⟨seq.encodePiv, [], false, [], false⟩ plaintext
      ⟨requestSeq, some seq, !observe, code, options, payload⟩ where
  length_le := by
    rw [length_of_sealMessage hseal]
    exact le_ctRequired _ _
  parsed := by
    rw [responseOption_eq_ok.mp hoption]
    exact parseOption_response seq
  kidContext := by simp [foreignKidContext]
  kid := by simp
  requestSeq_eq := hrequest
  fresh := hfresh
  observe_piv := fun _ => seq.encodePiv_ne_nil
  responseSeq_eq := explicitResponseSeq_eq_ok.mpr (Or.inr
    ⟨seq, seq.encodePiv_ne_nil, seq.fromPiv_encodePiv, hpiv, rfl⟩)
  marks := rfl
  code := hcode
  opens := by
    rw [if_pos seq.encodePiv_ne_nil, if_pos seq.encodePiv_ne_nil]
    exact hopens

/-- What the peer makes of a response with a reserved PIV. -/
theorem delivers_response_iff (haead : C.AeadCorrect) {self peer : Context C}
    (hmirror : self.Mirrors peer.toMaterial) {seq requestSeq : OscoreSeqNum}
    {code : UInt8} {options payload : HVec outCap}
    {requestKid requestPiv : Bytes} {message : Protected}
    (hprotect : self.protectResponseWithReservedPiv seq code options.toList
      payload.toList requestKid requestPiv = .ok message)
    (hcode : isResponseCode code = true)
    (hrequest : OscoreSeqNum.fromPiv requestPiv = some requestSeq)
    (hfresh : peer.receivedResponse.isReuse requestSeq = false)
    (hpiv : peer.receivedResponsePiv.isReuse seq = false) :
    Delivers (unprotectResponse message.2.toList message.1.toList requestPiv)
        peer code options.toList payload.toList ↔
      findPayloadMarker C options.toList = .ok none ∧
        FitsReceiver options.toList payload.toList := by
  obtain ⟨hbad, hseal, hoption⟩ :=
    protectResponseWithReservedPiv_eq_ok.mp hprotect
  have hkid : requestKid = peer.senderId := by
    rw [hmirror.senderId]
    by_contra hne
    exact hbad (Or.inr (Or.inr hne))
  have hparsed := parseOption_response seq
  rw [← responseOption_eq_ok.mp hoption] at hparsed
  rw [← hmirror.recipientKey, ← hmirror.recipientId, ← hmirror.commonIv,
    hkid] at hseal
  rw [← opens_exactly_iff haead hseal]
  constructor
  · rintro ⟨⟨code', options', payload'⟩, after, hrun, rfl, hoptions, hpayload⟩
    obtain ⟨pending, _, hbegin, hcommit⟩ := Call.bind_eq_ok.mp hrun
    obtain ⟨opt, plaintext, h, rfl⟩ := beginUnprotectResponseMode_eq_ok.mp hbegin
    obtain ⟨-, hmessage, -⟩ := commit_eq_ok.mp hcommit
    obtain ⟨rfl, rfl, rfl⟩ := Prod.mk.injEq .. ▸ hmessage
    have hopt := h.parsed
    rw [hparsed, Except.ok.injEq] at hopt
    have hopens := h.opens
    rw [← hopt, if_pos seq.encodePiv_ne_nil, if_pos seq.encodePiv_ne_nil]
      at hopens
    rw [← HVec.ext hoptions, ← HVec.ext hpayload]
    exact ⟨plaintext, hopens⟩
  · rintro ⟨plaintext, hopens⟩
    have hbegin := beginUnprotectResponseMode_eq_ok.mpr ⟨_, plaintext,
      acceptsResponse_own false hseal hoption hcode hrequest (fun _ => hfresh)
        hpiv hopens, rfl⟩
    exact ⟨(code, options, payload), _, Call.bind_eq_ok.mpr ⟨_, peer, hbegin,
      commit_eq_ok.mpr ⟨hcode, rfl, rfl⟩⟩, rfl, rfl, rfl⟩

/-- A request that passes its preflight is protected under the next reserved
sequence, and a mirrored peer that has not seen it hands it out unchanged. -/
def RequestSound (self : Context C) (classEOptions payload : Bytes) : Prop :=
  self.preflightProtectRequest classEOptions payload = .ok () →
  ∀ (σ ε : Type) (S : ContextStateStore σ ε) (s t : σ),
    (self.reservation S).run s = .ok true t →
    ∃ sender after, (reserveSender S).run (self, s) = .ok sender (after, t) ∧
    ∀ code, ∃ message,
      sender.protectRequest after code classEOptions payload = .ok message ∧
      ∀ peer : Context C, self.Mirrors peer.toMaterial →
        peer.replay.isReplay sender.sequence = false →
        Delivers (unprotectRequest message.2.toList message.1.toList) peer code
          classEOptions payload

/-- A response that passes its preflight is protected under any reserved
sequence, and a mirrored requester that has not accepted a response to the
request, nor under that sequence, hands it out unchanged. -/
def ResponseSound (self : Context C)
    (classEOptions payload requestKid requestPiv : Bytes) : Prop :=
  self.preflightProtectResponse classEOptions payload requestKid requestPiv =
    .ok () →
  ∀ (sender : ReservedSender) (code : UInt8), isResponseCode code = true →
    ∃ message, sender.protectResponseWithPiv self code classEOptions payload
        requestKid requestPiv = .ok message ∧
      ∀ (peer : Context C) (requestSeq : OscoreSeqNum),
        self.Mirrors peer.toMaterial →
        OscoreSeqNum.fromPiv requestPiv = some requestSeq →
        peer.receivedResponse.isReuse requestSeq = false →
        peer.receivedResponsePiv.isReuse sender.sequence = false →
        Delivers (unprotectResponse message.2.toList message.1.toList
          requestPiv) peer code classEOptions payload

theorem exists_protectRequestReserved (haead : C.AeadCorrect)
    (self : Context C) (seq : OscoreSeqNum) (code : UInt8)
    {classEOptions payload : Bytes}
    (hrequired : ctRequired classEOptions payload ≤ ctCap) :
    ∃ message, self.protectRequestReserved seq code classEOptions payload =
      .ok message := by
  obtain ⟨ctOut, hseal⟩ := exists_sealMessage haead self.senderKey
    (computeNonce self.senderId seq.encodePiv self.commonIv)
    ⟨self.senderId_le, seq.length_encodePiv_le⟩ code hrequired
  obtain ⟨opt, hoption⟩ := self.exists_requestOption seq
  exact ⟨(ctOut, opt), protectRequestReserved_eq_ok.mpr ⟨hseal, hoption⟩⟩

theorem exists_protectResponseWithReservedPiv (haead : C.AeadCorrect)
    {self : Context C} (seq : OscoreSeqNum) (code : UInt8)
    {classEOptions payload requestKid requestPiv : Bytes}
    (hrequest : ¬ self.badRequest requestKid requestPiv)
    (hrequired : ctRequired classEOptions payload ≤ ctCap) :
    ∃ message, self.protectResponseWithReservedPiv seq code classEOptions
      payload requestKid requestPiv = .ok message := by
  have hfits : FitsAad requestKid requestPiv := by
    simp only [badRequest, not_or, Nat.not_lt, Bool.not_eq_true,
      Option.isNone_eq_false_iff, Option.isSome_iff_exists] at hrequest
    obtain ⟨hkid, ⟨requestSeq, hseq⟩, -⟩ := hrequest
    exact ⟨hkid, (OscoreSeqNum.length_of_fromPiv hseq).2⟩
  obtain ⟨ctOut, hseal⟩ := exists_sealMessage haead self.senderKey
    (computeNonce self.senderId seq.encodePiv self.commonIv) hfits code
    hrequired
  obtain ⟨opt, hoption⟩ := exists_responseOption seq
  exact ⟨(ctOut, opt), protectResponseWithReservedPiv_eq_ok.mpr
    ⟨hrequest, hseal, hoption⟩⟩

theorem requestSound_iff (haead : C.AeadCorrect) (self : Context C)
    (classEOptions payload : Bytes) :
    self.RequestSound classEOptions payload ↔
      (self.preflightProtectRequest classEOptions payload = .ok () →
        self.senderSeqExhausted = false ∧
          findPayloadMarker C classEOptions = .ok none ∧
          FitsReceiver classEOptions payload) := by
  refine forall_congr' fun hpreflight => ?_
  obtain ⟨hactive, hoptions, hpayload⟩ :=
    preflightProtectRequest_eq_ok.mp hpreflight
  have hrequired := ctRequired_le hoptions hpayload
  obtain ⟨options, rfl⟩ : ∃ options : HVec outCap,
    options.toList = classEOptions := ⟨⟨_, hoptions⟩, rfl⟩
  obtain ⟨payload, rfl⟩ : ∃ payload' : HVec outCap,
    payload'.toList = payload := ⟨⟨_, hpayload⟩, rfl⟩
  constructor
  · intro hsound
    let store : MemoryState :=
      ⟨fun _ => some self.senderSequenceState, fun _ => none⟩
    have hswap : (self.reservation memoryStore).run store = .ok true _ :=
      if_pos rfl
    obtain ⟨sender, after, hreserve, hprotect⟩ :=
      hsound _ _ memoryStore store _ hswap
    obtain ⟨-, hseq, -, rfl, rfl⟩ := reserveSender_eq_ok.mp hreserve
    obtain ⟨message, hmessage, hpeer⟩ := hprotect 0
    have hpeer := hpeer (initial self.mirror) self.mirrors_mirror
      (ReplayWindow.isReplay_fresh _)
    exact ⟨hseq, (delivers_request_iff haead self.mirrors_mirror hmessage
      (ReplayWindow.isReplay_fresh _)).mp hpeer⟩
  · rintro ⟨hseq, hdeliverable⟩ σ ε S s t hswap
    refine ⟨⟨self.senderSeq⟩, self.reserved, reserveSender_eq_ok.mpr
      ⟨hactive, hseq, hswap, rfl, rfl⟩, fun code => ?_⟩
    obtain ⟨message, hmessage⟩ := exists_protectRequestReserved haead
      self.reserved self.senderSeq code hrequired
    refine ⟨message, hmessage, fun peer hmirror hfresh => ?_⟩
    exact (delivers_request_iff haead hmirror hmessage hfresh).mpr hdeliverable

theorem responseSound_iff (haead : C.AeadCorrect) (self : Context C)
    (classEOptions payload requestKid requestPiv : Bytes) :
    self.ResponseSound classEOptions payload requestKid requestPiv ↔
      (self.preflightProtectResponse classEOptions payload requestKid
          requestPiv = .ok () → FitsReceiver classEOptions payload) := by
  refine forall_congr' fun hpreflight => ?_
  obtain ⟨hactive, hrequest, hoptions, hpayload, hparse⟩ :=
    preflightProtectResponse_eq_ok.mp hpreflight
  have hrequired := ctRequired_le hoptions hpayload
  have hscan : findPayloadMarker C classEOptions = .ok none :=
    findPayloadMarkerFrom_of_innerBodyFrom hparse
  obtain ⟨options, rfl⟩ : ∃ options : HVec outCap,
    options.toList = classEOptions := ⟨⟨_, hoptions⟩, rfl⟩
  obtain ⟨payload, rfl⟩ : ∃ payload' : HVec outCap,
    payload'.toList = payload := ⟨⟨_, hpayload⟩, rfl⟩
  constructor
  · intro hsound
    obtain ⟨message, hmessage, hpeer⟩ := hsound ⟨.default⟩ 0x45 (by decide)
    obtain ⟨requestSeq, hseq⟩ :
        ∃ seq, OscoreSeqNum.fromPiv requestPiv = some seq := by
      simp only [badRequest, not_or, Bool.not_eq_true,
        Option.isNone_eq_false_iff, Option.isSome_iff_exists] at hrequest
      exact hrequest.2.1
    have hpeer := hpeer (initial self.mirror) requestSeq self.mirrors_mirror
      hseq (ReuseWindow.isReuse_fresh _) (ReuseWindow.isReuse_fresh _)
    exact ((delivers_response_iff haead self.mirrors_mirror hmessage
      (by decide) hseq (ReuseWindow.isReuse_fresh _)
      (ReuseWindow.isReuse_fresh _)).mp hpeer).2
  · intro hfits sender code hcode
    obtain ⟨message, hmessage⟩ := exists_protectResponseWithReservedPiv haead
      sender.sequence code hrequest hrequired
    refine ⟨message, hmessage, fun peer requestSeq hmirror hseq hfresh hpiv =>
      ?_⟩
    exact (delivers_response_iff haead hmirror hmessage hcode hseq hfresh
      hpiv).mpr ⟨hscan, hfits⟩

/-- Preflight promises delivery exactly for messages whose plaintext fits the
receiver and, of requests, whose options are complete and whose sender has a
sequence left. -/
theorem preflight_sound_iff (haead : C.AeadCorrect) (self : Context C)
    (classEOptions payload requestKid requestPiv : Bytes) :
    (self.RequestSound classEOptions payload ↔
      (self.preflightProtectRequest classEOptions payload = .ok () →
        self.senderSeqExhausted = false ∧
          findPayloadMarker C classEOptions = .ok none ∧
          FitsReceiver classEOptions payload)) ∧
    (self.ResponseSound classEOptions payload requestKid requestPiv ↔
      (self.preflightProtectResponse classEOptions payload requestKid
          requestPiv = .ok () → FitsReceiver classEOptions payload)) :=
  ⟨requestSound_iff haead self classEOptions payload,
    responseSound_iff haead self classEOptions payload requestKid requestPiv⟩

/-- An active context of two fixed parties. -/
theorem exists_sampleContext :
    ∃ self : Context Crypto.standIn,
      Material.build Crypto.standIn Crypto.sampleKey none none [1] [2] =
        .ok self.toMaterial ∧
      self.active = true ∧ self.senderSeqExhausted = false := by
  have hne : ([1] : Bytes) ≠ [2] := by decide
  obtain ⟨material, hbuild⟩ := @Material.exists_build Crypto.standIn
    Crypto.sampleKey none none [1] [2] (by decide) (by decide) hne (by decide)
    (by decide)
  exact ⟨{ initial material with active := true }, hbuild, rfl, rfl⟩

theorem preflight_sound_iff_sample :
    ∃ self : Context Crypto.standIn, self.active = true ∧
      (self.RequestSound [0x00] [0x61] ↔
        (self.preflightProtectRequest [0x00] [0x61] = .ok () →
          self.senderSeqExhausted = false ∧
            findPayloadMarker Crypto.standIn [0x00] = .ok none ∧
            FitsReceiver [0x00] [0x61])) ∧
      (self.ResponseSound [0x00] [0x61] [2] [0] ↔
        (self.preflightProtectResponse [0x00] [0x61] [2] [0] = .ok () →
          FitsReceiver [0x00] [0x61])) := by
  obtain ⟨self, -, hactive, -⟩ := exists_sampleContext
  exact ⟨self, hactive, preflight_sound_iff Crypto.standIn_aeadCorrect self
    [0x00] [0x61] [2] [0]⟩

/-- The preflight for requests lets a bare payload marker pass as options, and
both preflights let 257 bytes of plaintext pass. -/
theorem preflight_unsound :
    ∃ self : Context Crypto.standIn,
      Material.build Crypto.standIn Crypto.sampleKey none none [1] [2] =
        .ok self.toMaterial ∧
      self.active = true ∧ self.senderSeqExhausted = false ∧
      ¬ self.RequestSound [0xFF] [] ∧
      ¬ self.RequestSound (List.replicate 127 0) (List.replicate 128 0x61) ∧
      ¬ self.ResponseSound (List.replicate 127 0) (List.replicate 128 0x61)
        [2] [0] := by
  obtain ⟨self, hbuild, hactive, hseq⟩ := exists_sampleContext
  have haead := Crypto.standIn_aeadCorrect
  refine ⟨self, hbuild, hactive, hseq, ?_, ?_, ?_⟩
  · rw [requestSound_iff haead]
    intro h
    obtain ⟨-, hscan, -⟩ := h (preflightProtectRequest_eq_ok.mpr
      ⟨hactive, by decide, by decide⟩)
    rw [findPayloadMarker, findPayloadMarkerFrom_marker rfl] at hscan
    cases hscan
  · rw [requestSound_iff haead]
    intro h
    obtain ⟨-, -, hfits⟩ := h (preflightProtectRequest_eq_ok.mpr
      ⟨hactive, by simp, by simp⟩)
    simp [FitsReceiver, ctRequired] at hfits
  · rw [responseSound_iff haead]
    intro h
    have hkid : self.recipientId = [2] :=
      (Material.of_build hbuild).2.2.2.2
    have hgood : ¬ self.badRequest [2] [0] := by
      simp only [badRequest, hkid]
      decide
    have hfits := h (preflightProtectResponse_eq_ok.mpr
      ⟨hactive, hgood, by simp, by simp, by decide +kernel⟩)
    simp [FitsReceiver, ctRequired] at hfits

end Context

end Oscore
