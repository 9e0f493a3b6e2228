/-
Round trips between two mirrored contexts: a request, and a response over each
of the three ways to protect one.  The receiver infers the way from the option
bytes alone and computes nonce and AAD from its own, swapped identifiers.
-/
import Oscore.Preflight

namespace Oscore

open Rust Rust.Call

/-- Contexts built from one secret with the IDs swapped mirror each other. -/
theorem Material.mirrors_of_build {C : Crypto} {masterSecret : Key}
    {masterSalt idContext : Option Bytes} {senderId recipientId : Bytes}
    {material peer : Material C}
    (h : build C masterSecret masterSalt idContext senderId recipientId =
      .ok material)
    (hpeer : build C masterSecret masterSalt idContext recipientId senderId =
      .ok peer) : material.Mirrors peer := by
  obtain ⟨hsecret, hsalt, hcontext, hsender, hrecipient⟩ := of_build h
  obtain ⟨hsecret', hsalt', hcontext', hsender', hrecipient'⟩ := of_build hpeer
  have hkey := material.senderKey_eq
  have hother := material.recipientKey_eq
  have hiv := material.commonIv_eq
  have hkey' := peer.senderKey_eq
  have hother' := peer.recipientKey_eq
  have hiv' := peer.commonIv_eq
  rw [hsecret, hsalt, hcontext] at hkey hother hiv
  rw [hsecret', hsalt', hcontext'] at hkey' hother' hiv'
  rw [hsender] at hkey
  rw [hrecipient] at hother
  rw [hsender'] at hkey'
  rw [hrecipient'] at hother'
  exact ⟨hcontext'.trans hcontext.symm, hsender'.trans hrecipient.symm,
    hrecipient'.trans hsender.symm,
    Except.ok.inj (hkey'.symm.trans hother),
    Except.ok.inj (hother'.symm.trans hkey),
    Except.ok.inj (hiv'.symm.trans hiv)⟩

namespace Context

variable {C : Crypto}

/-- Options and payload the receiver can hand out: complete options, both parts
within its outputs, and the plaintext within its buffer. -/
structure Deliverable (classEOptions payload : Bytes) : Prop where
  options : parseInnerBody classEOptions = .ok (classEOptions, [])
  options_le : classEOptions.length ≤ outCap
  payload_le : payload.length ≤ outCap
  plaintext_le : 1 + classEOptions.length +
    (if payload = [] then 0 else 1 + payload.length) ≤ ptCap

theorem Deliverable.scans {classEOptions payload : Bytes}
    (h : Deliverable classEOptions payload) :
    findPayloadMarker C classEOptions = .ok none :=
  findPayloadMarkerFrom_of_innerBodyFrom h.options

theorem Deliverable.fits {classEOptions payload : Bytes}
    (h : Deliverable classEOptions payload) :
    FitsReceiver classEOptions payload :=
  Nat.add_le_add_right h.plaintext_le tagLen

theorem Deliverable.required {classEOptions payload : Bytes}
    (h : Deliverable classEOptions payload) :
    ctRequired classEOptions payload ≤ ctCap :=
  ctRequired_le h.options_le h.payload_le

/-- A protected request is handed out as it was written. -/
theorem request_round_trip (haead : C.AeadCorrect) {self peer : Context C}
    (hmirror : self.Mirrors peer.toMaterial) (seq : OscoreSeqNum)
    (hfresh : peer.replay.isReplay seq = false) (code : UInt8)
    {classEOptions payload : Bytes} (h : Deliverable classEOptions payload) :
    ∃ message, self.protectRequestReserved seq code classEOptions payload =
        .ok message ∧
      Delivers (unprotectRequest message.2.toList message.1.toList) peer code
        classEOptions payload := by
  obtain ⟨message, hprotect⟩ :=
    exists_protectRequestReserved haead self seq code h.required
  refine ⟨message, hprotect, ?_⟩
  obtain ⟨options, rfl⟩ : ∃ options : HVec outCap,
    options.toList = classEOptions := ⟨⟨_, h.options_le⟩, rfl⟩
  obtain ⟨payload, rfl⟩ : ∃ payload' : HVec outCap,
    payload'.toList = payload := ⟨⟨_, h.payload_le⟩, rfl⟩
  exact (delivers_request_iff haead hmirror hprotect hfresh).mpr
    ⟨h.scans, h.fits⟩

/-! Responses. -/

/-- Receive a response, as a notification with `observe` set. -/
def receiveResponse (oscoreOption ciphertext requestPiv : Bytes)
    (observe : Bool) : Call (Context C) OscoreError Message :=
  if observe then unprotectObserveResponse oscoreOption ciphertext requestPiv
  else unprotectResponse oscoreOption ciphertext requestPiv

theorem delivers_of_accepts {peer : Context C}
    {oscoreOption ciphertext requestPiv : Bytes} {observe : Bool}
    {opt : OscoreOption} {plaintext : HVec ptCap} {pending : PendingResponse}
    (h : peer.AcceptsResponse oscoreOption ciphertext requestPiv observe opt
      plaintext pending) :
    Delivers (receiveResponse oscoreOption ciphertext requestPiv observe) peer
      pending.code pending.options.toList pending.payload.toList := by
  have hbegin := beginUnprotectResponseMode_eq_ok.mpr
    ⟨opt, plaintext, h, rfl⟩
  have hrun := Call.bind_eq_ok.mpr
    ⟨pending, peer, hbegin, commit_eq_ok.mpr ⟨h.code, rfl, rfl⟩⟩
  refine ⟨(pending.code, pending.options, pending.payload),
    peer.acceptResponse pending, ?_, rfl, rfl, rfl⟩
  cases observe with
  | false => exact hrun
  | true => exact hrun

/-- A response sealed under the responder's own PIV. -/
theorem delivers_own_piv (haead : C.AeadCorrect) {self peer : Context C}
    (hmirror : self.Mirrors peer.toMaterial) {seq requestSeq : OscoreSeqNum}
    {code : UInt8} {classEOptions payload requestPiv : Bytes}
    {message : Protected} (observe : Bool)
    (h : Deliverable classEOptions payload)
    (hseal : sealMessage C self.senderKey
      (computeNonce self.senderId seq.encodePiv self.commonIv)
      self.recipientId requestPiv code classEOptions payload = .ok message.1)
    (hoption : responseOption seq.encodePiv = .ok message.2)
    (hcode : isResponseCode code = true)
    (hrequest : OscoreSeqNum.fromPiv requestPiv = some requestSeq)
    (hfresh : observe = false →
      peer.receivedResponse.isReuse requestSeq = false)
    (hpiv : peer.receivedResponsePiv.isReuse seq = false) :
    Delivers (receiveResponse message.2.toList message.1.toList requestPiv
      observe) peer code classEOptions payload := by
  obtain ⟨options, rfl⟩ : ∃ options : HVec outCap,
    options.toList = classEOptions := ⟨⟨_, h.options_le⟩, rfl⟩
  obtain ⟨payload, rfl⟩ : ∃ payload' : HVec outCap,
    payload'.toList = payload := ⟨⟨_, h.payload_le⟩, rfl⟩
  rw [← hmirror.recipientKey, ← hmirror.recipientId, ← hmirror.commonIv,
    ← hmirror.senderId] at hseal
  obtain ⟨plaintext, hopens⟩ :=
    (opens_exactly_iff haead hseal).mpr ⟨h.scans, h.fits⟩
  exact delivers_of_accepts (acceptsResponse_own observe hseal hoption hcode
    hrequest hfresh hpiv hopens)

/-- A response sealed under the PIV of its request, with an empty option. -/
theorem delivers_bare (haead : C.AeadCorrect) {self peer : Context C}
    (hmirror : self.Mirrors peer.toMaterial) {requestSeq : OscoreSeqNum}
    {code : UInt8} {classEOptions payload requestPiv : Bytes}
    {ctOut : HVec ctCap} (h : Deliverable classEOptions payload)
    (hseal : sealMessage C self.senderKey
      (computeNonce self.recipientId requestPiv self.commonIv)
      self.recipientId requestPiv code classEOptions payload = .ok ctOut)
    (hcode : isResponseCode code = true)
    (hrequest : OscoreSeqNum.fromPiv requestPiv = some requestSeq)
    (hfresh : peer.receivedResponse.isReuse requestSeq = false) :
    Delivers (unprotectResponse [] ctOut.toList requestPiv) peer code
      classEOptions payload := by
  obtain ⟨options, rfl⟩ : ∃ options : HVec outCap,
    options.toList = classEOptions := ⟨⟨_, h.options_le⟩, rfl⟩
  obtain ⟨payload, rfl⟩ : ∃ payload' : HVec outCap,
    payload'.toList = payload := ⟨⟨_, h.payload_le⟩, rfl⟩
  rw [← hmirror.recipientKey, ← hmirror.commonIv, ← hmirror.senderId] at hseal
  obtain ⟨plaintext, hopens⟩ :=
    (opens_exactly_iff haead hseal).mpr ⟨h.scans, h.fits⟩
  let pending : PendingResponse :=
    ⟨requestSeq, none, true, code, options, payload⟩
  have haccepts : peer.AcceptsResponse [] ctOut.toList requestPiv false
      ⟨[], [], false, [], false⟩ plaintext pending :=
    { length_le := by
        rw [length_of_sealMessage hseal]
        exact le_ctRequired _ _
      parsed := rfl
      kidContext := by simp [foreignKidContext]
      kid := by simp
      requestSeq_eq := hrequest
      fresh := fun _ => hfresh
      observe_piv := by simp
      responseSeq_eq := explicitResponseSeq_eq_ok.mpr (Or.inl ⟨rfl, rfl⟩)
      marks := rfl
      code := hcode
      opens := hopens }
  exact delivers_of_accepts haccepts

/-- The requester hands out this response, also as a notification. -/
structure HandsOut (peer : Context C) (message : Protected)
    (requestPiv : Bytes) (requestSeq : OscoreSeqNum) (code : UInt8)
    (classEOptions payload : Bytes) : Prop where
  ordinary : peer.receivedResponse.isReuse requestSeq = false →
    Delivers (unprotectResponse message.2.toList message.1.toList requestPiv)
      peer code classEOptions payload
  notification : Delivers (unprotectObserveResponse message.2.toList
    message.1.toList requestPiv) peer code classEOptions payload

theorem handsOut_own_piv (haead : C.AeadCorrect) {self peer : Context C}
    (hmirror : self.Mirrors peer.toMaterial) {seq requestSeq : OscoreSeqNum}
    {code : UInt8} {classEOptions payload requestPiv : Bytes}
    {message : Protected} (h : Deliverable classEOptions payload)
    (hseal : sealMessage C self.senderKey
      (computeNonce self.senderId seq.encodePiv self.commonIv)
      self.recipientId requestPiv code classEOptions payload = .ok message.1)
    (hoption : responseOption seq.encodePiv = .ok message.2)
    (hcode : isResponseCode code = true)
    (hrequest : OscoreSeqNum.fromPiv requestPiv = some requestSeq)
    (hpiv : peer.receivedResponsePiv.isReuse seq = false) :
    HandsOut peer message requestPiv requestSeq code classEOptions payload where
  ordinary hfresh := delivers_own_piv haead hmirror false h hseal hoption hcode
    hrequest (fun _ => hfresh) hpiv
  notification := delivers_own_piv haead hmirror true h hseal hoption hcode
    hrequest (fun h => absurd h (by decide)) hpiv

theorem kid_of_not_badRequest {self : Context C}
    {requestKid requestPiv : Bytes}
    (h : ¬ self.badRequest requestKid requestPiv) :
    requestKid = self.recipientId := by
  by_contra hne
  exact h (Or.inr (Or.inr hne))

theorem not_badRequest {self : Context C} {requestPiv : Bytes}
    {requestSeq : OscoreSeqNum}
    (hrequest : OscoreSeqNum.fromPiv requestPiv = some requestSeq) :
    ¬ self.badRequest self.recipientId requestPiv := by
  rintro (hlong | hnone | hother)
  · exact absurd self.recipientId_le (Nat.not_le.mpr hlong)
  · rw [hrequest] at hnone
    cases hnone
  · exact hother rfl

/-- Each way to protect a response to a request of the peer, with any code of
class 2 to 5: what it returns is handed out, unless a window of the requester
rejects the sequence, and it does return where the responder may answer. -/
structure RespondsTo (self peer : Context C) (requestPiv : Bytes)
    (requestSeq : OscoreSeqNum) (code : UInt8)
    (classEOptions payload : Bytes) : Prop where
  bare : ∀ requestKid message after,
    (protectResponse code classEOptions payload requestKid requestPiv
      false).run self = .ok message after →
    peer.receivedResponse.isReuse requestSeq = false →
    Delivers (unprotectResponse message.2.toList message.1.toList requestPiv)
      peer code classEOptions payload
  own : ∀ requestKid message after,
    (protectResponse code classEOptions payload requestKid requestPiv
      true).run self = .ok message after →
    peer.receivedResponsePiv.isReuse self.senderSeq = false →
    HandsOut peer message requestPiv requestSeq code classEOptions payload
  reserved : ∀ (sender : ReservedSender) requestKid message,
    sender.protectResponseWithPiv self code classEOptions payload requestKid
      requestPiv = .ok message →
    peer.receivedResponsePiv.isReuse sender.sequence = false →
    HandsOut peer message requestPiv requestSeq code classEOptions payload
  bare_ok : self.active = true → self.AnswersBare requestPiv requestSeq →
    ∃ message after, (protectResponse code classEOptions payload
      self.recipientId requestPiv false).run self = .ok message after
  own_ok : self.active = true → self.senderSeq.get < seqMax →
    ∃ message after, (protectResponse code classEOptions payload
      self.recipientId requestPiv true).run self = .ok message after
  reserved_ok : ∀ sender : ReservedSender, ∃ message,
    sender.protectResponseWithPiv self code classEOptions payload
      self.recipientId requestPiv = .ok message

theorem exists_sealResponse (haead : C.AeadCorrect) (self : Context C)
    {requestPiv : Bytes} {requestSeq : OscoreSeqNum}
    (hrequest : OscoreSeqNum.fromPiv requestPiv = some requestSeq)
    (seq : OscoreSeqNum) (code : UInt8) {classEOptions payload : Bytes}
    (includePiv : Bool) {noncePiv : Bytes}
    (hpiv : includePiv = true → noncePiv = seq.encodePiv)
    (h : ctRequired classEOptions payload ≤ ctCap) :
    ∃ message, self.sealResponse code classEOptions payload self.recipientId
      requestPiv includePiv noncePiv = .ok message := by
  obtain ⟨ctOut, hseal⟩ := exists_sealMessage haead self.senderKey
    (computeNonce (if includePiv then self.senderId else self.recipientId)
      noncePiv self.commonIv)
    ⟨self.recipientId_le, (OscoreSeqNum.length_of_fromPiv hrequest).2⟩ code h
  cases includePiv with
  | false =>
      exact ⟨(ctOut, HVec.empty), sealResponse_eq_ok.mpr ⟨hseal, rfl⟩⟩
  | true =>
      obtain ⟨opt, hoption⟩ := exists_responseOption seq
      rw [← hpiv rfl] at hoption
      exact ⟨(ctOut, opt), sealResponse_eq_ok.mpr ⟨hseal, hoption⟩⟩

/-- A protected response is handed out as it was written. -/
theorem response_round_trip (haead : C.AeadCorrect) {self peer : Context C}
    (hmirror : self.Mirrors peer.toMaterial) {requestPiv : Bytes}
    {requestSeq : OscoreSeqNum}
    (hrequest : OscoreSeqNum.fromPiv requestPiv = some requestSeq)
    {code : UInt8} (hcode : isResponseCode code = true)
    {classEOptions payload : Bytes} (h : Deliverable classEOptions payload) :
    RespondsTo self peer requestPiv requestSeq code classEOptions payload where
  bare := by
    intro requestKid message after hrun hfresh
    obtain ⟨-, hbad, ⟨hflag, -⟩ | ⟨-, seq, -, hseal, -⟩⟩ :=
      protectResponse_eq_ok.mp hrun
    · cases hflag
    · obtain ⟨hseal, hoption⟩ := sealResponse_eq_ok.mp hseal
      cases kid_of_not_badRequest hbad
      have hempty : HVec.empty = message.2 := Except.ok.inj hoption
      rw [← hempty]
      exact delivers_bare haead hmirror h hseal hcode hrequest hfresh
  own := by
    intro requestKid message after hrun hpiv
    obtain ⟨-, hbad, ⟨-, -, hseal, -⟩ | ⟨hflag, -⟩⟩ :=
      protectResponse_eq_ok.mp hrun
    · obtain ⟨hseal, hoption⟩ := sealResponse_eq_ok.mp hseal
      cases kid_of_not_badRequest hbad
      exact handsOut_own_piv haead hmirror h hseal hoption hcode hrequest hpiv
    · cases hflag
  reserved := by
    intro sender requestKid message hprotect hpiv
    obtain ⟨hbad, hseal, hoption⟩ :=
      protectResponseWithReservedPiv_eq_ok.mp hprotect
    cases kid_of_not_badRequest hbad
    exact handsOut_own_piv haead hmirror h hseal hoption hcode hrequest hpiv
  bare_ok := by
    intro hactive hbare
    obtain ⟨message, hseal⟩ := exists_sealResponse haead self hrequest
      requestSeq code false (fun h => absurd h (by decide)) h.required
    exact ⟨message, self.answered requestSeq, protectResponse_eq_ok.mpr
      ⟨hactive, not_badRequest hrequest,
        Or.inr ⟨rfl, requestSeq, hbare, hseal, rfl⟩⟩⟩
  own_ok := by
    intro hactive hbelow
    obtain ⟨message, hseal⟩ := exists_sealResponse haead self hrequest
      self.senderSeq code true (fun _ => rfl) h.required
    exact ⟨message, self.tookSequence, protectResponse_eq_ok.mpr
      ⟨hactive, not_badRequest hrequest, Or.inl ⟨rfl, hbelow, hseal, rfl⟩⟩⟩
  reserved_ok sender := exists_protectResponseWithReservedPiv haead
    sender.sequence code (not_badRequest hrequest) h.required

/-- Two ends that have exchanged nothing yet, each built on its own. -/
theorem exists_samplePair :
    ∃ self peer : Context Crypto.standIn,
      Material.build Crypto.standIn Crypto.sampleKey none none [2] [1] =
        .ok peer.toMaterial ∧
      self.Mirrors peer.toMaterial ∧ self.active = true ∧
      peer.replay.isReplay .default = false := by
  obtain ⟨self, hbuild, hactive, -⟩ := exists_sampleContext
  have hne : ([2] : Bytes) ≠ [1] := by decide
  obtain ⟨material, hpeer⟩ := @Material.exists_build Crypto.standIn
    Crypto.sampleKey none none [2] [1] (by decide) (by decide) hne (by decide)
    (by decide)
  exact ⟨self, initial material, hpeer,
    Material.mirrors_of_build hbuild hpeer, hactive,
    ReplayWindow.isReplay_fresh _⟩

/-- An option whose value is the byte of the payload marker. -/
theorem deliverable_sample : Deliverable [0xC1, 0xFF] [0x68, 0x69] :=
  ⟨by decide +kernel, by decide, by decide, by decide⟩

theorem request_round_trip_sample :
    ∃ self peer : Context Crypto.standIn, ∃ message,
      self.protectRequestReserved .default 0x02 [0xC1, 0xFF] [0x68, 0x69] =
        .ok message ∧
      Delivers (unprotectRequest message.2.toList message.1.toList) peer 0x02
        [0xC1, 0xFF] [0x68, 0x69] := by
  obtain ⟨self, peer, -, hmirror, -, hfresh⟩ := exists_samplePair
  exact ⟨self, peer, request_round_trip Crypto.standIn_aeadCorrect hmirror
    .default hfresh 0x02 deliverable_sample⟩

theorem response_round_trip_sample :
    ∃ self peer : Context Crypto.standIn, self.active = true ∧
      RespondsTo self peer [0] .default 0x45 [0xC1, 0xFF] [0x68, 0x69] := by
  obtain ⟨self, peer, -, hmirror, hactive, -⟩ := exists_samplePair
  exact ⟨self, peer, hactive, response_round_trip Crypto.standIn_aeadCorrect
    hmirror (by decide) (by decide) deliverable_sample⟩

end Context

end Oscore
