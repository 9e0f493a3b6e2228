/-
Unprotecting requests and responses.  A request is accepted in one call; a
response is first authenticated into a pending value, which borrows the context
and marks its windows only when it is committed.
-/
import Oscore.Protect

namespace Oscore

open Rust Rust.Call

/-- Code, class E options and payload of an unprotected message. -/
abbrev Message := UInt8 × HVec outCap × HVec outCap

/-- `Tag::from_slice`, which panics on any other length. -/
def tagFromSlice (bytes : Bytes) : Outcome OscoreError Tag :=
  expect (if h : bytes.length = tagLen then some ⟨bytes, h⟩ else none)

/-- `decrypt_in_place_detached` -/
def decryptInPlace (C : Crypto) {capacity : Nat} (key : Key) (nonce : Nonce)
    (aad : Bytes) (buffer : HVec capacity) (tag : Tag) :
    Option (HVec capacity) :=
  match h : C.ccmDecrypt key nonce aad buffer.toList tag with
  | none => none
  | some plaintext => some ⟨plaintext, by
      rw [C.ccmDecrypt_length _ _ _ _ _ _ h]
      exact buffer.length_le⟩

/-- Split off the tag and decrypt in place. -/
def openMessage (C : Crypto) (key : Key) (nonce : Nonce) (aad : Bytes)
    (ciphertext : Bytes) : Outcome OscoreError (HVec ptCap) := do
  let tagStart := ciphertext.length - tagLen
  let tag ← tagFromSlice (← sliceFrom ciphertext tagStart)
  let body ← slice ciphertext 0 tagStart
  let plaintext ← okOr (HVec.empty.extend body)
    (.bufferTooSmall ⟨tagStart, ptCap⟩)
  okOr (decryptInPlace C key nonce aad plaintext tag) .decryptFailed

/-- Split what follows the code at the payload marker and copy both parts into
the bounded outputs. -/
def releaseBody (C : Crypto) (rest : Bytes) :
    Outcome OscoreError (HVec outCap × HVec outCap) := do
  let (optionsSlice, payloadSlice) ←
    match ← findPayloadMarker C rest with
    | some pos => do
        let payload ← sliceFrom rest (pos + 1)
        failIf (payload = []) .invalidParam
        let options ← slice rest 0 pos
        pure (options, payload)
    | none => pure (rest, [])
  let options ← okOr (HVec.empty.extend optionsSlice)
    (.bufferTooSmall ⟨optionsSlice.length, outCap⟩)
  let payload ← okOr (HVec.empty.extend payloadSlice)
    (.bufferTooSmall ⟨payloadSlice.length, outCap⟩)
  return (options, payload)

/-- `matches!(code >> 5, 2..=5)` -/
def isResponseCode (code : UInt8) : Bool :=
  decide ((2 : UInt8) ≤ code >>> 5 ∧ code >>> 5 ≤ 5)

/-- Authenticated response awaiting atomic replay-state acceptance; it borrows
its context. -/
structure PendingResponse where
  requestSeq : OscoreSeqNum
  responseSeq : Option OscoreSeqNum
  markRequestUsed : Bool
  code : UInt8
  options : HVec outCap
  payload : HVec outCap
deriving DecidableEq

namespace Context

variable {C : Crypto}

/-- The KID context of an option contradicts the one of this context. -/
def foreignKidContext (self : Context C) (opt : OscoreOption) : Prop :=
  opt.kidContextPresent = true ∧
    (self.idContext.isSome = false ∨
      opt.kidContext ≠ self.idContext.getD [])

instance (self : Context C) (opt : OscoreOption) :
    Decidable (self.foreignKidContext opt) :=
  inferInstanceAs (Decidable (_ ∧ _))

/-- Unprotect (decrypt) an OSCORE-protected request. -/
def unprotectRequest (oscoreOption ciphertext : Bytes) :
    Call (Context C) OscoreError Message := do
  let self ← get
  check (failIf (ciphertext.length < tagLen + 1) .invalidParam)
  let opt ← check (parseOption oscoreOption)
  check (failIf (opt.piv = [] ∨ opt.kidPresent = false) .invalidParam)
  check (failIf (opt.kid ≠ self.recipientId) .noContext)
  check (failIf (self.foreignKidContext opt) .noContext)
  let seq ← check (okOr (OscoreSeqNum.fromPiv opt.piv) .invalidParam)
  check (failIf (self.replay.isReplay seq = true) .replay)
  let nonce := computeNonce self.recipientId opt.piv self.commonIv
  let aad ← check (buildAadCbor opt.kid opt.piv 64)
  let plaintext ← check (openMessage C self.recipientKey nonce aad.toList
    ciphertext)
  check (failIf (plaintext.toList = []) .invalidParam)
  let code ← check (index plaintext.toList 0)
  let rest ← check (sliceFrom plaintext.toList 1)
  let (options, payload) ← check (releaseBody C rest)
  modify fun self =>
    { self with replay := self.replay.updateReplayWindow seq }
  return (code, options, payload)

/-- The sequence of an explicit response PIV, checked in a window of its own. -/
def explicitResponseSeq (self : Context C) (piv : Bytes) :
    Outcome OscoreError (Option OscoreSeqNum) :=
  if piv ≠ [] then do
    let seq ← okOr (OscoreSeqNum.fromPiv piv) .invalidParam
    failIf (self.isReceivedResponsePivReuse seq = true) .replay
    return some seq
  else return none

/-- Authenticate and parse a response; with `observe` set, a notification. -/
def beginUnprotectResponseMode (oscoreOption ciphertext requestPiv : Bytes)
    (observe : Bool) : Call (Context C) OscoreError PendingResponse := do
  let self ← get
  check (failIf (ciphertext.length < tagLen + 1) .invalidParam)
  let opt ← check (parseOption oscoreOption)
  check (failIf (self.foreignKidContext opt) .noContext)
  check (failIf (opt.kidPresent = true ∧ opt.kid ≠ self.recipientId)
    .noContext)
  let requestSeq ←
    check (okOr (OscoreSeqNum.fromPiv requestPiv) .invalidParam)
  check (failIf (observe = false ∧
    self.isReceivedResponseReuse requestSeq = true) .replay)
  check (failIf (observe = true ∧ opt.piv = []) .invalidParam)
  let piv := if opt.piv ≠ [] then opt.piv else requestPiv
  let responseSeq ← check (self.explicitResponseSeq opt.piv)
  let nonceId := if opt.piv ≠ [] then self.recipientId else self.senderId
  let nonce := computeNonce nonceId piv self.commonIv
  let aad ← check (buildAadCbor self.senderId requestPiv 64)
  let plaintext ← check (openMessage C self.recipientKey nonce aad.toList
    ciphertext)
  check (failIf (plaintext.toList = []) .invalidParam)
  let code ← check (index plaintext.toList 0)
  check (failIf (isResponseCode code = false) .invalidParam)
  let rest ← check (sliceFrom plaintext.toList 1)
  let (options, payload) ← check (releaseBody C rest)
  return { requestSeq, responseSeq, markRequestUsed := !observe, code,
           options, payload }

def beginUnprotectResponse (oscoreOption ciphertext requestPiv : Bytes) :
    Call (Context C) OscoreError PendingResponse :=
  beginUnprotectResponseMode oscoreOption ciphertext requestPiv false

def beginUnprotectObserveResponse
    (oscoreOption ciphertext requestPiv : Bytes) :
    Call (Context C) OscoreError PendingResponse :=
  beginUnprotectResponseMode oscoreOption ciphertext requestPiv true

end Context

/-- Accept the request Partial IV exactly once and release the authenticated
plaintext. -/
def PendingResponse.commit {C : Crypto} (self : PendingResponse) :
    Call (Context C) OscoreError Message := do
  check (failIf (isResponseCode self.code = false) .invalidParam)
  match self.responseSeq with
  | some seq => modify fun context => context.markReceivedResponsePiv seq
  | none => pure ()
  if self.markRequestUsed then
    modify fun context => context.markReceivedResponse self.requestSeq
  return (self.code, self.options, self.payload)

namespace Context

variable {C : Crypto}

/-- Unprotect and immediately accept an ordinary OSCORE response. -/
def unprotectResponse (oscoreOption ciphertext requestPiv : Bytes) :
    Call (Context C) OscoreError Message := do
  let pending ← beginUnprotectResponse oscoreOption ciphertext requestPiv
  pending.commit

/-- Unprotect and immediately accept an OSCORE Observe notification. -/
def unprotectObserveResponse (oscoreOption ciphertext requestPiv : Bytes) :
    Call (Context C) OscoreError Message := do
  let pending ←
    beginUnprotectObserveResponse oscoreOption ciphertext requestPiv
  pending.commit

/-! What each call has checked when it succeeds, and what it writes. -/

/-- The ciphertext opens under the recipient key to `code :: rest`, and the
body of the message is `rest`. -/
def Opens (self : Context C) (nonce : Nonce)
    (requestKid requestPiv ciphertext : Bytes) (plaintext : HVec ptCap)
    (code : UInt8) (body : HVec outCap × HVec outCap) : Prop :=
  ∃ aad rest, buildAadCbor requestKid requestPiv 64 = .ok aad ∧
    openMessage C self.recipientKey nonce aad.toList ciphertext =
      .ok plaintext ∧
    plaintext.toList = code :: rest ∧ releaseBody C rest = .ok body

/-- A request that `unprotect_request` lets through. -/
structure AcceptsRequest (ctx : Context C) (oscoreOption ciphertext : Bytes)
    (opt : OscoreOption) (seq : OscoreSeqNum) (plaintext : HVec ptCap)
    (message : Message) : Prop where
  length_le : tagLen + 1 ≤ ciphertext.length
  parsed : parseOption oscoreOption = .ok opt
  piv_ne : opt.piv ≠ []
  kidPresent : opt.kidPresent = true
  kid_eq : opt.kid = ctx.recipientId
  kidContext : ¬ ctx.foreignKidContext opt
  seq_eq : OscoreSeqNum.fromPiv opt.piv = some seq
  fresh : ctx.replay.isReplay seq = false
  opens : ctx.Opens (computeNonce ctx.recipientId opt.piv ctx.commonIv)
    opt.kid opt.piv ciphertext plaintext message.1 message.2

/-- The context after a request with sequence `seq` was accepted. -/
def acceptRequest (self : Context C) (seq : OscoreSeqNum) : Context C :=
  { self with replay := self.replay.updateReplayWindow seq }

theorem unprotectRequest_eq_ok {self after : Context C}
    {oscoreOption ciphertext : Bytes} {message : Message} :
    (unprotectRequest oscoreOption ciphertext).run self = .ok message after ↔
      ∃ opt seq plaintext,
        self.AcceptsRequest oscoreOption ciphertext opt seq plaintext
          message ∧
        after = self.acceptRequest seq := by
  simp only [unprotectRequest, Call.bind_eq_ok, get_eq_ok, check_eq_ok,
    failIf_eq_ok, okOr_eq_ok, modify_eq_ok, pure_run_eq_ok, Prod.exists,
    exists_and_left, exists_eq_left, exists_const, and_assoc, not_or, ne_eq,
    not_not, Bool.not_eq_false, Bool.not_eq_true]
  constructor
  · rintro ⟨hlen, opt, hparsed, hpiv, hpresent, hkid, hcontext, seq, hseq,
      hfresh, aad, haad, plaintext, hopen, -, code, hcode, rest, hrest,
      options, payload, hbody, rfl, rfl⟩
    have hplain := uncons_eq_ok.mp ⟨hcode, hrest⟩
    exact ⟨opt, seq, plaintext, ⟨Nat.not_lt.mp hlen, hparsed, hpiv, hpresent,
      hkid, hcontext, hseq, hfresh, aad, rest, haad, hopen, hplain, hbody⟩, rfl⟩
  · rintro ⟨opt, seq, plaintext, h, rfl⟩
    obtain ⟨aad, rest, haad, hopen, hplain, hbody⟩ := h.opens
    exact ⟨Nat.not_lt.mpr h.length_le, opt, h.parsed, h.piv_ne, h.kidPresent,
      h.kid_eq, h.kidContext, seq, h.seq_eq, h.fresh, aad, haad, plaintext,
      hopen, by simp [hplain], message.1, index_of_eq_cons hplain, rest,
      sliceFrom_of_eq_cons hplain, message.2.1, message.2.2, hbody, rfl, rfl⟩

theorem transactional_unprotectRequest (oscoreOption ciphertext : Bytes) :
    Transactional (unprotectRequest (C := C) oscoreOption ciphertext) := by
  refine readOnly_get.bind fun self => ?_
  iterate 13 refine (readOnly_check _).bind fun _ => ?_
  exact ((infallible_modify _).bind fun _ =>
    infallible_pure _).transactional

theorem explicitResponseSeq_eq_ok {self : Context C} {piv : Bytes}
    {responseSeq : Option OscoreSeqNum} :
    self.explicitResponseSeq piv = .ok responseSeq ↔
      (piv = [] ∧ responseSeq = none) ∨
        ∃ seq, piv ≠ [] ∧ OscoreSeqNum.fromPiv piv = some seq ∧
          self.receivedResponsePiv.isReuse seq = false ∧
          responseSeq = some seq := by
  unfold explicitResponseSeq
  by_cases hpiv : piv = []
  · simp only [hpiv, ne_eq, not_true_eq_false, ↓reduceIte, Outcome.pure_eq_ok,
      Except.ok.injEq, true_and, false_and, exists_false, or_false]
    exact eq_comm
  · simp only [hpiv, ne_eq, not_false_eq_true, ↓reduceIte, Outcome.bind_eq_ok,
      okOr_eq_ok, failIf_eq_ok, Outcome.pure_eq_ok, Except.ok.injEq,
      exists_const, false_and, true_and, false_or, Bool.not_eq_true]
    exact exists_congr fun seq =>
      and_congr_right fun _ => and_congr_right fun _ => eq_comm

/-- A response that `begin_unprotect_response_mode` lets through. -/
structure AcceptsResponse (ctx : Context C)
    (oscoreOption ciphertext requestPiv : Bytes) (observe : Bool)
    (opt : OscoreOption) (plaintext : HVec ptCap) (pending : PendingResponse) :
    Prop where
  length_le : tagLen + 1 ≤ ciphertext.length
  parsed : parseOption oscoreOption = .ok opt
  kidContext : ¬ ctx.foreignKidContext opt
  kid : opt.kidPresent = true → opt.kid = ctx.recipientId
  requestSeq_eq : OscoreSeqNum.fromPiv requestPiv = some pending.requestSeq
  fresh : observe = false →
    ctx.receivedResponse.isReuse pending.requestSeq = false
  observe_piv : observe = true → opt.piv ≠ []
  responseSeq_eq : ctx.explicitResponseSeq opt.piv = .ok pending.responseSeq
  marks : pending.markRequestUsed = !observe
  code : isResponseCode pending.code = true
  opens : ctx.Opens
    (computeNonce (if opt.piv ≠ [] then ctx.recipientId else ctx.senderId)
      (if opt.piv ≠ [] then opt.piv else requestPiv) ctx.commonIv)
    ctx.senderId requestPiv ciphertext plaintext pending.code
    (pending.options, pending.payload)

theorem beginUnprotectResponseMode_eq_ok {self after : Context C}
    {oscoreOption ciphertext requestPiv : Bytes} {observe : Bool}
    {pending : PendingResponse} :
    (beginUnprotectResponseMode oscoreOption ciphertext requestPiv
        observe).run self = .ok pending after ↔
      ∃ opt plaintext,
        self.AcceptsResponse oscoreOption ciphertext requestPiv observe opt
          plaintext pending ∧
        after = self := by
  simp only [beginUnprotectResponseMode, Call.bind_eq_ok, get_eq_ok,
    check_eq_ok, failIf_eq_ok, okOr_eq_ok, pure_run_eq_ok, Prod.exists,
    exists_and_left, exists_eq_left, exists_and_right, exists_const, and_assoc,
    not_and, not_not, Bool.not_eq_false, Bool.not_eq_true, ne_eq]
  constructor
  · rintro ⟨hlen, opt, hparsed, hcontext, hkid, requestSeq, hrequest, hfresh,
      hobserve, responseSeq, hresponse, aad, haad, plaintext, hopen, -, code,
      hcode, hclass, rest, hrest, options, payload, hbody, rfl, rfl⟩
    have hplain := uncons_eq_ok.mp ⟨hcode, hrest⟩
    exact ⟨⟨opt, plaintext, Nat.not_lt.mp hlen, hparsed, hcontext, hkid,
      hrequest, hfresh, hobserve, hresponse, rfl, hclass, aad, rest, haad,
      hopen, hplain, hbody⟩, rfl⟩
  · rintro ⟨⟨opt, plaintext, h⟩, rfl⟩
    obtain ⟨aad, rest, haad, hopen, hplain, hbody⟩ := h.opens
    have hpending : pending =
        ⟨pending.requestSeq, pending.responseSeq, !observe, pending.code,
          pending.options, pending.payload⟩ := by
      rw [← h.marks]
    exact ⟨Nat.not_lt.mpr h.length_le, opt, h.parsed, h.kidContext, h.kid,
      pending.requestSeq, h.requestSeq_eq, h.fresh, h.observe_piv,
      pending.responseSeq, h.responseSeq_eq, aad, haad, plaintext, hopen,
      by simp [hplain], pending.code, index_of_eq_cons hplain, h.code, rest,
      sliceFrom_of_eq_cons hplain, pending.options, pending.payload, hbody,
      hpending, rfl⟩

theorem readOnly_beginUnprotectResponseMode
    (oscoreOption ciphertext requestPiv : Bytes) (observe : Bool) :
    ReadOnly (beginUnprotectResponseMode (C := C) oscoreOption ciphertext
      requestPiv observe) := by
  refine readOnly_get.andThen fun self => ?_
  iterate 15 refine (readOnly_check _).andThen fun _ => ?_
  exact readOnly_pure _

/-- The context after a pending response was committed. -/
def acceptResponse (self : Context C) (pending : PendingResponse) :
    Context C :=
  { self with
    receivedResponsePiv := match pending.responseSeq with
      | some seq => self.receivedResponsePiv.mark seq
      | none => self.receivedResponsePiv
    receivedResponse :=
      if pending.markRequestUsed then
        self.receivedResponse.mark pending.requestSeq
      else self.receivedResponse }

theorem commit_eq_ok {self after : Context C} {pending : PendingResponse}
    {message : Message} :
    pending.commit.run self = .ok message after ↔
      isResponseCode pending.code = true ∧
        message = (pending.code, pending.options, pending.payload) ∧
        after = self.acceptResponse pending := by
  obtain ⟨requestSeq, responseSeq, markRequestUsed, code, options, payload⟩ :=
    pending
  cases responseSeq <;> cases markRequestUsed <;>
    simp only [PendingResponse.commit, Call.bind_eq_ok, check_eq_ok,
      failIf_eq_ok, modify_eq_ok, pure_run_eq_ok, acceptResponse,
      exists_and_left, exists_eq_left, exists_const, and_assoc,
      Bool.not_eq_false, Bool.false_eq_true, ↓reduceIte]

theorem transactional_commit (pending : PendingResponse) :
    Transactional (pending.commit (C := C)) := by
  refine (readOnly_check _).bind fun _ => Infallible.transactional ?_
  obtain ⟨requestSeq, responseSeq, markRequestUsed, code, options, payload⟩ :=
    pending
  cases responseSeq <;> cases markRequestUsed
  · exact infallible_pure _
  · exact (infallible_modify _).bind fun _ => infallible_pure _
  · exact (infallible_modify _).bind fun _ => infallible_pure _
  · exact (infallible_modify _).bind fun _ =>
      (infallible_modify _).bind fun _ => infallible_pure _

end Context

end Oscore
