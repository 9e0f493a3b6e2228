/-
Protecting requests and responses.  Every path writes the plaintext into the
output buffer, encrypts it in place and appends the tag; they differ in the
nonce, the AAD and the option value.
-/
import Oscore.Context
import Oscore.CoapOption

namespace Oscore

open Rust Rust.Call

/-- The largest `usize` of a 32-bit target. -/
abbrev usizeMax : Nat := 2 ^ 32 - 1

/-- `usize::checked_add` -/
def checkedAdd (a b : Nat) : Option Nat :=
  if a + b ≤ usizeMax then some (a + b) else none

/-- Ciphertext with its tag, and the OSCORE option value. -/
abbrev Protected := HVec ctCap × HVec oscoreOptionMaxLen

/-- Size of the protected message for error reporting. -/
def ctRequired (classEOptions payload : Bytes) : Nat :=
  1 + classEOptions.length + (if payload = [] then 0 else 1 + payload.length) +
    tagLen

/-- Build the plaintext directly in the output buffer. -/
def buildPlaintext (code : UInt8) (classEOptions payload : Bytes) :
    Outcome OscoreError (HVec ctCap) := do
  let ctErr := .bufferTooSmall ⟨ctRequired classEOptions payload, ctCap⟩
  let ctOut ← okOr (HVec.empty.push code) ctErr
  let ctOut ← okOr (ctOut.extend classEOptions) ctErr
  if payload ≠ [] then
    let ctOut ← okOr (ctOut.push 0xFF) ctErr
    okOr (ctOut.extend payload) ctErr
  else
    return ctOut

/-- `encrypt_in_place_detached` -/
def encryptInPlace (C : Crypto) {capacity : Nat} (key : Key) (nonce : Nonce)
    (aad : Bytes) (buffer : HVec capacity) : Option (HVec capacity × Tag) :=
  match h : C.ccmEncrypt key nonce aad buffer.toList with
  | none => none
  | some (body, tag) => some (⟨body, by
      rw [C.ccmEncrypt_length _ _ _ _ _ _ h]
      exact buffer.length_le⟩, tag)

/-- The part all protect paths share: plaintext, AAD, encryption, tag. -/
def sealMessage (C : Crypto) (key : Key) (nonce : Nonce)
    (requestKid requestPiv : Bytes) (code : UInt8)
    (classEOptions payload : Bytes) : Outcome OscoreError (HVec ctCap) := do
  let ctOut ← buildPlaintext code classEOptions payload
  let aad ← buildAadCbor requestKid requestPiv 64
  let (ctOut, tag) ←
    okOr (encryptInPlace C key nonce aad.toList ctOut) .encryptFailed
  okOr (ctOut.extend tag.val)
    (.bufferTooSmall ⟨ctRequired classEOptions payload, ctCap⟩)

/-- The plaintext of a message: code, options, and the payload behind its
marker unless it is empty. -/
def innerPlaintext (code : UInt8) (classEOptions payload : Bytes) : Bytes :=
  code :: (classEOptions ++ if payload = [] then [] else 0xFF :: payload)

theorem length_innerPlaintext (code : UInt8) (classEOptions payload : Bytes) :
    (innerPlaintext code classEOptions payload).length + tagLen =
      ctRequired classEOptions payload := by
  unfold innerPlaintext ctRequired
  split <;> simp <;> omega

theorem buildPlaintext_eq (code : UInt8) (classEOptions payload : Bytes) :
    buildPlaintext code classEOptions payload =
      okOr (HVec.empty.extend (innerPlaintext code classEOptions payload))
        (.bufferTooSmall ⟨ctRequired classEOptions payload, ctCap⟩) := by
  unfold buildPlaintext innerPlaintext
  by_cases hpayload : payload = []
  · simp only [hpayload, ne_eq, not_true_eq_false, ↓reduceIte, HVec.push,
      bind_pure, HVec.okOr_extend]
    simp
  · simp only [hpayload, ne_eq, not_false_eq_true, ↓reduceIte, HVec.push,
      HVec.okOr_extend]
    simp

theorem encryptInPlace_eq_some {C : Crypto} {capacity : Nat} {key : Key}
    {nonce : Nonce} {aad : Bytes} {buffer out : HVec capacity} {tag : Tag} :
    encryptInPlace C key nonce aad buffer = some (out, tag) ↔
      C.ccmEncrypt key nonce aad buffer.toList = some (out.toList, tag) := by
  unfold encryptInPlace
  split
  · rename_i h
    simp [h]
  · rename_i body tag' h
    simp [h, HVec.ext_iff]

/-- A sealed message is the encrypted plaintext and its tag. -/
theorem sealMessage_eq_ok {C : Crypto} {key : Key} {nonce : Nonce}
    {requestKid requestPiv : Bytes} {code : UInt8}
    {classEOptions payload : Bytes} {ctOut : HVec ctCap} :
    sealMessage C key nonce requestKid requestPiv code classEOptions payload =
        .ok ctOut ↔
      ∃ aad body tag, buildAadCbor requestKid requestPiv 64 = .ok aad ∧
        C.ccmEncrypt key nonce aad.toList
            (innerPlaintext code classEOptions payload) = some (body, tag) ∧
        ctOut.toList = body ++ tag.val := by
  simp only [sealMessage, buildPlaintext_eq, Outcome.bind_eq_ok, okOr_eq_ok,
    HVec.extend_eq_some, encryptInPlace_eq_some, Prod.exists,
    HVec.toList_empty, List.nil_append]
  constructor
  · rintro ⟨plaintext, hplain, aad, haad, body, tag, hencrypt, hout⟩
    exact ⟨aad, body.toList, tag, haad, hplain ▸ hencrypt, hout⟩
  · rintro ⟨aad, body, tag, haad, hencrypt, hout⟩
    have hlength := C.ccmEncrypt_length _ _ _ _ _ _ hencrypt
    have hfit := ctOut.length_le
    rw [hout, List.length_append] at hfit
    exact ⟨⟨innerPlaintext code classEOptions payload, by omega⟩, rfl, aad,
      haad, ⟨body, by omega⟩, tag, hencrypt, hout⟩

theorem ctRequired_of_sealMessage {C : Crypto} {key : Key} {nonce : Nonce}
    {requestKid requestPiv : Bytes} {code : UInt8}
    {classEOptions payload : Bytes} {ctOut : HVec ctCap}
    (h : sealMessage C key nonce requestKid requestPiv code classEOptions
      payload = .ok ctOut) : ctRequired classEOptions payload ≤ ctCap := by
  obtain ⟨aad, body, tag, -, hencrypt, hout⟩ := sealMessage_eq_ok.mp h
  have hlength := C.ccmEncrypt_length _ _ _ _ _ _ hencrypt
  have hfit := ctOut.length_le
  rw [hout, List.length_append, tag.property, hlength,
    length_innerPlaintext] at hfit
  exact hfit

namespace Context

variable {C : Crypto} {σ ε : Type}

/-- The OSCORE option of a request: flags, PIV, KID context, KID. -/
def requestOption (self : Context C) (piv : Bytes) :
    Outcome OscoreError (HVec oscoreOptionMaxLen) := do
  let hasContext : UInt8 := if self.idContext.isSome then 1 else 0
  let flags := (0x08 : UInt8) ||| hasContext <<< 4 |||
    (UInt8.ofNat piv.length &&& 0x07)
  let contextLen := match self.idContext with
    | some bytes => 1 + bytes.length
    | none => 0
  let optErr := .bufferTooSmall
    ⟨1 + piv.length + contextLen + self.senderId.length, oscoreOptionMaxLen⟩
  let opt ← okOr (HVec.empty.push flags) optErr
  let opt ← okOr (opt.extend piv) optErr
  let opt ← match self.idContext with
    | some bytes => do
        let opt ← okOr (opt.push (UInt8.ofNat bytes.length)) optErr
        okOr (opt.extend bytes) optErr
    | none => pure opt
  okOr (opt.extend self.senderId) optErr

/-- The OSCORE option of a response that carries a PIV. -/
def responseOption (piv : Bytes) :
    Outcome OscoreError (HVec oscoreOptionMaxLen) := do
  let optErr := .bufferTooSmall ⟨1 + piv.length, oscoreOptionMaxLen⟩
  let opt ← okOr (HVec.empty.push (UInt8.ofNat piv.length &&& 0x07)) optErr
  okOr (opt.extend piv) optErr

def protectRequestReserved (self : Context C) (seq : OscoreSeqNum)
    (code : UInt8) (classEOptions payload : Bytes) :
    Outcome OscoreError Protected := do
  let piv := seq.encodePiv
  let nonce := computeNonce self.senderId piv self.commonIv
  let ctOut ← sealMessage C self.senderKey nonce self.senderId piv code
    classEOptions payload
  let opt ← self.requestOption piv
  return (ctOut, opt)

/-- The request a response answers: its KID is the recipient ID of this context
and its PIV is canonical. -/
def badRequest (self : Context C) (requestKid requestPiv : Bytes) : Prop :=
  requestKid.length > nonceIdLen ∨
    (OscoreSeqNum.fromPiv requestPiv).isNone = true ∨
    requestKid ≠ self.recipientId

instance (self : Context C) (requestKid requestPiv : Bytes) :
    Decidable (self.badRequest requestKid requestPiv) :=
  inferInstanceAs (Decidable (_ ∨ _ ∨ _))

/-- Determine the PIV of a response nonce: own sequence if including, else the
PIV of the request, which then must not have been answered that way. -/
def responsePiv (requestPiv : Bytes) (includePiv : Bool) :
    Call (Context C) OscoreError (Bytes × Option OscoreSeqNum) := do
  let self ← get
  if includePiv then
    let (fetched, cell) := self.senderSeq.fetchIncrement
    modify fun self => { self with senderSeq := cell }
    let seq ← check (okOr fetched .seqExhausted)
    return (seq.encodePiv, none)
  else
    let seq ← check (okOr (OscoreSeqNum.fromPiv requestPiv) .invalidParam)
    check (failIf (self.isResponseReuse seq = true) .replay)
    return (requestPiv, some seq)

/-- Encryption and option of a response, behind the choice of its PIV. -/
def sealResponse (self : Context C) (code : UInt8)
    (classEOptions payload requestKid requestPiv : Bytes) (includePiv : Bool)
    (noncePiv : Bytes) : Outcome OscoreError Protected := do
  let nonceId := if includePiv then self.senderId else requestKid
  let nonce := computeNonce nonceId noncePiv self.commonIv
  let ctOut ← sealMessage C self.senderKey nonce requestKid requestPiv code
    classEOptions payload
  let opt ← if includePiv then responseOption noncePiv else pure HVec.empty
  return (ctOut, opt)

/-- Protect (encrypt) an OSCORE response. -/
def protectResponse (code : UInt8)
    (classEOptions payload requestKid requestPiv : Bytes) (includePiv : Bool) :
    Call (Context C) OscoreError Protected := do
  let self ← get
  check (failIf (self.badRequest requestKid requestPiv) .invalidParam)
  check (failIf (self.active = false) .invalidParam)
  check (failIf (includePiv = false ∧ self.allowNoPivResponse = false)
    .invalidParam)
  let (noncePiv, respSeq) ← responsePiv requestPiv includePiv
  let message ← check (self.sealResponse code classEOptions payload requestKid
    requestPiv includePiv noncePiv)
  match respSeq with
  | some seq =>
      modify fun self => self.markResponseUsed seq
      return message
  | none => return message

def protectResponseWithPivInner (self : Context C) (code : UInt8)
    (classEOptions payload requestKid requestPiv responsePiv : Bytes) :
    Outcome OscoreError Protected := do
  let nonce := computeNonce self.senderId responsePiv self.commonIv
  let ctOut ← sealMessage C self.senderKey nonce requestKid requestPiv code
    classEOptions payload
  let option ← responseOption responsePiv
  return (ctOut, option)

def protectResponseWithReservedPiv (self : Context C) (seq : OscoreSeqNum)
    (code : UInt8) (classEOptions payload requestKid requestPiv : Bytes) :
    Outcome OscoreError Protected := do
  failIf (self.badRequest requestKid requestPiv) .invalidParam
  self.protectResponseWithPivInner code classEOptions payload requestKid
    requestPiv seq.encodePiv

/-- The size check at the end of both preflights. -/
def requiredFits (classEOptions payload : Bytes) : Outcome OscoreError Unit := do
  let marker := if payload = [] then 0 else 1
  let required ← okOr
    ((checkedAdd 1 classEOptions.length).bind fun n =>
      (checkedAdd n marker).bind fun n =>
      (checkedAdd n payload.length).bind fun n => checkedAdd n tagLen)
    .invalidParam
  failIf (required > ctCap) (.bufferTooSmall ⟨required, ctCap⟩)

/-- The two receiver caps at the head of both preflights. -/
def receiverCaps (classEOptions payload : Bytes) : Outcome OscoreError Unit := do
  failIf (classEOptions.length > outCap)
    (.bufferTooSmall ⟨classEOptions.length, outCap⟩)
  failIf (payload.length > outCap) (.bufferTooSmall ⟨payload.length, outCap⟩)

/-- Check that request protection can fit all bounded outputs before reserving
a PIV. -/
def preflightProtectRequest (self : Context C) (classEOptions payload : Bytes) :
    Outcome OscoreError Unit := do
  failIf (self.active = false) .invalidParam
  receiverCaps classEOptions payload
  requiredFits classEOptions payload
  let contextLen := match self.idContext with
    | some bytes => 1 + bytes.length
    | none => 0
  let optionRequired := 1 + pivMaxLen + contextLen + self.senderId.length
  failIf (optionRequired > oscoreOptionMaxLen)
    (.bufferTooSmall ⟨optionRequired, oscoreOptionMaxLen⟩)

/-- Check that response protection can fit all bounded outputs before reserving
a PIV. -/
def preflightProtectResponse (self : Context C)
    (classEOptions payload requestKid requestPiv : Bytes) :
    Outcome OscoreError Unit := do
  failIf (self.active = false ∨ self.badRequest requestKid requestPiv)
    .invalidParam
  receiverCaps classEOptions payload
  let (parsedOptions, parsedPayload) ← parseInnerBody classEOptions
  failIf (parsedOptions ≠ classEOptions ∨ parsedPayload ≠ []) .invalidParam
  requiredFits classEOptions payload

/-- Exact OSCORE option length for the next request sender reservation. -/
def nextRequestOptionLen (self : Context C) : Outcome OscoreError Nat := do
  failIf (self.active = false ∨ self.senderSeqExhausted = true) .seqExhausted
  let contextLen := match self.idContext with
    | some bytes => 1 + bytes.length
    | none => 0
  return 1 + self.senderSeq.encodePiv.length + contextLen + self.senderId.length

/-! What `protect_response` has checked when it succeeds, and what it writes. -/

/-- The context after `protect_response` took a sender sequence of its own. -/
def tookSequence (self : Context C) : Context C :=
  { self with senderSeq := self.senderSeq.fetchIncrement.2 }

/-- The context after a response without a PIV was protected. -/
def answered (self : Context C) (seq : OscoreSeqNum) : Context C :=
  { self with response := self.response.mark seq }

/-- A response that `protect_response` protects without a PIV. -/
structure AnswersBare (ctx : Context C) (requestPiv : Bytes)
    (seq : OscoreSeqNum) : Prop where
  allowed : ctx.allowNoPivResponse = true
  seq_eq : OscoreSeqNum.fromPiv requestPiv = some seq
  fresh : ctx.response.isReuse seq = false

theorem responsePiv_eq_ok {self after : Context C} {requestPiv : Bytes}
    {includePiv : Bool} {noncePiv : Bytes} {respSeq : Option OscoreSeqNum} :
    (responsePiv requestPiv includePiv).run self =
        .ok (noncePiv, respSeq) after ↔
      (includePiv = true ∧ self.senderSeq.get < seqMax ∧
        noncePiv = self.senderSeq.encodePiv ∧ respSeq = none ∧
        after = self.tookSequence) ∨
      ∃ seq, includePiv = false ∧
        OscoreSeqNum.fromPiv requestPiv = some seq ∧
        self.response.isReuse seq = false ∧ noncePiv = requestPiv ∧
        respSeq = some seq ∧ after = self := by
  cases includePiv with
  | true =>
      simp only [responsePiv, Call.bind_eq_ok, get_eq_ok, check_eq_ok,
        okOr_eq_ok, modify_eq_ok, pure_run_eq_ok, ↓reduceIte, exists_eq_left,
        exists_and_left, exists_const, Prod.mk.injEq, and_assoc,
        OscoreSeqNum.fetchIncrement_fst_eq_some, tookSequence]
      simp
  | false =>
      simp only [responsePiv, Call.bind_eq_ok, get_eq_ok, check_eq_ok,
        okOr_eq_ok, failIf_eq_ok, pure_run_eq_ok, exists_eq_left,
        exists_and_left, exists_const, Prod.mk.injEq, and_assoc,
        Bool.false_eq_true, ↓reduceIte, Bool.not_eq_true]
      simp

theorem transactional_responsePiv (requestPiv : Bytes) (includePiv : Bool) :
    Transactional (responsePiv (C := C) requestPiv includePiv) := by
  cases includePiv with
  | false =>
      exact readOnly_get.bind fun _ => (readOnly_check _).bind fun _ =>
        (readOnly_check _).bind fun _ => (infallible_pure _).transactional
  | true =>
      intro self after fault h
      simp only [responsePiv, Call.bind_eq_error, get_eq_ok, get_ne_error,
        modify_eq_ok, modify_ne_error, check_eq_error, okOr_eq_error,
        pure_run_ne_error, ↓reduceIte, exists_eq_left, exists_and_left,
        exists_const, exists_false, and_false, false_or, or_false] at h
      obtain ⟨_, _, ⟨rfl, rfl⟩, ⟨hnone, -⟩, rfl⟩ := h
      rw [OscoreSeqNum.fetchIncrement_snd_of_none hnone]

theorem protectResponse_eq_ok {self after : Context C} {code : UInt8}
    {classEOptions payload requestKid requestPiv : Bytes} {includePiv : Bool}
    {message : Protected} :
    (protectResponse code classEOptions payload requestKid requestPiv
        includePiv).run self = .ok message after ↔
      self.active = true ∧ ¬ self.badRequest requestKid requestPiv ∧
        ((includePiv = true ∧ self.senderSeq.get < seqMax ∧
            self.sealResponse code classEOptions payload requestKid requestPiv
              true self.senderSeq.encodePiv = .ok message ∧
            after = self.tookSequence) ∨
          includePiv = false ∧ ∃ seq, self.AnswersBare requestPiv seq ∧
            self.sealResponse code classEOptions payload requestKid requestPiv
              false requestPiv = .ok message ∧
            after = self.answered seq) := by
  simp only [protectResponse, Call.bind_eq_ok, get_eq_ok, check_eq_ok,
    failIf_eq_ok, exists_eq_left, exists_and_left, exists_const, and_assoc,
    Bool.not_eq_false]
  constructor
  · rintro ⟨hrequest, hactive, hallow, ⟨noncePiv, respSeq⟩, ctx, hpiv, message',
      hseal, h⟩
    rcases responsePiv_eq_ok.mp hpiv with
      ⟨rfl, hlt, rfl, rfl, rfl⟩ | ⟨seq, rfl, hseq, hfresh, rfl, rfl, rfl⟩
    · obtain ⟨rfl, rfl⟩ := pure_run_eq_ok.mp h
      exact ⟨hactive, hrequest, Or.inl ⟨rfl, hlt, hseal, rfl⟩⟩
    · obtain ⟨_, _, hmodify, h⟩ := Call.bind_eq_ok.mp h
      obtain ⟨rfl, rfl⟩ := pure_run_eq_ok.mp h
      have hallowed : ctx.allowNoPivResponse = true := by
        simpa using hallow
      exact ⟨hactive, hrequest, Or.inr ⟨rfl, seq, ⟨hallowed, hseq, hfresh⟩,
        hseal, modify_eq_ok.mp hmodify⟩⟩
  · rintro ⟨hactive, hrequest, ⟨rfl, hlt, hseal, rfl⟩ |
      ⟨rfl, seq, hbare, hseal, rfl⟩⟩
    · refine ⟨hrequest, hactive, by simp, (_, none), self.tookSequence,
        responsePiv_eq_ok.mpr (Or.inl ⟨rfl, hlt, rfl, rfl, rfl⟩), message,
        hseal, rfl⟩
    · refine ⟨hrequest, hactive, by simp [hbare.allowed], (_, some seq), self,
        responsePiv_eq_ok.mpr
          (Or.inr ⟨seq, rfl, hbare.seq_eq, hbare.fresh, rfl, rfl, rfl⟩),
        message, hseal, rfl⟩

/-- A failed `protect_response` may have taken a sequence number, and changes
nothing else. -/
theorem protectResponse_eq_error {self after : Context C} {code : UInt8}
    {classEOptions payload requestKid requestPiv : Bytes} {includePiv : Bool}
    {fault : Fault OscoreError}
    (h : (protectResponse code classEOptions payload requestKid requestPiv
      includePiv).run self = .error fault after) :
    after = self ∨
      (includePiv = true ∧ self.active = true ∧ after = self.tookSequence) := by
  simp only [protectResponse, Call.bind_eq_error, get_eq_ok, get_ne_error,
    check_eq_ok, check_eq_error, failIf_eq_ok, exists_eq_left, exists_and_left,
    exists_const, and_assoc, false_or, Bool.not_eq_false] at h
  rcases h with ⟨-, rfl⟩ | ⟨-, ⟨-, rfl⟩ | ⟨hactive, ⟨-, rfl⟩ | ⟨-, h⟩⟩⟩
  · exact Or.inl rfl
  · exact Or.inl rfl
  · exact Or.inl rfl
  rcases h with h | ⟨⟨noncePiv, respSeq⟩, ctx, hpiv, h⟩
  · exact Or.inl (transactional_responsePiv _ _ _ _ _ h)
  · rcases responsePiv_eq_ok.mp hpiv with
      ⟨rfl, -, -, rfl, rfl⟩ | ⟨seq, -, -, -, -, rfl, rfl⟩
    · rcases h with ⟨-, rfl⟩ | ⟨message, -, h⟩
      · exact Or.inr ⟨rfl, hactive, rfl⟩
      · exact (pure_run_ne_error h).elim
    · rcases h with ⟨-, rfl⟩ | ⟨message, -, h⟩
      · exact Or.inl rfl
      · exact ((infallible_modify _).bind (fun _ => infallible_pure _) _ _ _
          h).elim

end Context

namespace ReservedSender

variable {C : Crypto}

/-- Protect a request using this durably reserved sender sequence. -/
def protectRequest (self : ReservedSender) (context : Context C) (code : UInt8)
    (classEOptions payload : Bytes) : Outcome OscoreError Protected :=
  context.protectRequestReserved self.sequence code classEOptions payload

/-- Protect a response with a fresh, durably reserved sender PIV. -/
def protectResponseWithPiv (self : ReservedSender) (context : Context C)
    (code : UInt8) (classEOptions payload requestKid requestPiv : Bytes) :
    Outcome OscoreError Protected :=
  context.protectResponseWithReservedPiv self.sequence code classEOptions
    payload requestKid requestPiv

end ReservedSender

end Oscore
