/-
What a system shows of the messages it protects.  Two runs whose messages
differ in code, options and payload, but not in length, leave the same state and
release the same options with ciphertexts of the same length.
-/
import Oscore.Deployment
import Oscore.Lib.Twin

namespace Oscore

open Rust Rust.Call Twin

/-- Vectors of one length. -/
def SameLength {n : Nat} (v w : HVec n) : Prop :=
  v.toList.length = w.toList.length

/-- Protected messages with one option and one length. -/
def SameImage (message message' : Protected) : Prop :=
  SameLength message.1 message'.1 ∧ message.2 = message'.2

theorem alike_extend {n : Nat} {v w : HVec n} {bytes bytes' : Bytes}
    (h : SameLength v w) (hbytes : bytes.length = bytes'.length)
    (error : OscoreError) :
    Alike SameLength (okOr (v.extend bytes) error)
      (okOr (w.extend bytes') error) := by
  refine Alike.okOr ?_ error
  have hlength : (v.toList ++ bytes).length = (w.toList ++ bytes').length := by
    rw [List.length_append, List.length_append, h, hbytes]
  by_cases hfits : (v.toList ++ bytes).length ≤ n
  · rw [HVec.extend, HVec.extend, dif_pos hfits, dif_pos (hlength ▸ hfits)]
    exact .some hlength
  · rw [HVec.extend, HVec.extend, dif_neg hfits, dif_neg (hlength ▸ hfits)]
    exact .none

theorem alike_buildPlaintext {classEOptions payload : Bytes}
    {classEOptions' payload' : Bytes}
    (h : ctRequired classEOptions payload =
      ctRequired classEOptions' payload') (code code' : UInt8) :
    Alike SameLength (buildPlaintext code classEOptions payload)
      (buildPlaintext code' classEOptions' payload') := by
  rw [buildPlaintext_eq, buildPlaintext_eq, h]
  refine alike_extend rfl ?_ _
  have hlength := length_innerPlaintext code classEOptions payload
  have hlength' := length_innerPlaintext code' classEOptions' payload'
  omega

variable {C : Crypto}

/-- AES-CCM does not fail on what fits the buffer, and keeps its length. -/
theorem alike_encryptInPlace (haead : C.AeadCorrect) (key : Key)
    (nonce : Nonce) (aad : Bytes) {v w : HVec ctCap} (h : SameLength v w) :
    Alike (fun sealed sealed' => SameLength sealed.1 sealed'.1)
      (okOr (encryptInPlace C key nonce aad v) OscoreError.encryptFailed)
      (okOr (encryptInPlace C key nonce aad w) .encryptFailed) := by
  have hencrypts (u : HVec ctCap) : ∃ out tag,
      encryptInPlace C key nonce aad u = some (out, tag) ∧ SameLength out u := by
    have hsmall : u.toList.length < 2 ^ 16 :=
      Nat.lt_of_le_of_lt u.length_le (by decide)
    obtain ⟨body, tag, hencrypt, -⟩ := haead key nonce aad u.toList hsmall
    have hlength := C.ccmEncrypt_length _ _ _ _ _ _ hencrypt
    exact ⟨⟨body, hlength ▸ u.length_le⟩, tag,
      encryptInPlace_eq_some.mpr hencrypt, hlength⟩
  obtain ⟨out, tag, hout, hlength⟩ := hencrypts v
  obtain ⟨out', tag', hout', hlength'⟩ := hencrypts w
  rw [hout, hout']
  exact .ok ((hlength.trans h).trans hlength'.symm)

theorem alike_sealMessage (haead : C.AeadCorrect) (key : Key) (nonce : Nonce)
    (requestKid requestPiv : Bytes) {classEOptions payload : Bytes}
    {classEOptions' payload' : Bytes}
    (h : ctRequired classEOptions payload =
      ctRequired classEOptions' payload') (code code' : UInt8) :
    Alike SameLength
      (sealMessage C key nonce requestKid requestPiv code classEOptions payload)
      (sealMessage C key nonce requestKid requestPiv code' classEOptions'
        payload') := by
  refine (alike_buildPlaintext h code code').bind fun v w hvw => ?_
  refine (Alike.same (buildAadCbor requestKid requestPiv 64)).bind ?_
  rintro aad _ rfl
  refine (alike_encryptInPlace haead key nonce aad.toList hvw).bind ?_
  rintro ⟨out, tag⟩ ⟨out', tag'⟩ hout
  rw [h]
  exact alike_extend hout (tag.property.trans tag'.property.symm) _

namespace Context

variable (self : Context C)

theorem alike_protectRequestReserved (haead : C.AeadCorrect)
    (seq : OscoreSeqNum) {classEOptions payload : Bytes}
    {classEOptions' payload' : Bytes}
    (h : ctRequired classEOptions payload =
      ctRequired classEOptions' payload') (code code' : UInt8) :
    Alike SameImage
      (self.protectRequestReserved seq code classEOptions payload)
      (self.protectRequestReserved seq code' classEOptions' payload') := by
  refine (alike_sealMessage haead _ _ _ _ h code code').bind fun v w hvw => ?_
  refine (Alike.same (self.requestOption seq.encodePiv)).bind ?_
  rintro opt _ rfl
  exact .ok ⟨hvw, rfl⟩

theorem alike_protectResponseWithReservedPiv (haead : C.AeadCorrect)
    (seq : OscoreSeqNum) (requestKid requestPiv : Bytes)
    {classEOptions payload : Bytes} {classEOptions' payload' : Bytes}
    (h : ctRequired classEOptions payload =
      ctRequired classEOptions' payload') (code code' : UInt8) :
    Alike SameImage
      (self.protectResponseWithReservedPiv seq code classEOptions payload
        requestKid requestPiv)
      (self.protectResponseWithReservedPiv seq code' classEOptions' payload'
        requestKid requestPiv) := by
  refine (Alike.same _).bind fun _ _ _ => ?_
  refine (alike_sealMessage haead _ _ _ _ h code code').bind fun v w hvw => ?_
  refine (Alike.same (responseOption seq.encodePiv)).bind ?_
  rintro opt _ rfl
  exact .ok ⟨hvw, rfl⟩

theorem alike_sealResponse (haead : C.AeadCorrect)
    (requestKid requestPiv : Bytes) (includePiv : Bool) (noncePiv : Bytes)
    {classEOptions payload : Bytes} {classEOptions' payload' : Bytes}
    (h : ctRequired classEOptions payload =
      ctRequired classEOptions' payload') (code code' : UInt8) :
    Alike SameImage
      (self.sealResponse code classEOptions payload requestKid requestPiv
        includePiv noncePiv)
      (self.sealResponse code' classEOptions' payload' requestKid requestPiv
        includePiv noncePiv) := by
  refine (alike_sealMessage haead _ _ _ _ h code code').bind fun v w hvw => ?_
  cases includePiv with
  | true =>
      refine (Alike.same (responseOption noncePiv)).bind ?_
      rintro opt _ rfl
      exact .ok ⟨hvw, rfl⟩
  | false => exact .ok ⟨hvw, rfl⟩

theorem alike_protectResponse (haead : C.AeadCorrect)
    (requestKid requestPiv : Bytes) (includePiv : Bool)
    {classEOptions payload : Bytes} {classEOptions' payload' : Bytes}
    (h : ctRequired classEOptions payload =
      ctRequired classEOptions' payload') (code code' : UInt8) :
    Calls SameImage
      (protectResponse (C := C) code classEOptions payload requestKid
        requestPiv includePiv)
      (protectResponse code' classEOptions' payload' requestKid requestPiv
        includePiv) := by
  refine (Calls.same _).bind ?_
  rintro self _ rfl
  refine (Calls.same _).bind fun _ _ _ => ?_
  refine (Calls.same _).bind fun _ _ _ => ?_
  refine (Calls.same _).bind fun _ _ _ => ?_
  refine (Calls.same _).bind ?_
  rintro ⟨noncePiv, respSeq⟩ _ rfl
  refine (Calls.check (self.alike_sealResponse haead requestKid requestPiv
    includePiv noncePiv h code code')).bind fun message message' hsame => ?_
  cases respSeq with
  | none => exact Calls.pure hsame
  | some seq =>
      refine (Calls.same _).bind fun _ _ _ => ?_
      exact Calls.pure hsame

end Context

/-! Sessions and systems. -/

/-- Operations that differ at most in a message to protect, which has the same
length. -/
inductive Action.Alike : Action → Action → Prop where
  | same (action : Action) : Alike action action
  | request (code code' : UInt8) {classEOptions payload : Bytes}
      {classEOptions' payload' : Bytes}
      (h : ctRequired classEOptions payload =
        ctRequired classEOptions' payload') :
      Alike (.protectRequest code classEOptions payload)
        (.protectRequest code' classEOptions' payload')
  | responseWithPiv (code code' : UInt8) {classEOptions payload : Bytes}
      {classEOptions' payload' : Bytes} (requestKid requestPiv : Bytes)
      (h : ctRequired classEOptions payload =
        ctRequired classEOptions' payload') :
      Alike
        (.protectResponseWithPiv code classEOptions payload requestKid
          requestPiv)
        (.protectResponseWithPiv code' classEOptions' payload' requestKid
          requestPiv)
  | response (code code' : UInt8) {classEOptions payload : Bytes}
      {classEOptions' payload' : Bytes} (requestKid requestPiv : Bytes)
      (includePiv : Bool)
      (h : ctRequired classEOptions payload =
        ctRequired classEOptions' payload') :
      Alike
        (.protectResponse code classEOptions payload requestKid requestPiv
          includePiv)
        (.protectResponse code' classEOptions' payload' requestKid requestPiv
          includePiv)

/-- A completed operation as it is seen from outside: of a protected message,
its option and the length of its ciphertext. -/
inductive Seen where
  | request (seq : OscoreSeqNum) (oscoreOption : Bytes) (length : Nat)
  | response (ownSeq : Option OscoreSeqNum)
      (requestKid requestPiv oscoreOption : Bytes) (length : Nat)
  | other (event : Event)

def Event.seen : Event → Seen
  | .sentRequest seq _ _ _ message =>
      .request seq message.2.toList message.1.toList.length
  | .sentResponse ownSeq _ _ _ requestKid requestPiv message =>
      .response ownSeq requestKid requestPiv message.2.toList
        message.1.toList.length
  | event => .other event

theorem seen_sentRequest {message message' : Protected}
    (h : SameImage message message') (seq : OscoreSeqNum)
    (code code' : UInt8) (classEOptions payload : Bytes)
    (classEOptions' payload' : Bytes) :
    (Event.sentRequest seq code classEOptions payload message).seen =
      (Event.sentRequest seq code' classEOptions' payload' message').seen := by
  rw [Event.seen, Event.seen, h.1, h.2]

theorem seen_sentResponse {message message' : Protected}
    (h : SameImage message message') (ownSeq : Option OscoreSeqNum)
    (requestKid requestPiv : Bytes) (code code' : UInt8)
    (classEOptions payload : Bytes) (classEOptions' payload' : Bytes) :
    (Event.sentResponse ownSeq code classEOptions payload requestKid requestPiv
        message).seen =
      (Event.sentResponse ownSeq code' classEOptions' payload' requestKid
        requestPiv message').seen := by
  rw [Event.seen, Event.seen, h.1, h.2]

namespace Session

variable {σ ε : Type} {S : ContextStateStore σ ε}

/-- One session and one store, and one view of the event. -/
def SameOutcome (first second : Session C × σ × Option Event) : Prop :=
  first.1 = second.1 ∧ first.2.1 = second.2.1 ∧
    first.2.2.map Event.seen = second.2.2.map Event.seen

theorem sameOutcome_act (haead : C.AeadCorrect) (session : Session C)
    (store : σ) {action action' : Action} (h : action.Alike action') :
    SameOutcome (session.act S store action) (session.act S store action') := by
  obtain ⟨context, borrow⟩ := session
  cases h with
  | same => exact ⟨rfl, rfl, rfl⟩
  | @request code code' classEOptions payload classEOptions' payload' h =>
      cases borrow with
      | reserved sender =>
          have halike := context.alike_protectRequestReserved haead
            sender.sequence h code code'
          simp only [act, ReservedSender.protectRequest]
          revert halike
          generalize context.protectRequestReserved _ code _ _ = result
          generalize context.protectRequestReserved _ code' _ _ = result'
          intro halike
          cases halike with
          | ok himage =>
              exact ⟨rfl, rfl, congrArg some (seen_sentRequest himage ..)⟩
          | error fault => exact ⟨rfl, rfl, rfl⟩
      | free => exact ⟨rfl, rfl, rfl⟩
      | pending call response begun => exact ⟨rfl, rfl, rfl⟩
  | @responseWithPiv code code' classEOptions payload classEOptions' payload'
      requestKid requestPiv h =>
      cases borrow with
      | reserved sender =>
          have halike := context.alike_protectResponseWithReservedPiv haead
            sender.sequence requestKid requestPiv h code code'
          simp only [act, ReservedSender.protectResponseWithPiv]
          revert halike
          generalize context.protectResponseWithReservedPiv _ code _ _ _ _ =
            result
          generalize context.protectResponseWithReservedPiv _ code' _ _ _ _ =
            result'
          intro halike
          cases halike with
          | ok himage =>
              exact ⟨rfl, rfl, congrArg some (seen_sentResponse himage ..)⟩
          | error fault => exact ⟨rfl, rfl, rfl⟩
      | free => exact ⟨rfl, rfl, rfl⟩
      | pending call response begun => exact ⟨rfl, rfl, rfl⟩
  | @response code code' classEOptions payload classEOptions' payload'
      requestKid requestPiv includePiv h =>
      cases borrow with
      | free =>
          have halike := Context.alike_protectResponse haead requestKid
            requestPiv includePiv h code code' context
          simp only [act]
          revert halike
          generalize (Context.protectResponse code _ _ _ _ _).run context =
            result
          generalize (Context.protectResponse code' _ _ _ _ _).run context =
            result'
          intro halike
          cases halike with
          | ok himage after =>
              exact ⟨rfl, rfl, congrArg some (seen_sentResponse himage ..)⟩
          | error fault after => exact ⟨rfl, rfl, rfl⟩
      | reserved sender => exact ⟨rfl, rfl, rfl⟩
      | pending call response begun => exact ⟨rfl, rfl, rfl⟩

end Session

/-- Operations that differ at most in a message to protect. -/
inductive Op.Alike : Op → Op → Prop where
  | same (op : Op) : Alike op op
  | act (handle : Nat) {action action' : Action} (h : action.Alike action') :
      Alike (.act handle action) (.act handle action')

namespace Deployment

variable {σ ε : Type} {S : ContextStateStore σ ε}

/-- The entry of the log as it is seen from outside. -/
def seen (entry : Entry C) : Nat × Seen := (entry.handle, entry.event.seen)

/-- What does not depend on the content of messages. -/
structure SameFromOutside (sys sys' : Deployment C σ) : Prop where
  store : sys.store = sys'.store
  sessions : sys.sessions = sys'.sessions
  log : sys.log.map seen = sys'.log.map seen

theorem map_seen_toList (handle : Nat) (material : Material C)
    (event : Option Event) :
    (event.map (Entry.mk handle material)).toList.map seen =
      ((event.map Event.seen).map (Prod.mk handle)).toList := by
  cases event <;> rfl

/-- A step adds to the log without reading it. -/
theorem exists_step (S : ContextStateStore σ ε) (store : σ)
    (sessions : List (Option (Session C))) (op : Op) :
    ∃ store' sessions' recent, ∀ log,
      step S ⟨store, sessions, log⟩ op = ⟨store', sessions', recent ++ log⟩ := by
  cases op with
  | new masterSecret masterSalt idContext senderId recipientId =>
      simp only [step, spawn]
      split
      · exact ⟨_, _, [], fun _ => rfl⟩
      · exact ⟨_, _, [], fun _ => rfl⟩
  | newFresh masterSecret masterSalt idContext senderId recipientId =>
      simp only [step, spawn]
      split
      · exact ⟨_, _, [], fun _ => rfl⟩
      · exact ⟨_, _, [], fun _ => rfl⟩
  | registerFresh handle =>
      simp only [step, replace]
      split
      · split
        · exact ⟨_, _, _, fun _ => rfl⟩
        · exact ⟨_, _, [], fun _ => rfl⟩
      · exact ⟨_, _, [], fun _ => rfl⟩
  | restoreExisting handle =>
      simp only [step, replace]
      split
      · split
        · exact ⟨_, _, _, fun _ => rfl⟩
        · exact ⟨_, _, [], fun _ => rfl⟩
      · exact ⟨_, _, [], fun _ => rfl⟩
  | saveRecipient handle =>
      simp only [step]
      split
      · exact ⟨_, _, [], fun _ => rfl⟩
      · exact ⟨_, _, [], fun _ => rfl⟩
  | crash handle =>
      simp only [step]
      exact ⟨_, _, [], fun _ => rfl⟩
  | act handle action =>
      simp only [step]
      split
      · exact ⟨_, _, _, fun _ => rfl⟩
      · exact ⟨_, _, [], fun _ => rfl⟩

/-- Operations that differ in content only leave the same behind. -/
theorem sameFromOutside_step (haead : C.AeadCorrect)
    {sys sys' : Deployment C σ} {op op' : Op} (h : SameFromOutside sys sys')
    (hop : op.Alike op') :
    SameFromOutside (step S sys op) (step S sys' op') := by
  obtain ⟨store, sessions, log⟩ := sys
  obtain ⟨_, _, log'⟩ := sys'
  obtain ⟨rfl, rfl, hlog⟩ := h
  cases hop with
  | same =>
      obtain ⟨store', sessions', recent, hstep⟩ :=
        exists_step S store sessions op
      rw [hstep, hstep]
      exact ⟨rfl, rfl, by rw [List.map_append, List.map_append, hlog]⟩
  | @act handle action action' h =>
      simp only [step]
      split
      · rename_i session hlive
        have hsame := session.sameOutcome_act (S := S) haead store h
        revert hsame
        generalize session.act S store action = outcome
        generalize session.act S store action' = outcome'
        intro hsame
        obtain ⟨session', store', event⟩ := outcome
        obtain ⟨_, _, event'⟩ := outcome'
        obtain ⟨rfl, rfl, hevent⟩ := hsame
        refine ⟨rfl, rfl, ?_⟩
        simp only [List.map_append, map_seen_toList, hevent, hlog]
      · exact ⟨rfl, rfl, hlog⟩

/-- Two runs that differ in what they protect, but not in its length, show the
same from outside and leave the same state. -/
theorem content_stays_inside (haead : C.AeadCorrect)
    (S : ContextStateStore σ ε) (store : σ) {ops ops' : List Op}
    (h : List.Forall₂ Op.Alike ops ops') :
    SameFromOutside (History.run (step S) (boot C store) ops)
      (History.run (step S) (boot C store) ops') :=
  run_related (fun _ _ _ _ => sameFromOutside_step haead) h ⟨rfl, rfl, rfl⟩

/-- A request with this code, options and payload. -/
def requestRun (code : UInt8) (classEOptions payload : Bytes) : List Op :=
  [.newFresh Crypto.sampleKey none none [1] [2], .registerFresh 0,
    .act 0 .reserve, .act 0 (.protectRequest code classEOptions payload)]

/-- One with an option, and one with a payload as long as that option. -/
theorem content_stays_inside_requestRun :
    let sys := History.run (step memoryStore)
      (boot Crypto.standIn MemoryState.empty) (requestRun 1 [0xC1, 5] [])
    let sys' := History.run (step memoryStore)
      (boot Crypto.standIn MemoryState.empty) (requestRun 2 [] [97])
    sys.log.map Entry.event ≠ sys'.log.map Entry.event ∧
      SameFromOutside sys sys' := by
  have halike : List.Forall₂ Op.Alike (requestRun 1 [0xC1, 5] [])
      (requestRun 2 [] [97]) :=
    .cons (.same _) (.cons (.same _) (.cons (.same _)
      (.cons (.act 0 (.request 1 2 (by decide))) .nil)))
  exact ⟨by decide +kernel, content_stays_inside Crypto.standIn_aeadCorrect
    memoryStore MemoryState.empty halike⟩

end Deployment

end Oscore
