/-
A live context as its owner uses it.  A reservation or a pending response holds
the mutable borrow of the context, so that only the call that ends the borrow
can follow it.
-/
import Oscore.Store
import Oscore.Unprotect

namespace Oscore

open Rust Rust.Call

/-- The arguments of a `begin_unprotect_response` or, with `observe` set, a
`begin_unprotect_observe_response` call. -/
structure ResponseCall where
  oscoreOption : Bytes
  ciphertext : Bytes
  requestPiv : Bytes
  observe : Bool
deriving DecidableEq

/-- The pending value is what the call returned on this context. -/
def Context.Authenticates {C : Crypto} (self : Context C) (call : ResponseCall)
    (opt : OscoreOption) (plaintext : HVec ptCap) (pending : PendingResponse) :
    Prop :=
  self.AcceptsResponse call.oscoreOption call.ciphertext call.requestPiv
    call.observe opt plaintext pending

/-- Who holds the mutable borrow of a context. -/
inductive Borrow {C : Crypto} (context : Context C) where
  | free
  | reserved (sender : ReservedSender)
  | pending (call : ResponseCall) (response : PendingResponse)
      (begun : ∃ opt plaintext,
        context.Authenticates call opt plaintext response)

structure Session (C : Crypto) where
  context : Context C
  borrow : Borrow context

/-- A public operation on a live context.  `release` drops the reservation or
the pending response. -/
inductive Action where
  | reserve
  | protectRequest (code : UInt8) (classEOptions payload : Bytes)
  | protectResponseWithPiv (code : UInt8)
      (classEOptions payload requestKid requestPiv : Bytes)
  | protectResponse (code : UInt8)
      (classEOptions payload requestKid requestPiv : Bytes) (includePiv : Bool)
  | unprotectRequest (oscoreOption ciphertext : Bytes)
  | beginResponse (call : ResponseCall)
  | commit
  | release
deriving DecidableEq

/-- A completed operation with its arguments and its result. -/
inductive Event where
  | registered
  | reserved (seq : OscoreSeqNum)
  | sentRequest (seq : OscoreSeqNum) (code : UInt8)
      (classEOptions payload : Bytes) (message : Protected)
  | sentResponse (ownSeq : Option OscoreSeqNum) (code : UInt8)
      (classEOptions payload requestKid requestPiv : Bytes)
      (message : Protected)
  | gotRequest (oscoreOption ciphertext : Bytes) (message : Message)
  | gotResponse (call : ResponseCall) (message : Message)
deriving DecidableEq

namespace Session

variable {C : Crypto} {σ ε : Type}

/-- One operation: the session and the store it leaves, and the event if the
operation completed.  The last case is what the borrow checker rules out. -/
def act (S : ContextStateStore σ ε) (session : Session C) (store : σ)
    (action : Action) : Session C × σ × Option Event :=
  let ⟨context, borrow⟩ := session
  match action, borrow with
  | .release, _ => (⟨context, .free⟩, store, none)
  | .reserve, .free =>
      match (Context.reserveSender S).run (context, store) with
      | .ok sender (context, store) =>
          (⟨context, .reserved sender⟩, store,
            some (.reserved sender.sequence))
      | .error _ (context, store) => (⟨context, .free⟩, store, none)
  | .protectRequest code classEOptions payload, .reserved sender =>
      match sender.protectRequest context code classEOptions payload with
      | .ok message => (⟨context, .free⟩, store,
          some (.sentRequest sender.sequence code classEOptions payload
            message))
      | .error _ => (⟨context, .free⟩, store, none)
  | .protectResponseWithPiv code classEOptions payload requestKid requestPiv,
      .reserved sender =>
      match sender.protectResponseWithPiv context code classEOptions payload
          requestKid requestPiv with
      | .ok message => (⟨context, .free⟩, store,
          some (.sentResponse (some sender.sequence) code classEOptions payload
            requestKid requestPiv message))
      | .error _ => (⟨context, .free⟩, store, none)
  | .protectResponse code classEOptions payload requestKid requestPiv
      includePiv, .free =>
      match (Context.protectResponse code classEOptions payload requestKid
          requestPiv includePiv).run context with
      | .ok message after => (⟨after, .free⟩, store,
          some (.sentResponse (if includePiv then some context.senderSeq
            else none) code classEOptions payload requestKid requestPiv
            message))
      | .error _ after => (⟨after, .free⟩, store, none)
  | .unprotectRequest oscoreOption ciphertext, .free =>
      match (Context.unprotectRequest oscoreOption ciphertext).run context with
      | .ok message after => (⟨after, .free⟩, store,
          some (.gotRequest oscoreOption ciphertext message))
      | .error _ after => (⟨after, .free⟩, store, none)
  | .beginResponse call, .free =>
      match h : (Context.beginUnprotectResponseMode call.oscoreOption
          call.ciphertext call.requestPiv call.observe).run context with
      | .ok pending after => (⟨after, .pending call pending (by
          obtain ⟨opt, plaintext, haccepts, rfl⟩ :=
            Context.beginUnprotectResponseMode_eq_ok.mp h
          exact ⟨opt, plaintext, haccepts⟩)⟩, store, none)
      | .error _ after => (⟨after, .free⟩, store, none)
  | .commit, .pending call pending _ =>
      match pending.commit.run context with
      | .ok message after => (⟨after, .free⟩, store,
          some (.gotResponse call message))
      | .error _ after => (⟨after, .free⟩, store, none)
  | _, borrow => (⟨context, borrow⟩, store, none)

/-- What an operation can do: every way it can leave the session and the
store, with the event it completes with and what it has checked. -/
inductive Effect (S : ContextStateStore σ ε) (session : Session C)
    (store : σ) : Action → Session C → σ → Option Event → Prop where
  | skipped (action : Action) : Effect S session store action session store none
  | freed (action : Action) :
      Effect S session store action ⟨session.context, .free⟩ store none
  | reserved (store' : σ)
      (active : session.context.active = true)
      (fresh : session.context.senderSeqExhausted = false)
      (swapped : (session.context.reservation S).run store = .ok true store') :
      Effect S session store .reserve
        ⟨session.context.reserved, .reserved ⟨session.context.senderSeq⟩⟩
        store' (some (.reserved session.context.senderSeq))
  | reserveFailed (store' : σ)
      (failed : store' = store ∨
        (session.context.reservation S).run store = .ok false store' ∨
        ∃ error, (session.context.reservation S).run store =
          .error error store') :
      Effect S session store .reserve ⟨session.context, .free⟩ store' none
  | sentRequest (sender : ReservedSender) (code : UInt8)
      (classEOptions payload : Bytes) (message : Protected)
      (holds : session.borrow = .reserved sender)
      (ok : session.context.protectRequestReserved sender.sequence code
        classEOptions payload = .ok message) :
      Effect S session store (.protectRequest code classEOptions payload)
        ⟨session.context, .free⟩ store
        (some (.sentRequest sender.sequence code classEOptions payload
          message))
  | sentResponse (sender : ReservedSender) (code : UInt8)
      (classEOptions payload requestKid requestPiv : Bytes)
      (message : Protected)
      (holds : session.borrow = .reserved sender)
      (ok : session.context.protectResponseWithReservedPiv sender.sequence code
        classEOptions payload requestKid requestPiv = .ok message) :
      Effect S session store
        (.protectResponseWithPiv code classEOptions payload requestKid
          requestPiv)
        ⟨session.context, .free⟩ store
        (some (.sentResponse (some sender.sequence) code classEOptions payload
          requestKid requestPiv message))
  | sentOwn (code : UInt8)
      (classEOptions payload requestKid requestPiv : Bytes)
      (message : Protected)
      (holds : session.borrow = .free)
      (active : session.context.active = true)
      (request : ¬ session.context.badRequest requestKid requestPiv)
      (below : session.context.senderSeq.get < seqMax)
      (ok : session.context.sealResponse code classEOptions payload requestKid
        requestPiv true session.context.senderSeq.encodePiv = .ok message) :
      Effect S session store
        (.protectResponse code classEOptions payload requestKid requestPiv true)
        ⟨session.context.tookSequence, .free⟩ store
        (some (.sentResponse (some session.context.senderSeq) code
          classEOptions payload requestKid requestPiv message))
  | tookOnly (code : UInt8)
      (classEOptions payload requestKid requestPiv : Bytes)
      (active : session.context.active = true) :
      Effect S session store
        (.protectResponse code classEOptions payload requestKid requestPiv true)
        ⟨session.context.tookSequence, .free⟩ store none
  | sentBare (seq : OscoreSeqNum) (code : UInt8)
      (classEOptions payload requestKid requestPiv : Bytes)
      (message : Protected)
      (active : session.context.active = true)
      (request : ¬ session.context.badRequest requestKid requestPiv)
      (bare : session.context.AnswersBare requestPiv seq)
      (ok : session.context.sealResponse code classEOptions payload requestKid
        requestPiv false requestPiv = .ok message) :
      Effect S session store
        (.protectResponse code classEOptions payload requestKid requestPiv
          false)
        ⟨session.context.answered seq, .free⟩ store
        (some (.sentResponse none code classEOptions payload requestKid
          requestPiv message))
  | gotRequest (oscoreOption ciphertext : Bytes) (opt : OscoreOption)
      (seq : OscoreSeqNum) (plaintext : HVec ptCap) (message : Message)
      (accepts : session.context.AcceptsRequest oscoreOption ciphertext opt seq
        plaintext message)
      (holds : session.borrow = .free) :
      Effect S session store (.unprotectRequest oscoreOption ciphertext)
        ⟨session.context.acceptRequest seq, .free⟩ store
        (some (.gotRequest oscoreOption ciphertext message))
  | began (call : ResponseCall) (pending : PendingResponse)
      (begun : ∃ opt plaintext,
        session.context.Authenticates call opt plaintext pending)
      (holds : session.borrow = .free) :
      Effect S session store (.beginResponse call)
        ⟨session.context, .pending call pending begun⟩ store none
  | gotResponse (call : ResponseCall) (opt : OscoreOption)
      (plaintext : HVec ptCap) (pending : PendingResponse)
      (accepts : session.context.Authenticates call opt plaintext pending)
      (holds : ∃ begun, session.borrow = .pending call pending begun) :
      Effect S session store .commit
        ⟨session.context.acceptResponse pending, .free⟩ store
        (some (.gotResponse call
          (pending.code, pending.options, pending.payload)))

/-- What `act` does is one of the effects. -/
def HasEffect (S : ContextStateStore σ ε) (session : Session C) (store : σ)
    (action : Action) : Prop :=
  Effect S session store action (act S session store action).1
    (act S session store action).2.1 (act S session store action).2.2

theorem hasEffect_reserve (S : ContextStateStore σ ε) (context : Context C)
    (store : σ) : HasEffect S ⟨context, .free⟩ store .reserve := by
  unfold HasEffect
  simp only [act]
  split
  · rename_i sender context' store' h
    obtain ⟨hactive, hfresh, hswap, rfl, rfl⟩ :=
      Context.reserveSender_eq_ok.mp h
    exact .reserved store' hactive hfresh hswap
  · rename_i context' store' h
    obtain ⟨rfl, -, hfailed⟩ := Context.reserveSender_eq_error h
    exact .reserveFailed store' hfailed

theorem hasEffect_protectRequest (S : ContextStateStore σ ε)
    (context : Context C) (sender : ReservedSender) (store : σ) (code : UInt8)
    (classEOptions payload : Bytes) :
    HasEffect S ⟨context, .reserved sender⟩ store
      (.protectRequest code classEOptions payload) := by
  unfold HasEffect
  simp only [act]
  split
  · rename_i message h
    exact .sentRequest sender code classEOptions payload message rfl h
  · exact .freed _

theorem hasEffect_protectResponseWithPiv (S : ContextStateStore σ ε)
    (context : Context C) (sender : ReservedSender) (store : σ) (code : UInt8)
    (classEOptions payload requestKid requestPiv : Bytes) :
    HasEffect S ⟨context, .reserved sender⟩ store
      (.protectResponseWithPiv code classEOptions payload requestKid
        requestPiv) := by
  unfold HasEffect
  simp only [act]
  split
  · rename_i message h
    exact .sentResponse sender code classEOptions payload requestKid
      requestPiv message rfl h
  · exact .freed _

theorem hasEffect_protectResponse (S : ContextStateStore σ ε)
    (context : Context C) (store : σ) (code : UInt8)
    (classEOptions payload requestKid requestPiv : Bytes)
    (includePiv : Bool) :
    HasEffect S ⟨context, .free⟩ store
      (.protectResponse code classEOptions payload requestKid requestPiv
        includePiv) := by
  unfold HasEffect
  simp only [act]
  split
  · rename_i message after h
    obtain ⟨hactive, hrequest, ⟨rfl, hbelow, hok, rfl⟩ |
      ⟨rfl, seq, hbare, hok, rfl⟩⟩ :=
      Context.protectResponse_eq_ok.mp h
    · exact .sentOwn code classEOptions payload requestKid requestPiv
        message rfl hactive hrequest hbelow hok
    · exact .sentBare seq code classEOptions payload requestKid
        requestPiv message hactive hrequest hbare hok
  · rename_i after h
    rcases Context.protectResponse_eq_error h with
      rfl | ⟨rfl, hactive, rfl⟩
    · exact .freed _
    · exact .tookOnly code classEOptions payload requestKid requestPiv
        hactive

theorem hasEffect_unprotectRequest (S : ContextStateStore σ ε)
    (context : Context C) (store : σ) (oscoreOption ciphertext : Bytes) :
    HasEffect S ⟨context, .free⟩ store
      (.unprotectRequest oscoreOption ciphertext) := by
  unfold HasEffect
  simp only [act]
  split
  · rename_i message after h
    obtain ⟨opt, seq, plaintext, haccepts, rfl⟩ :=
      Context.unprotectRequest_eq_ok.mp h
    exact .gotRequest oscoreOption ciphertext opt seq plaintext message
      haccepts rfl
  · rename_i after h
    rw [Context.transactional_unprotectRequest _ _ _ _ _ h]
    exact .freed _

theorem hasEffect_beginResponse (S : ContextStateStore σ ε)
    (context : Context C) (store : σ) (call : ResponseCall) :
    HasEffect S ⟨context, .free⟩ store (.beginResponse call) := by
  unfold HasEffect
  simp only [act]
  split
  · rename_i pending after h
    obtain ⟨opt, plaintext, haccepts, rfl⟩ :=
      Context.beginUnprotectResponseMode_eq_ok.mp h
    have hbegun : after.Authenticates call opt plaintext pending :=
      haccepts
    exact .began call pending ⟨opt, plaintext, hbegun⟩ rfl
  · rename_i after h
    rw [(Context.readOnly_beginUnprotectResponseMode _ _ _ _).2 _ _ _ h]
    exact .freed _

theorem hasEffect_commit (S : ContextStateStore σ ε) (context : Context C)
    (store : σ) (call : ResponseCall) (response : PendingResponse)
    (begun : ∃ opt plaintext,
      context.Authenticates call opt plaintext response) :
    HasEffect S ⟨context, .pending call response begun⟩ store .commit := by
  unfold HasEffect
  obtain ⟨opt, plaintext, haccepts⟩ := begun
  simp only [act]
  split
  · rename_i message after h
    obtain ⟨-, rfl, rfl⟩ := Context.commit_eq_ok.mp h
    exact .gotResponse call opt plaintext response haccepts ⟨_, rfl⟩
  · rename_i after h
    rw [Context.transactional_commit _ _ _ _ h]
    exact .freed _

theorem act_effect (S : ContextStateStore σ ε) (session : Session C)
    (store : σ) (action : Action) :
    Effect S session store action (act S session store action).1
      (act S session store action).2.1 (act S session store action).2.2 := by
  obtain ⟨context, borrow⟩ := session
  cases action with
  | release => cases borrow <;> exact .freed _
  | reserve =>
      cases borrow with
      | free => exact hasEffect_reserve S context store
      | reserved sender => exact .skipped _
      | pending call response begun => exact .skipped _
  | protectRequest code classEOptions payload =>
      cases borrow with
      | reserved sender =>
          exact hasEffect_protectRequest S context sender store _ _ _
      | free => exact .skipped _
      | pending call response begun => exact .skipped _
  | protectResponseWithPiv code classEOptions payload requestKid requestPiv =>
      cases borrow with
      | reserved sender =>
          exact hasEffect_protectResponseWithPiv S context sender store _ _ _ _
            _
      | free => exact .skipped _
      | pending call response begun => exact .skipped _
  | protectResponse code classEOptions payload requestKid requestPiv
      includePiv =>
      cases borrow with
      | free => exact hasEffect_protectResponse S context store _ _ _ _ _ _
      | reserved sender => exact .skipped _
      | pending call response begun => exact .skipped _
  | unprotectRequest oscoreOption ciphertext =>
      cases borrow with
      | free => exact hasEffect_unprotectRequest S context store _ _
      | reserved sender => exact .skipped _
      | pending call response begun => exact .skipped _
  | beginResponse call =>
      cases borrow with
      | free => exact hasEffect_beginResponse S context store call
      | reserved sender => exact .skipped _
      | pending call response begun => exact .skipped _
  | commit =>
      cases borrow with
      | pending call response begun =>
          exact hasEffect_commit S context store call response begun
      | free => exact .skipped _
      | reserved sender => exact .skipped _

/-- No operation changes what a context was built from. -/
theorem Effect.toMaterial {S : ContextStateStore σ ε}
    {session session' : Session C} {store store' : σ} {action : Action}
    {event : Option Event}
    (h : session.Effect S store action session' store' event) :
    session'.context.toMaterial = session.context.toMaterial := by
  cases h <;> rfl

end Session

end Oscore
