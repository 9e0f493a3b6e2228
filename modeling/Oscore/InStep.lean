/-
The sender record against the context that counts on it.  The record follows
every reservation; a response that takes a sequence of its own moves the
context alone, and no reservation succeeds after it.
-/
import Oscore.Preflight
import Oscore.Session
import Oscore.Lib.History

namespace Oscore

open Rust Rust.Call

/-- Every compare-exchange answers, and one that finds what it expects takes
effect. -/
def SenderContract.NeverFails {σ ε : Type} {S : ContextStateStore σ ε}
    (K : SenderContract S) : Prop :=
  ∀ id expected next s, ∃ swapped t,
    (S.compareExchangeSender id expected next).run s = .ok swapped t ∧
      (K.record s id = expected → swapped = true)

theorem memoryStore_swap {id : ContextId}
    {expected : Option SenderSequenceState} {s : MemoryState}
    (next : SenderSequenceState) (h : s.sender id = expected) :
    (memoryStore.compareExchangeSender id expected next).run s =
      .ok true { s with sender := Function.update s.sender id (some next) } :=
  if_pos h

theorem memoryStoreSender_neverFails : memoryStoreSender.NeverFails := by
  intro id expected next s
  by_cases heq : s.sender id = expected
  · exact ⟨true, _, memoryStore_swap next heq, fun _ => rfl⟩
  · exact ⟨false, s, if_neg heq, fun h => absurd h heq⟩

namespace Context

variable {C : Crypto} {σ ε : Type} {S : ContextStateStore σ ε}

/-- Registered or restored by this store, which it leaves as `store`. -/
def Activated (S : ContextStateStore σ ε) (self : Context C) (store : σ) :
    Prop :=
  ∃ built before,
    (registerFresh S built).run before = .ok self store ∨
      (restoreExisting S built).run before = .ok self store

/-- What makes `protect_response` take a sequence of its own. -/
structure TakesOwn (ctx : Context C) (requestKid requestPiv : Bytes) : Prop
    where
  active : ctx.active = true
  request : ¬ ctx.badRequest requestKid requestPiv
  below : ctx.senderSeq.get < seqMax

theorem protectResponse_withPiv_error {self ctx : Context C} {code : UInt8}
    {classEOptions payload requestKid requestPiv : Bytes}
    {fault : Fault OscoreError}
    (h : (protectResponse code classEOptions payload requestKid requestPiv
      true).run self = .error fault ctx) :
    (self.TakesOwn requestKid requestPiv ∧ ctx = self.tookSequence) ∨
      (¬ self.TakesOwn requestKid requestPiv ∧ ctx = self) := by
  simp only [protectResponse, Call.bind_eq_error, get_eq_ok, get_ne_error,
    check_eq_ok, check_eq_error, failIf_eq_ok, failIf_eq_error,
    exists_eq_left, exists_and_left, exists_const, and_assoc, false_or,
    Bool.not_eq_false] at h
  rcases h with ⟨hbad, -, rfl⟩ | ⟨hrequest, ⟨hinactive, -, rfl⟩ |
    ⟨hactive, ⟨⟨⟨⟩, -⟩, -⟩ | ⟨-, h⟩⟩⟩
  · exact Or.inr ⟨fun htakes => htakes.request hbad, rfl⟩
  · exact Or.inr ⟨fun htakes => absurd htakes.active (by simp [hinactive]), rfl⟩
  rcases h with h | ⟨⟨noncePiv, respSeq⟩, taken, hpiv, h⟩
  · -- The counter stands at its end.
    have hctx := transactional_responsePiv _ _ _ _ _ h
    refine Or.inr ⟨fun htakes => ?_, hctx⟩
    have hok : (responsePiv requestPiv true).run self =
        .ok (self.senderSeq.encodePiv, none) self.tookSequence :=
      responsePiv_eq_ok.mpr (Or.inl ⟨rfl, htakes.below, rfl, rfl, rfl⟩)
    rw [hok] at h
    cases h
  · rcases responsePiv_eq_ok.mp hpiv with
      ⟨-, hbelow, -, rfl, rfl⟩ | ⟨seq, hflag, -⟩
    · rcases h with ⟨-, rfl⟩ | ⟨message, -, h⟩
      · exact Or.inl ⟨⟨hactive, hrequest, hbelow⟩, rfl⟩
      · exact (pure_run_ne_error h).elim
    · cases hflag

/-- The sequence is taken whether or not `protect_response` then succeeds. -/
theorem after_protectResponse_withPiv (self : Context C) (code : UInt8)
    (classEOptions payload requestKid requestPiv : Bytes) :
    (self.TakesOwn requestKid requestPiv ∧
      after (protectResponse code classEOptions payload requestKid requestPiv
        true) self = self.tookSequence) ∨
    (¬ self.TakesOwn requestKid requestPiv ∧
      after (protectResponse code classEOptions payload requestKid requestPiv
        true) self = self) := by
  cases hrun : (protectResponse code classEOptions payload requestKid
      requestPiv true).run self with
  | ok message ctx =>
      rw [after_of_ok hrun]
      obtain ⟨hactive, hrequest, ⟨-, hbelow, -, rfl⟩ | ⟨hflag, -⟩⟩ :=
        protectResponse_eq_ok.mp hrun
      · exact Or.inl ⟨⟨hactive, hrequest, hbelow⟩, rfl⟩
      · cases hflag
  | error fault ctx =>
      rw [after_of_error hrun]
      exact protectResponse_withPiv_error hrun

theorem reserveSender_conflict_iff {self self' : Context C} {s t : σ} :
    (reserveSender S).run (self, s) = .error (.err .conflict) (self', t) ↔
      self' = self ∧ ((self.active = false ∧ t = s) ∨
        (self.active = true ∧ self.senderSeqExhausted = false ∧
          (self.reservation S).run s = .ok false t)) := by
  simp only [reserveSender, Call.bind_eq_error, get_eq_ok, get_ne_error,
    check_eq_ok, check_eq_error, failIf_eq_ok, failIf_eq_error, exists_eq_left,
    exists_and_left, exists_const, and_assoc, false_or, or_false,
    modify_ne_error, pure_run_ne_error, exists_false, and_false, Prod.exists,
    zoomStore_eq_ok, zoomStore_eq_error, new_nextSenderState, expect_some,
    reduceCtorEq, Prod.mk.injEq, Bool.not_eq_false, Bool.not_eq_true,
    Fault.err.injEq, and_true, false_and]
  constructor
  · rintro (⟨hinactive, rfl, rfl⟩ | ⟨hactive, hfresh, swapped, _, _, hswap,
      rfl, rfl, rfl, rfl⟩)
    · exact ⟨rfl, Or.inl ⟨hinactive, rfl⟩⟩
    · exact ⟨rfl, Or.inr ⟨hactive, hfresh, hswap⟩⟩
  · rintro ⟨rfl, ⟨hinactive, rfl⟩ | ⟨hactive, hfresh, hswap⟩⟩
    · exact Or.inl ⟨hinactive, rfl, rfl⟩
    · exact Or.inr ⟨hactive, hfresh, false, self', t, hswap, rfl, rfl, rfl,
        rfl⟩

theorem senderSequenceState_reserved (self : Context C) :
    self.reserved.senderSequenceState = nextSenderState self.senderSeq := by
  cases h : self.senderSeq.increment with
  | some next => simp [senderSequenceState, reserved, nextSenderState, h]
  | none =>
      have hmax := OscoreSeqNum.increment_eq_none.mp h
      simp [senderSequenceState, reserved, nextSenderState, h, hmax]

theorem senderSequenceState_tookSequence {self : Context C}
    (h : self.senderSeq.get < seqMax) :
    self.tookSequence.senderSequenceState ≠ self.senderSequenceState := by
  cases hnext : self.senderSeq.increment with
  | none =>
      have hmax := OscoreSeqNum.increment_eq_none.mp hnext
      omega
  | some next =>
      have hget := OscoreSeqNum.increment_eq_some.mp hnext
      intro heq
      have hseq := congrArg SenderSequenceState.nextSequence heq
      simp only [senderSequenceState, tookSequence,
        OscoreSeqNum.fetchIncrement, hnext] at hseq
      omega

theorem senderSequenceState_restored {self ctx : Context C}
    {state : SenderSequenceState} (rs : Option RecipientReplayState)
    (h : self.setSenderState state = .ok ctx) :
    (ctx.activateRestored rs).senderSequenceState = state := by
  obtain ⟨-, seq, hseq, rfl⟩ := setSenderState_eq_ok.mp h
  cases rs <;> simp [activateRestored, senderSequenceState, hseq,
    setRecipientReplayState]

/-- An activated context starts out in step with its record. -/
theorem Activated.record {K : SenderContract S} {self : Context C} {store : σ}
    (h : self.Activated S store) :
    self.active = true ∧
      K.record store self.contextId = some self.senderSequenceState := by
  obtain ⟨built, before, h | h⟩ := h
  · obtain ⟨-, -, hswap, rfl⟩ := registerFresh_eq_ok.mp h
    obtain ⟨-, hrecord⟩ := K.swap_true _ _ _ _ _ hswap
    refine ⟨rfl, ?_⟩
    rw [hrecord]
    exact Function.update_self ..
  · obtain ⟨state, between, hload, ctx, hset, rs, hrecipient, rfl⟩ :=
      restoreExisting_eq_ok.mp h
    have hsame : K.record store = K.record before := by
      rw [← after_of_ok h]
      exact K.record_after_restoreExisting built before
    refine ⟨by cases rs <;> rfl, ?_⟩
    rw [hsame, senderSequenceState_restored rs hset]
    have hid : (ctx.activateRestored rs).contextId = built.contextId := by
      rw [← setSenderState_contextId hset]
      cases rs <;> rfl
    rw [hid]
    exact (K.loadSender_ok _ _ _ _ hload).symm

end Context

namespace Session

variable {C : Crypto} {σ ε : Type} {S : ContextStateStore σ ε}
  {K : SenderContract S} {id : ContextId}

/-- A step of the sole user of a record: an operation of its context, or
anything that goes on elsewhere in the store. -/
inductive Use (K : SenderContract S) (id : ContextId) where
  | act (action : Action)
  | elsewhere (write : σ → σ)
      (keeps : ∀ store, K.record (write store) id = K.record store id)

def serve (state : Session C × σ) : Use K id → Session C × σ
  | .act action =>
      let (session, store, _) := state.1.act S state.2 action
      (session, store)
  | .elsewhere write _ => (state.1, write state.2)

/-- The record is the state of the context, and no reservation conflicts. -/
structure InStep (K : SenderContract S) (state : Session C × σ) : Prop where
  record : K.record state.2 state.1.context.contextId =
    some state.1.context.senderSequenceState
  reserves : ∀ after, (Context.reserveSender S).run
    (state.1.context, state.2) ≠ .error (.err .conflict) after

/-- The step is a `protect_response` call that takes a sequence itself. -/
def TakesUnrecorded (state : Session C × σ) : Use K id → Prop
  | .act (.protectResponse _ _ _ requestKid requestPiv true) =>
      state.1.borrow = .free ∧
        state.1.context.TakesOwn requestKid requestPiv
  | _ => False

theorem Effect.active {session session' : Session C} {store store' : σ}
    {action : Action} {event : Option Event}
    (h : session.Effect S store action session' store' event) :
    session'.context.active = session.context.active := by
  cases h <;> rfl

theorem inStep_iff (hnever : K.NeverFails) {state : Session C × σ}
    (hactive : state.1.context.active = true) :
    InStep K state ↔ K.record state.2 state.1.context.contextId =
      some state.1.context.senderSequenceState := by
  refine ⟨InStep.record, fun hrecord => ⟨hrecord, ?_⟩⟩
  rintro ⟨context, store⟩ h
  obtain ⟨swapped, store', hswap, htrue⟩ := hnever _ _ _ _
  obtain ⟨-, ⟨hinactive, -⟩ | ⟨-, -, hfalse⟩⟩ :=
    Context.reserveSender_conflict_iff.mp h
  · rw [hactive] at hinactive
    cases hinactive
  · rw [Context.reservation, hswap, htrue hrecord] at hfalse
    cases hfalse

theorem serve_free_withPiv (context : Context C) (store : σ) (code : UInt8)
    (classEOptions payload requestKid requestPiv : Bytes) :
    serve (⟨context, .free⟩, store) (.act (.protectResponse code classEOptions
        payload requestKid requestPiv true) : Use K id) =
      (⟨after (Context.protectResponse code classEOptions payload requestKid
        requestPiv true) context, .free⟩, store) := by
  cases hrun : (Context.protectResponse code classEOptions payload requestKid
      requestPiv true).run context with
  | ok message ctx =>
      rw [after_of_ok hrun]
      simp only [serve, act, hrun]
  | error fault ctx =>
      rw [after_of_error hrun]
      simp only [serve, act, hrun]

/-- A response with a PIV of its own: the store is not asked, and the context
moves exactly if the call takes a sequence. -/
theorem serve_withPiv (state : Session C × σ) (code : UInt8)
    (classEOptions payload requestKid requestPiv : Bytes) {use : Use K id}
    (huse : use = .act (.protectResponse code classEOptions payload requestKid
      requestPiv true)) :
    (serve state use).2 = state.2 ∧
      ((TakesUnrecorded state use ∧
        state.1.context.senderSeq.get < seqMax ∧
        (serve state use).1.context = state.1.context.tookSequence) ∨
      (¬ TakesUnrecorded state use ∧
        (serve state use).1.context = state.1.context)) := by
  subst huse
  obtain ⟨⟨context, borrow⟩, store⟩ := state
  cases borrow with
  | reserved sender => exact ⟨rfl, Or.inr ⟨fun h => (nomatch h.1), rfl⟩⟩
  | pending call response begun =>
      exact ⟨rfl, Or.inr ⟨fun h => (nomatch h.1), rfl⟩⟩
  | free =>
      rw [serve_free_withPiv]
      refine ⟨rfl, ?_⟩
      rcases Context.after_protectResponse_withPiv context code classEOptions
        payload requestKid requestPiv with ⟨htakes, hafter⟩ | ⟨hnot, hafter⟩
      · exact Or.inl ⟨⟨rfl, htakes⟩, htakes.below, hafter⟩
      · exact Or.inr ⟨fun h => hnot h.2, hafter⟩

/-- Every other operation keeps the record in step. -/
theorem Effect.record (hnever : K.NeverFails)
    {session session' : Session C} {store store' : σ} {action : Action}
    {event : Option Event}
    (hrecord : K.record store session.context.contextId =
      some session.context.senderSequenceState)
    (haction : ∀ code classEOptions payload requestKid requestPiv, action ≠
      .protectResponse code classEOptions payload requestKid requestPiv true)
    (h : session.Effect S store action session' store' event) :
    K.record store' session'.context.contextId =
      some session'.context.senderSequenceState := by
  cases h with
  | reserved store' hactive hfresh hswap =>
      obtain ⟨-, hupdate⟩ := K.swap_true _ _ _ _ _ hswap
      rw [hupdate, Context.senderSequenceState_reserved]
      exact Function.update_self ..
  | reserveFailed store' hfailed =>
      obtain ⟨swapped, after, hswap, htrue⟩ := hnever session.context.contextId
        (some session.context.senderSequenceState)
        (Context.nextSenderState session.context.senderSeq) store
      rw [Context.reservation, hswap] at hfailed
      rcases hfailed with rfl | hfalse | ⟨error, herror⟩
      · exact hrecord
      · cases hfalse
        exact absurd (htrue hrecord) (by decide)
      · cases herror
  | sentOwn => exact absurd rfl (haction _ _ _ _ _)
  | tookOnly => exact absurd rfl (haction _ _ _ _ _)
  | _ => exact hrecord

/-- What every step keeps. -/
def Owns (id : ContextId) (state : Session C × σ) : Prop :=
  state.1.context.active = true ∧ state.1.context.contextId = id

theorem Owns.serve {state : Session C × σ} (h : Owns id state)
    (use : Use K id) : Owns id (serve state use) := by
  cases use with
  | elsewhere write keeps => exact h
  | act action =>
      have heffect := act_effect S state.1 state.2 action
      refine ⟨heffect.active.trans h.1, Eq.trans ?_ h.2⟩
      exact congrArg Material.contextId heffect.toMaterial

/-- One step stays in step exactly if it does not take a sequence past the
store. -/
theorem inStep_serve_iff (hnever : K.NeverFails) {state : Session C × σ}
    (howns : Owns id state) (h : InStep K state) (use : Use K id) :
    InStep K (serve state use) ↔ ¬ TakesUnrecorded state use := by
  rw [inStep_iff hnever (howns.serve use).1]
  have hrecord := h.record
  cases use with
  | elsewhere write keeps =>
      refine iff_of_true ?_ not_false
      simp only [serve]
      rw [howns.2, keeps, ← howns.2]
      exact hrecord
  | act action =>
      by_cases hwithPiv : ∃ code classEOptions payload requestKid requestPiv,
        action = .protectResponse code classEOptions payload requestKid
          requestPiv true
      · obtain ⟨code, classEOptions, payload, requestKid, requestPiv, rfl⟩ :=
          hwithPiv
        let use : Use K id := .act (.protectResponse code classEOptions payload
          requestKid requestPiv true)
        obtain ⟨hstore, ⟨htakes, hbelow, hctx⟩ | ⟨hnot, hctx⟩⟩ :=
          serve_withPiv state code classEOptions payload requestKid requestPiv
            (show use = _ from rfl)
        · rw [hstore, hctx]
          refine iff_of_false ?_ (not_not.mpr htakes)
          intro hnext
          have hsame := Option.some.inj (hrecord.symm.trans hnext)
          exact Context.senderSequenceState_tookSequence hbelow hsame.symm
        · rw [hstore, hctx]
          exact iff_of_true hrecord hnot
      · have hother : ∀ code classEOptions payload requestKid requestPiv,
            action ≠ .protectResponse code classEOptions payload requestKid
              requestPiv true :=
          fun _ _ _ _ _ heq => hwithPiv ⟨_, _, _, _, _, heq⟩
        refine iff_of_true ((act_effect S state.1 state.2 action).record hnever
          hrecord hother) ?_
        intro htakes
        unfold TakesUnrecorded at htakes
        split at htakes
        · rename_i heq
          cases heq
          exact hother _ _ _ _ _ rfl
        · exact htakes

/-- From its activation on, a context is in step with its record in every state
of a run exactly if no step takes a sequence past the store. -/
theorem inStep_run_iff (hnever : K.NeverFails) {context : Context C}
    {store : σ} (h : context.Activated S store)
    (uses : List (Use K context.contextId)) :
    (∀ done, done <+: uses →
      InStep K (History.run serve (⟨context, .free⟩, store) done)) ↔
      History.Guarded serve (fun state use => ¬ TakesUnrecorded state use)
        (⟨context, .free⟩, store) uses := by
  obtain ⟨hactive, hrecord⟩ := h.record (K := K)
  have hkeeps : ∀ (state : Session C × σ) (use : Use K context.contextId),
      Owns context.contextId state → Owns context.contextId (serve state use) :=
    fun state use howns => howns.serve use
  refine History.forall_prefix_iff_guarded hkeeps
    (fun state use howns hgood => inStep_serve_iff hnever howns hgood use)
    ⟨hactive, rfl⟩ ?_ uses
  exact (inStep_iff hnever hactive).mpr hrecord

theorem exists_registered :
    ∃ (context : Context Crypto.standIn) (store : MemoryState),
      context.Activated memoryStore store ∧ context.active = true ∧
      context.recipientId = [2] ∧ context.senderSeq = .default ∧
      context.senderSeqExhausted = false := by
  obtain ⟨self, hbuild, -⟩ := Context.exists_sampleContext
  let fresh : Context Crypto.standIn := Context.initial self.toMaterial
  have hswap : (fresh.registration memoryStore).run MemoryState.empty =
      .ok true _ := memoryStore_swap _ rfl
  exact ⟨fresh.registered, _, ⟨fresh, MemoryState.empty, Or.inl
    (Context.registerFresh_eq_ok.mpr ⟨rfl, rfl, hswap, rfl⟩)⟩,
    rfl, (Material.of_build hbuild).2.2.2.2, rfl, rfl⟩

theorem inStep_run_iff_reserve :
    ∃ (context : Context Crypto.standIn) (store : MemoryState)
      (uses : List (Use memoryStoreSender context.contextId)),
      uses = [.act .reserve, .act .release,
        .act (.protectResponse 0x45 [] [] [2] [0] false)] ∧
      ((∀ done, done <+: uses →
        InStep memoryStoreSender
          (History.run serve (⟨context, .free⟩, store) done)) ↔
        History.Guarded serve (fun state use => ¬ TakesUnrecorded state use)
          (⟨context, .free⟩, store) uses) := by
  obtain ⟨context, store, hactivated, -⟩ := exists_registered
  exact ⟨context, store, _, rfl, inStep_run_iff memoryStoreSender_neverFails
    hactivated _⟩

/-- One response with a PIV of its own, and the next reservation conflicts. -/
theorem withPiv_breaks_step :
    ∃ (context : Context Crypto.standIn) (store : MemoryState),
      context.Activated memoryStore store ∧
      let uses : List (Use memoryStoreSender context.contextId) :=
        [.act (.protectResponse 0x45 [] [] [2] [0] true)]
      let reached := History.run serve (⟨context, .free⟩, store) uses
      memoryStoreSender.record reached.2 reached.1.context.contextId ≠
          some reached.1.context.senderSequenceState ∧
        (Context.reserveSender memoryStore).run
            (reached.1.context, reached.2) =
          .error (.err .conflict) (reached.1.context, reached.2) := by
  obtain ⟨context, store, hactivated, hactive, hkid, hseq, hfresh⟩ :=
    exists_registered
  obtain ⟨-, hrecord⟩ := hactivated.record (K := memoryStoreSender)
  have htakes : context.TakesOwn [2] [0] := by
    refine ⟨hactive, ?_, by rw [hseq]; decide⟩
    rw [Context.badRequest, hkid]
    decide
  have hmoved := Context.senderSequenceState_tookSequence htakes.below
  obtain ⟨-, hafter⟩ | ⟨hnot, -⟩ := Context.after_protectResponse_withPiv
    context 0x45 [] [] [2] [0]
  · refine ⟨context, store, hactivated, ?_⟩
    simp only [History.run_cons, History.run_nil, serve_free_withPiv, hafter]
    constructor
    · intro heq
      exact hmoved (Option.some.inj (heq.symm.trans hrecord))
    · refine Context.reserveSender_conflict_iff.mpr
        ⟨rfl, Or.inr ⟨hactive, hfresh, if_neg ?_⟩⟩
      intro heq
      exact hmoved (Option.some.inj (heq.symm.trans hrecord))
  · exact absurd htakes hnot

end Session

end Oscore
