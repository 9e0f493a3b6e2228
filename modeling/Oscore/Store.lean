/-
The contract of durable storage, and what the three context methods that use it
do to the context and to the store.  The contract allows a compare-exchange
that reports an error to have taken effect or not.
-/
import Oscore.Context
import Mathlib.Logic.Function.Basic

namespace Oscore

open Rust Rust.Call

variable {σ ε : Type}

/-- Sender records change by compare-exchange only, and a compare-exchange
replaces exactly the record it expected.  `record` reads the store. -/
structure SenderContract (S : ContextStateStore σ ε) where
  record : σ → ContextId → Option SenderSequenceState
  loadSender_ok : ∀ id s t loaded,
    (S.loadSender id).run s = .ok loaded t → loaded = record s id
  loadSender_keeps : ∀ id s, record (after (S.loadSender id) s) = record s
  swap_true : ∀ id expected next s t,
    (S.compareExchangeSender id expected next).run s = .ok true t →
      record s id = expected ∧
        record t = Function.update (record s) id (some next)
  swap_false : ∀ id expected next s t,
    (S.compareExchangeSender id expected next).run s = .ok false t →
      record t = record s
  swap_error : ∀ id expected next s t error,
    (S.compareExchangeSender id expected next).run s = .error error t →
      record t = record s ∨
        (record s id = expected ∧
          record t = Function.update (record s) id (some next))
  loadRecipient_keeps : ∀ id s,
    record (after (S.loadRecipient id) s) = record s
  saveRecipient_keeps : ∀ id state s,
    record (after (S.saveRecipient id state) s) = record s

/-- Recipient records are what was last saved. -/
structure RecipientContract (S : ContextStateStore σ ε) where
  saved : σ → ContextId → Option RecipientReplayState
  loadRecipient_ok : ∀ id s t loaded,
    (S.loadRecipient id).run s = .ok loaded t → loaded = saved s id
  loadRecipient_keeps : ∀ id s,
    saved (after (S.loadRecipient id) s) = saved s
  saveRecipient_ok : ∀ id state s t,
    (S.saveRecipient id state).run s = .ok () t →
      saved t = Function.update (saved s) id (some state)
  loadSender_keeps : ∀ id s, saved (after (S.loadSender id) s) = saved s
  swap_keeps : ∀ id expected next s,
    saved (after (S.compareExchangeSender id expected next) s) = saved s

/-! A store in memory meets both contracts. -/

structure MemoryState where
  sender : ContextId → Option SenderSequenceState
  recipient : ContextId → Option RecipientReplayState

def MemoryState.empty : MemoryState := ⟨fun _ => none, fun _ => none⟩

def memoryStore : ContextStateStore MemoryState Empty where
  loadSender id := fun s => .ok (s.sender id) s
  compareExchangeSender id expected next := fun s =>
    if s.sender id = expected then
      .ok true { s with sender := Function.update s.sender id (some next) }
    else .ok false s
  loadRecipient id := fun s => .ok (s.recipient id) s
  saveRecipient id state := fun s =>
    .ok () { s with recipient := Function.update s.recipient id (some state) }

def memoryStoreSender : SenderContract memoryStore where
  record := MemoryState.sender
  loadSender_ok := by
    rintro id s t loaded ⟨⟩
    rfl
  loadSender_keeps _ _ := rfl
  swap_true := by
    intro id expected next s t h
    by_cases heq : s.sender id = expected
    · simp only [memoryStore, EStateM.run, heq, ↓reduceIte,
        EStateM.Result.ok.injEq, true_and] at h
      exact ⟨heq, h ▸ rfl⟩
    · simp [memoryStore, EStateM.run, heq] at h
  swap_false := by
    intro id expected next s t h
    by_cases heq : s.sender id = expected
    · simp [memoryStore, EStateM.run, heq] at h
    · simp only [memoryStore, EStateM.run, heq, ↓reduceIte,
        EStateM.Result.ok.injEq, true_and] at h
      exact h ▸ rfl
  swap_error := fun _ _ _ _ _ error => error.elim
  loadRecipient_keeps _ _ := rfl
  saveRecipient_keeps _ _ _ := rfl

def memoryStoreRecipient : RecipientContract memoryStore where
  saved := MemoryState.recipient
  loadRecipient_ok := by
    rintro id s t loaded ⟨⟩
    rfl
  loadRecipient_keeps _ _ := rfl
  saveRecipient_ok := by
    rintro id state s t ⟨⟩
    rfl
  loadSender_keeps _ _ := rfl
  swap_keeps := by
    intro id expected next s
    by_cases heq : s.sender id = expected <;>
      simp [after, memoryStore, EStateM.run, heq]

namespace Context

variable {C : Crypto} {S : ContextStateStore σ ε}

theorem onStore_eq_ok {ε' α : Type} {wrap : ε → ε'} {method : EStateM ε σ α}
    {s t : σ} {a : α} :
    (onStore wrap method).run s = .ok a t ↔ method.run s = .ok a t := by
  simp only [onStore, EStateM.adaptExcept, EStateM.run]
  cases method s <;> simp

theorem onStore_eq_error {ε' α : Type} {wrap : ε → ε'} {method : EStateM ε σ α}
    {s t : σ} {fault : Fault ε'} :
    (onStore wrap method).run s = .error fault t ↔
      ∃ error, method.run s = .error error t ∧ fault = .err (wrap error) := by
  simp only [onStore, EStateM.adaptExcept, EStateM.run]
  cases method s <;> simp [and_comm, eq_comm]

theorem zoomStore_eq_ok {α : Type} {method : EStateM ε σ α}
    {self self' : Context C} {s t : σ} {a : α} :
    (zoomStore method).run (self, s) = .ok a (self', t) ↔
      method.run s = .ok a t ∧ self' = self := by
  simp only [zoomStore, EStateM.run]
  cases method s with
  | ok value u =>
      simp only [EStateM.Result.ok.injEq, Prod.mk.injEq]
      constructor
      · rintro ⟨rfl, rfl, rfl⟩
        exact ⟨⟨rfl, rfl⟩, rfl⟩
      · rintro ⟨⟨rfl, rfl⟩, rfl⟩
        exact ⟨rfl, rfl, rfl⟩
  | error error u => simp

theorem zoomStore_eq_error {α : Type} {method : EStateM ε σ α}
    {self self' : Context C} {s t : σ} {fault : Fault (ReservationError ε)} :
    (zoomStore method).run (self, s) = .error fault (self', t) ↔
      ∃ error, method.run s = .error error t ∧ self' = self ∧
        fault = .err (.storage error) := by
  simp only [zoomStore, EStateM.run]
  cases method s with
  | ok value u => simp
  | error error u =>
      simp only [EStateM.Result.error.injEq, Prod.mk.injEq]
      constructor
      · rintro ⟨rfl, rfl, rfl⟩
        exact ⟨error, ⟨rfl, rfl⟩, rfl, rfl⟩
      · rintro ⟨_, ⟨rfl, rfl⟩, rfl, rfl⟩
        exact ⟨rfl, rfl, rfl⟩

theorem Keeps.onStore {ε' α β : Type} {view : σ → β} {wrap : ε → ε'}
    {method : EStateM ε σ α} (h : Keeps view method) :
    Keeps view (onStore wrap method) := by
  intro s
  rw [← h s]
  simp only [after, Context.onStore, EStateM.adaptExcept, EStateM.run]
  cases method s <;> rfl

theorem wrapOscore_eq_ok {α : Type} {outcome : Outcome OscoreError α} {a : α} :
    (wrapOscore outcome : Outcome (ContextStoreError ε) α) = .ok a ↔
      outcome = .ok a := by
  cases outcome <;> simp [wrapOscore, Except.mapError]

/-! Reservation. -/

/-- The context after its next sequence was reserved. -/
def reserved (self : Context C) : Context C :=
  { self with
    senderSeq := self.senderSeq.increment.getD self.senderSeq
    senderSeqExhausted := self.senderSeq.increment.isNone }

theorem new_nextSenderState (seq : OscoreSeqNum) :
    OscoreSeqNum.new (nextSenderState seq).nextSequence =
      some (seq.increment.getD seq) := by
  cases h : seq.increment with
  | some next => simp [nextSenderState, h]
  | none =>
      have hmax := OscoreSeqNum.increment_eq_none.mp h
      simp only [nextSenderState, h, Option.getD_none]
      rw [← hmax, OscoreSeqNum.new_get]

theorem exhausted_nextSenderState (seq : OscoreSeqNum) :
    (nextSenderState seq).exhausted = seq.increment.isNone := by
  cases h : seq.increment <;> simp [nextSenderState, h]

/-- The swap a reservation asks the store for. -/
def reservation (S : ContextStateStore σ ε) (self : Context C) :
    EStateM ε σ Bool :=
  S.compareExchangeSender self.contextId (some self.senderSequenceState)
    (nextSenderState self.senderSeq)

theorem reserveSender_eq_ok {self self' : Context C} {s t : σ}
    {sender : ReservedSender} :
    (reserveSender S).run (self, s) = .ok sender (self', t) ↔
      self.active = true ∧ self.senderSeqExhausted = false ∧
        (self.reservation S).run s = .ok true t ∧
        sender = ⟨self.senderSeq⟩ ∧ self' = self.reserved := by
  simp only [reserveSender, Call.bind_eq_ok, get_eq_ok, check_eq_ok,
    failIf_eq_ok, modify_eq_ok, pure_run_eq_ok, exists_eq_left,
    exists_and_left, exists_const, and_assoc, expect_eq_ok, Prod.exists,
    zoomStore_eq_ok, new_nextSenderState, exhausted_nextSenderState,
    Bool.not_eq_false, Bool.not_eq_true, Option.some.injEq, Prod.mk.injEq]
  constructor
  · rintro ⟨hactive, hseq, swapped, ctx, u, hswap, rfl, hswapped, _, rfl, rfl,
      rfl, rfl⟩
    exact ⟨hactive, hseq, hswapped ▸ hswap, rfl, rfl⟩
  · rintro ⟨hactive, hseq, hswap, rfl, rfl⟩
    exact ⟨hactive, hseq, true, self, t, hswap, rfl, rfl, _, rfl, rfl, rfl,
      rfl⟩

/-- A failed reservation leaves its context unchanged and never panics. -/
theorem reserveSender_eq_error {self self' : Context C} {s t : σ}
    {fault : Fault (ReservationError ε)}
    (h : (reserveSender S).run (self, s) = .error fault (self', t)) :
    self' = self ∧ fault ≠ .panic ∧
      (t = s ∨ (self.reservation S).run s = .ok false t ∨
        ∃ error, (self.reservation S).run s = .error error t) := by
  simp only [reserveSender, Call.bind_eq_error, get_eq_ok, get_ne_error,
    check_eq_ok, check_eq_error, failIf_eq_ok, failIf_eq_error, exists_eq_left,
    exists_and_left, exists_const, and_assoc, false_or, or_false,
    modify_ne_error, pure_run_ne_error, exists_false, and_false, Prod.exists,
    zoomStore_eq_ok, zoomStore_eq_error, new_nextSenderState, expect_some,
    reduceCtorEq, Prod.mk.injEq, Bool.not_eq_false, Bool.not_eq_true] at h
  rcases h with ⟨-, rfl, rfl, rfl⟩ | ⟨-, ⟨-, rfl, rfl, rfl⟩ | ⟨-, h⟩⟩
  · exact ⟨rfl, by simp, Or.inl rfl⟩
  · exact ⟨rfl, by simp, Or.inl rfl⟩
  rcases h with ⟨error, hswap, rfl, rfl⟩ |
    ⟨swapped, _, _, hswap, rfl, ⟨rfl, rfl, rfl, rfl⟩ | ⟨-, hfalse, -, -⟩⟩
  · exact ⟨rfl, by simp, Or.inr (Or.inr ⟨error, hswap⟩)⟩
  · exact ⟨rfl, by simp, Or.inr (Or.inl hswap)⟩
  · exact hfalse.elim

/-! Activation. -/

/-- The context after it was registered. -/
def registered (self : Context C) : Context C :=
  { self with active := true, allowNoPivResponse := true }

/-- The swap a registration asks the store for. -/
def registration (S : ContextStateStore σ ε) (self : Context C) :
    EStateM ε σ Bool :=
  S.compareExchangeSender self.contextId none self.senderSequenceState

theorem registerFresh_eq_ok {self ctx : Context C} {s t : σ} :
    (registerFresh S self).run s = .ok ctx t ↔
      self.restored = false ∧ self.active = false ∧
        (self.registration S).run s = .ok true t ∧ ctx = self.registered := by
  simp only [registerFresh, Call.bind_eq_ok, check_eq_ok, failIf_eq_ok,
    pure_run_eq_ok, exists_eq_left, exists_and_left, exists_const, and_assoc,
    onStore_eq_ok, not_or, Bool.not_eq_false, Bool.not_eq_true]
  constructor
  · rintro ⟨hrestored, hactive, swapped, u, hswap, rfl, rfl, rfl⟩
    exact ⟨hrestored, hactive, hswap, rfl⟩
  · rintro ⟨hrestored, hactive, hswap, rfl⟩
    exact ⟨hrestored, hactive, true, t, hswap, rfl, rfl, rfl⟩

theorem registerFresh_eq_error {self : Context C} {s t : σ}
    {fault : Fault (ContextStoreError ε)}
    (h : (registerFresh S self).run s = .error fault t) :
    t = s ∨ (self.registration S).run s = .ok false t ∨
      ∃ error, (self.registration S).run s = .error error t := by
  simp only [registerFresh, Call.bind_eq_error, check_eq_ok, check_eq_error,
    failIf_eq_ok, failIf_eq_error, exists_eq_left, exists_and_left,
    exists_const, and_assoc, or_false, pure_run_ne_error, exists_false,
    and_false, onStore_eq_ok, onStore_eq_error] at h
  rcases h with ⟨-, -, rfl⟩ | ⟨-, h⟩
  · exact Or.inl rfl
  rcases h with ⟨error, hswap, -⟩ | ⟨swapped, _, hswap, rfl, -, rfl⟩
  · exact Or.inr (Or.inr ⟨error, hswap⟩)
  · exact Or.inr (Or.inl hswap)

theorem setSenderState_eq_ok {self self' : Context C}
    {state : SenderSequenceState} :
    self.setSenderState state = .ok self' ↔
      (state.exhausted = true → state.nextSequence = seqMax) ∧
        ∃ seq, seq.get = state.nextSequence ∧
          self' = { self with
            senderSeq := seq, senderSeqExhausted := state.exhausted } := by
  simp only [setSenderState, Outcome.bind_eq_ok, okOr_eq_ok, failIf_eq_ok,
    OscoreSeqNum.new_eq_some, Outcome.pure_eq_ok, Except.ok.injEq,
    exists_const, not_and, not_not, ne_eq]
  constructor
  · rintro ⟨seq, hseq, hexhausted, rfl⟩
    exact ⟨hexhausted, seq, hseq, rfl⟩
  · rintro ⟨hexhausted, seq, hseq, rfl⟩
    exact ⟨seq, hseq, hexhausted, rfl⟩

theorem setSenderState_contextId {self self' : Context C}
    {state : SenderSequenceState} (h : self.setSenderState state = .ok self') :
    self'.contextId = self.contextId := by
  obtain ⟨-, seq, -, rfl⟩ := setSenderState_eq_ok.mp h
  rfl

theorem restoreExisting_eq_ok {self ctx : Context C} {s t : σ} :
    (restoreExisting S self).run s = .ok ctx t ↔
      ∃ state u, (S.loadSender self.contextId).run s = .ok (some state) u ∧
        ∃ self', self.setSenderState state = .ok self' ∧
          ∃ rs, (S.loadRecipient self.contextId).run u = .ok rs t ∧
            ctx = self'.activateRestored rs := by
  simp only [restoreExisting, Call.bind_eq_ok, check_eq_ok, okOr_eq_ok,
    pure_run_eq_ok, exists_eq_left, exists_and_left, and_assoc, onStore_eq_ok,
    wrapOscore_eq_ok]
  constructor
  · rintro ⟨_, u, hload, state, rfl, self', hset, rs, _, hrecipient, rfl, rfl⟩
    rw [setSenderState_contextId hset] at hrecipient
    exact ⟨state, u, hload, self', hset, rs, hrecipient, rfl⟩
  · rintro ⟨state, u, hload, self', hset, rs, hrecipient, rfl⟩
    rw [← setSenderState_contextId hset] at hrecipient
    exact ⟨some state, u, hload, state, rfl, self', hset, rs, t, hrecipient,
      rfl, rfl⟩

end Context

namespace SenderContract

variable {S : ContextStateStore σ ε} (K : SenderContract S)

/-- The records of `t` are those of `s`, or those after one swap. -/
def MaySwap (s t : σ) (id : ContextId) (expected : Option SenderSequenceState)
    (next : SenderSequenceState) : Prop :=
  K.record t = K.record s ∨
    (K.record s id = expected ∧
      K.record t = Function.update (K.record s) id (some next))

theorem maySwap_of_failed {s t : σ} {id : ContextId}
    {expected : Option SenderSequenceState} {next : SenderSequenceState}
    (h : t = s ∨
      (S.compareExchangeSender id expected next).run s = .ok false t ∨
      ∃ error,
        (S.compareExchangeSender id expected next).run s = .error error t) :
    K.MaySwap s t id expected next := by
  rcases h with rfl | hfalse | ⟨error, herror⟩
  · exact Or.inl rfl
  · exact Or.inl (K.swap_false _ _ _ _ _ hfalse)
  · exact K.swap_error _ _ _ _ _ _ herror

/-- Restoring only reads the sender records. -/
theorem record_after_restoreExisting {C : Crypto} (self : Context C) (s : σ) :
    K.record (after (Context.restoreExisting S self) s) = K.record s := by
  have hload := K.loadSender_keeps self.contextId
  refine (Context.Keeps.onStore hload).bind (fun loaded => ?_) s
  refine (keeps_check _ _).bind fun state => ?_
  refine (keeps_check _ _).bind fun ctx => ?_
  exact (Context.Keeps.onStore (K.loadRecipient_keeps _)).bind fun _ =>
    keeps_pure _ _

end SenderContract

/-- Restoring only reads the recipient records. -/
theorem RecipientContract.saved_after_restoreExisting
    {S : ContextStateStore σ ε} (R : RecipientContract S) {C : Crypto}
    (self : Context C) (s : σ) :
    R.saved (after (Context.restoreExisting S self) s) = R.saved s := by
  have hload := R.loadSender_keeps self.contextId
  refine (Context.Keeps.onStore hload).bind (fun loaded => ?_) s
  refine (keeps_check _ _).bind fun state => ?_
  refine (keeps_check _ _).bind fun ctx => ?_
  exact (Context.Keeps.onStore (R.loadRecipient_keeps _)).bind fun _ =>
    keeps_pure _ _

end Oscore
