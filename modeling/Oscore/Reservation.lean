/-
The reservation protocol over one store.  The durable record is a ticket
counter: every successful reservation takes the ticket the record stands at,
whatever the contexts that race on it have in memory.
-/
import Oscore.Deployment

namespace Oscore

open Rust Rust.Call

/-- A state `set_sender_state` accepts. -/
def SenderSequenceState.Valid (state : SenderSequenceState) : Prop :=
  state.nextSequence ≤ seqMax ∧
    (state.exhausted = true → state.nextSequence = seqMax)

/-- The next ticket of a record; behind the terminal one there is none. -/
def ticketCounter : Option SenderSequenceState → Nat
  | none => 0
  | some state =>
      if state.exhausted then seqMax + 1 else state.nextSequence

/-- A context is exhausted only at the terminal sequence. -/
def Context.Sound {C : Crypto} (self : Context C) : Prop :=
  self.senderSeqExhausted = true → self.senderSeq.get = seqMax

theorem valid_nextSenderState (seq : OscoreSeqNum) :
    (Context.nextSenderState seq).Valid := by
  cases h : seq.increment with
  | none => simp [Context.nextSenderState, h, SenderSequenceState.Valid]
  | some next =>
      simp [Context.nextSenderState, h, SenderSequenceState.Valid, next.le_max]

theorem ticketCounter_nextSenderState (seq : OscoreSeqNum) :
    ticketCounter (some (Context.nextSenderState seq)) = seq.get + 1 := by
  cases h : seq.increment with
  | none =>
      have := OscoreSeqNum.increment_eq_none.mp h
      simp [Context.nextSenderState, h, ticketCounter, this]
  | some next =>
      have := OscoreSeqNum.increment_eq_some.mp h
      simp [Context.nextSenderState, h, ticketCounter, this]

namespace Context

variable {C : Crypto}

theorem Sound.valid {self : Context C} (h : self.Sound) :
    self.senderSequenceState.Valid :=
  ⟨self.senderSeq.le_max, h⟩

theorem sound_of_fresh {self : Context C}
    (h : self.senderSeqExhausted = false) : self.Sound := by
  simp [Sound, h]

theorem sound_reserved (self : Context C) : self.reserved.Sound := by
  intro h
  have hnone : self.senderSeq.increment = none := by
    simpa [reserved] using h
  rw [reserved, hnone]
  exact OscoreSeqNum.increment_eq_none.mp hnone

theorem Sound.tookSequence {self : Context C} (h : self.Sound) :
    self.tookSequence.Sound := by
  intro hexhausted
  have hmax := h hexhausted
  have hnone := OscoreSeqNum.increment_eq_none.mpr hmax
  simpa [Context.tookSequence, OscoreSeqNum.fetchIncrement, hnone] using hmax

theorem sound_of_setSenderState {self self' : Context C}
    {state : SenderSequenceState} (h : self.setSenderState state = .ok self') :
    self'.Sound := by
  obtain ⟨hvalid, seq, hseq, rfl⟩ := setSenderState_eq_ok.mp h
  intro hexhausted
  exact hseq.trans (hvalid hexhausted)

end Context

theorem Session.Effect.sound {C : Crypto} {σ ε : Type}
    {S : ContextStateStore σ ε} {session session' : Session C}
    {store store' : σ} {action : Action} {event : Option Event}
    (heffect : session.Effect S store action session' store' event)
    (h : session.context.Sound) : session'.context.Sound := by
  cases heffect with
  | reserved => exact session.context.sound_reserved
  | sentOwn | tookOnly => exact h.tookSequence
  | _ => exact h

/-- The ticket an entry records for the context identifier `id`. -/
def Entry.ticket? {C : Crypto} (id : ContextId) (entry : Entry C) :
    Option Nat :=
  match entry.event with
  | .reserved seq =>
      if entry.material.contextId = id then some seq.get else none
  | _ => none

namespace Deployment

variable {C : Crypto} {σ ε : Type} {S : ContextStateStore σ ε}

/-- The sequences handed out for `id`, latest first. -/
def tickets (sys : Deployment C σ) (id : ContextId) : List Nat :=
  sys.log.filterMap (Entry.ticket? id)

/-- The record of every identifier counts the tickets handed out for it. -/
structure Orderly (K : SenderContract S) (sys : Deployment C σ) : Prop where
  issued : ∀ id,
    History.Issued (ticketCounter (K.record sys.store id)) (sys.tickets id)
  sound : ∀ handle session, sys.Live handle session → session.context.Sound

/-- Every record is a state `set_sender_state` accepts. -/
def RecordsValid (K : SenderContract S) (store : σ) : Prop :=
  ∀ id state, K.record store id = some state → state.Valid

variable {K : SenderContract S} {sys sys' : Deployment C σ}

/-- A step that swaps nothing and hands nothing out. -/
theorem Orderly.keep (h : Orderly K sys)
    (hrecord : K.record sys'.store = K.record sys.store)
    (htickets : ∀ id, sys'.tickets id = sys.tickets id)
    (hsound : ∀ handle session, sys'.Live handle session →
      session.context.Sound) : Orderly K sys' where
  issued id := by
    rw [hrecord, htickets]
    exact h.issued id
  sound := hsound

/-- A swap that advances a record, if it happened, and hands nothing out. -/
theorem Orderly.maySwap (h : Orderly K sys) {id : ContextId}
    {expected : Option SenderSequenceState} {next : SenderSequenceState}
    (hswap : K.MaySwap sys.store sys'.store id expected next)
    (hle : ticketCounter expected ≤ ticketCounter (some next))
    (htickets : ∀ id, sys'.tickets id = sys.tickets id)
    (hsound : ∀ handle session, sys'.Live handle session →
      session.context.Sound) : Orderly K sys' := by
  rcases hswap with hsame | ⟨hexpected, hrecord⟩
  · exact h.keep hsame htickets hsound
  refine ⟨fun other => ?_, hsound⟩
  rw [hrecord, htickets]
  by_cases heq : other = id
  · subst heq
    rw [Function.update_self]
    exact (h.issued other).advance (hexpected ▸ hle)
  · rw [Function.update_of_ne heq]
    exact h.issued other

theorem sound_of_set (h : Orderly K sys) {handle : Nat}
    {slot : Option (Session C)}
    (hset : sys'.sessions = sys.sessions.set handle slot)
    (hslot : ∀ session, slot = some session → session.context.Sound)
    (other : Nat) (session : Session C) (hlive : sys'.Live other session) :
    session.context.Sound := by
  rcases live_set hset hlive with ⟨-, hsome⟩ | ⟨-, hold⟩
  · exact hslot session hsome
  · exact h.sound other session hold

/-- Acting on a live context, seen from the reservation ledger. -/
theorem Orderly.acted (h : Orderly K sys) {handle : Nat} {action : Action}
    {session session' : Session C} {store : σ} {event : Option Event}
    (hlive : sys.Live handle session)
    (heffect : session.Effect S sys.store action session' store event) :
    Orderly K
      { store
        sessions := sys.sessions.set handle (some session')
        log := (event.map
          (Entry.mk handle session.context.toMaterial)).toList ++ sys.log } := by
  have hsound := h.sound handle session hlive
  have hslot : ∀ other, some session' = some other → other.context.Sound :=
    fun other hother => Option.some.inj hother ▸ heffect.sound hsound
  cases heffect with
  | reserved store' hactive hfresh hswapped =>
      obtain ⟨hexpected, hrecord⟩ := K.swap_true _ _ _ _ _ hswapped
      have hcounter :
          ticketCounter (K.record sys.store session.context.contextId) =
            session.context.senderSeq.get := by
        simp [hexpected, ticketCounter, Context.senderSequenceState, hfresh]
      refine ⟨fun id => ?_, sound_of_set h rfl hslot⟩
      have hold := h.issued id
      by_cases heq : session.context.contextId = id
      · subst heq
        simp only [hrecord, Function.update_self,
          ticketCounter_nextSenderState, tickets, Option.map_some,
          Option.toList_some, List.singleton_append, List.filterMap_cons,
          Entry.ticket?, ↓reduceIte]
        rw [hcounter] at hold
        exact hold.issue (Nat.lt_succ_self _)
      · simp only [hrecord, Function.update_of_ne (Ne.symm heq), tickets,
          Option.map_some, Option.toList_some, List.singleton_append,
          List.filterMap_cons, Entry.ticket?, heq, ↓reduceIte]
        exact hold
  | reserveFailed store' hfailed =>
      refine h.maySwap (K.maySwap_of_failed hfailed) ?_ (fun _ => rfl)
        (sound_of_set h rfl hslot)
      rw [ticketCounter_nextSenderState]
      by_cases hexhausted : session.context.senderSeqExhausted = true
      · simp [ticketCounter, Context.senderSequenceState, hexhausted,
          hsound hexhausted]
      · simp [ticketCounter, Context.senderSequenceState, hexhausted]
  | _ => exact h.keep rfl (fun _ => rfl) (sound_of_set h rfl hslot)

theorem Orderly.change (h : Orderly K sys) {op : Op}
    (hchange : Change K sys op sys') : Orderly K sys' := by
  cases hchange with
  | none => exact h
  | spawned context hidle =>
      refine h.keep rfl (fun _ => rfl) fun handle session hlive => ?_
      rcases live_spawn.mp hlive with hold | ⟨-, rfl⟩
      · exact h.sound handle session hold
      · exact Context.sound_of_fresh hidle.2
  | crashed handle store hkept =>
      exact h.keep hkept (fun _ => rfl)
        (sound_of_set h rfl fun _ hnone => nomatch hnone)
  | saved store hkept => exact h.keep hkept (fun _ => rfl) h.sound
  | registered handle context store hlive hinactive hempty hswapped =>
      have hsound := h.sound handle _ hlive
      exact h.maySwap (Or.inr ⟨hempty, hswapped⟩) (Nat.zero_le _) (fun _ => rfl)
        (sound_of_set h rfl fun _ hother => Option.some.inj hother ▸ hsound)
  | registerFailed handle context store hlive hswap =>
      exact h.maySwap hswap (Nat.zero_le _) (fun _ => rfl)
        (sound_of_set h rfl fun _ hnone => nomatch hnone)
  | restored handle context context' store state rs hlive hfound hset hkept =>
      refine h.keep hkept (fun _ => rfl) (sound_of_set h rfl ?_)
      rintro _ ⟨⟩
      have hsound := Context.sound_of_setSenderState hset
      cases rs <;> exact hsound
  | acted handle action session session' store event hlive heffect =>
      exact h.acted hlive heffect

/-- The ledger stays in order over every run of contexts that share a store. -/
theorem orderly_run (K : SenderContract S) (store : σ) (ops : List Op) :
    Orderly K (History.run (step S) (boot C store) ops) := by
  refine History.invariant (fun sys op h => h.change (step_change K sys op))
    ⟨fun _ => History.Issued.nil _, ?_⟩ ops
  intro handle session hlive
  simp [Live, boot] at hlive

theorem RecordsValid.keep {store store' : σ} (h : RecordsValid K store)
    (hsame : K.record store' = K.record store) : RecordsValid K store' :=
  fun id state hstate => h id state (hsame ▸ hstate)

theorem RecordsValid.maySwap {store store' : σ} (h : RecordsValid K store)
    {id : ContextId} {expected : Option SenderSequenceState}
    {next : SenderSequenceState}
    (hswap : K.MaySwap store store' id expected next) (hnext : next.Valid) :
    RecordsValid K store' := by
  rcases hswap with hsame | ⟨-, hrecord⟩
  · exact h.keep hsame
  intro other state hstate
  rw [hrecord] at hstate
  by_cases heq : other = id
  · subst heq
    rw [Function.update_self] at hstate
    exact Option.some.inj hstate ▸ hnext
  · rw [Function.update_of_ne heq] at hstate
    exact h other state hstate

/-- Only valid states are ever swapped in. -/
theorem RecordsValid.change (h : RecordsValid K sys.store)
    (horderly : Orderly K sys) {op : Op} (hchange : Change K sys op sys') :
    RecordsValid K sys'.store := by
  cases hchange with
  | none | spawned => exact h
  | crashed _ _ hkept | saved _ hkept | restored _ _ _ _ _ _ _ _ _ hkept =>
      exact h.keep hkept
  | registered handle context store hlive _ hempty hswapped =>
      exact h.maySwap (Or.inr ⟨hempty, hswapped⟩)
        (horderly.sound handle _ hlive).valid
  | registerFailed handle context store hlive hswap =>
      exact h.maySwap hswap (horderly.sound handle _ hlive).valid
  | acted handle action session session' store event hlive heffect =>
      cases heffect with
      | reserved store' _ _ hswap =>
          exact h.maySwap (Or.inr (K.swap_true _ _ _ _ _ hswap))
            (valid_nextSenderState _)
      | reserveFailed store' hfailed =>
          exact h.maySwap (K.maySwap_of_failed hfailed)
            (valid_nextSenderState _)
      | _ => exact h

theorem recordsValid_run {store : σ} (h : RecordsValid K store)
    (ops : List Op) :
    RecordsValid K (History.run (step S) (boot C store) ops).store :=
  (@History.invariant _ _ (step S)
    (fun sys => Orderly K sys ∧ RecordsValid K sys.store)
    (fun sys op hsys => ⟨hsys.1.change (step_change K sys op),
      hsys.2.change hsys.1 (step_change K sys op)⟩)
    (boot C store) ⟨orderly_run K store [], h⟩ ops).2

theorem ticket_le {id : ContextId} {ticket : Nat}
    (h : ticket ∈ sys.tickets id) : ticket ≤ seqMax := by
  obtain ⟨entry, -, hentry⟩ := List.mem_filterMap.mp h
  unfold Entry.ticket? at hentry
  split at hentry
  · rename_i seq _
    split at hentry
    · exact Option.some.inj hentry ▸ seq.le_max
    · cases hentry
  · cases hentry

/-- Nothing is handed out behind the terminal sequence. -/
theorem tickets_terminal (K : SenderContract S)
    (horderly : ∀ ops, Orderly K (History.run (step S) sys ops))
    {id : ContextId} (hterminal : seqMax ∈ sys.tickets id) (more : List Op) :
    (History.run (step S) sys more).tickets id = sys.tickets id := by
  obtain ⟨recent, hlog⟩ := run_log_suffix K sys more
  have hissued := ((horderly more).issued id).1
  have hsplit : (History.run (step S) sys more).tickets id =
      recent.filterMap (Entry.ticket? id) ++ sys.tickets id := by
    rw [tickets, hlog, List.filterMap_append]
    rfl
  cases hrecent : recent.filterMap (Entry.ticket? id) with
  | nil => rw [hsplit, hrecent, List.nil_append]
  | cons ticket rest =>
      rw [hrecent] at hsplit
      have hmem : ticket ∈ (History.run (step S) sys more).tickets id := by
        rw [hsplit]
        exact List.mem_cons_self
      have hle := ticket_le hmem
      rw [hsplit, List.cons_append, List.pairwise_cons] at hissued
      have hlt := hissued.1 seqMax (List.mem_append_right _ hterminal)
      omega

/-- What the reservation protocol guarantees of a system. -/
structure HandsOutOnce (K : SenderContract S) (sys : Deployment C σ) : Prop where
  distinct : ∀ id, (sys.tickets id).Nodup
  increasing : ∀ id,
    (sys.tickets id).Pairwise fun later earlier => earlier < later
  record_valid : RecordsValid K sys.store
  terminal_last : ∀ id, seqMax ∈ sys.tickets id → ∀ more,
    (History.run (step S) sys more).tickets id = sys.tickets id
  failed_unchanged : ∀ handle session fault context store,
    sys.Live handle session →
    (Context.reserveSender S).run (session.context, sys.store) =
      .error fault (context, store) →
    context = session.context ∧ fault ≠ .panic

/-- Reservations over one store hand out every sequence at most once and stop
at the terminal one, over every run. -/
theorem reservations_hand_out_once (K : SenderContract S) (store : σ)
    (hvalid : RecordsValid K store) (ops : List Op) :
    HandsOutOnce K (History.run (step S) (boot C store) ops) where
  distinct id := ((orderly_run K store ops).issued id).nodup
  increasing id := ((orderly_run K store ops).issued id).1
  record_valid := recordsValid_run hvalid ops
  terminal_last id hterminal more := by
    refine tickets_terminal K (fun more => ?_) hterminal more
    rw [← History.run_append]
    exact orderly_run K store (ops ++ more)
  failed_unchanged handle session fault context store' _ hfailed := by
    obtain ⟨hcontext, hpanic, -⟩ := Context.reserveSender_eq_error hfailed
    exact ⟨hcontext, hpanic⟩

/-- Two contexts race on one record that starts out empty. -/
theorem reservations_hand_out_once_race :
    RecordsValid memoryStoreSender MemoryState.empty ∧
      HandsOutOnce memoryStoreSender (History.run (step memoryStore)
        (boot Crypto.standIn MemoryState.empty)
        [.newFresh Crypto.sampleKey none none [1] [2], .registerFresh 0,
          .new Crypto.sampleKey none none [1] [3], .restoreExisting 1,
          .act 1 .reserve, .act 0 .reserve]) := by
  have hvalid : RecordsValid memoryStoreSender MemoryState.empty := nofun
  exact ⟨hvalid,
    reservations_hand_out_once memoryStoreSender MemoryState.empty hvalid _⟩

end Deployment

end Oscore
