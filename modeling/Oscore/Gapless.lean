/-
Reservations without gaps.  Over a store that never fails, the contexts that
share a record hand out its sequences one after another, and none of them calls
itself exhausted before all have been handed out.
-/
import Oscore.Reservation
import Oscore.InStep

namespace Oscore

open Rust Rust.Call

namespace Context

variable {C : Crypto}

/-- Nothing was sent before the context became active. -/
def Unspent (self : Context C) : Prop :=
  self.active = false →
    self.senderSeq = .default ∧ self.senderSeqExhausted = false

theorem unspent_of_active {self : Context C} (h : self.active = true) :
    self.Unspent := fun hinactive => by
  rw [h] at hinactive
  cases hinactive

theorem unspent_initial (material : Material C) (allowed : Bool) :
    Unspent { Context.initial material with allowNoPivResponse := allowed } :=
  fun _ => ⟨rfl, rfl⟩

theorem ticketCounter_unspent {self : Context C} (h : self.Unspent)
    (hinactive : self.active = false) :
    ticketCounter (some self.senderSequenceState) = 0 := by
  obtain ⟨hseq, hfresh⟩ := h hinactive
  simp only [ticketCounter, senderSequenceState, hseq, hfresh,
    Bool.false_eq_true, ↓reduceIte]
  rfl

end Context

theorem Session.Effect.unspent {C : Crypto} {σ ε : Type}
    {S : ContextStateStore σ ε} {session session' : Session C}
    {store store' : σ} {action : Action} {event : Option Event}
    (heffect : session.Effect S store action session' store' event)
    (h : session.context.Unspent) : session'.context.Unspent := by
  cases heffect with
  | reserved _ hactive => exact Context.unspent_of_active hactive
  | sentOwn _ _ _ _ _ _ _ hactive => exact Context.unspent_of_active hactive
  | tookOnly _ _ _ _ _ hactive => exact Context.unspent_of_active hactive
  | _ => exact h

namespace Deployment

variable {C : Crypto} {σ ε : Type} {S : ContextStateStore σ ε}

/-- No live context has used sequences before it was active. -/
def AllUnspent (sys : Deployment C σ) : Prop :=
  ∀ handle session, sys.Live handle session → session.context.Unspent

variable {sys sys' : Deployment C σ}

theorem AllUnspent.set (h : AllUnspent sys) {handle : Nat}
    {slot : Option (Session C)}
    (hset : sys'.sessions = sys.sessions.set handle slot)
    (hslot : ∀ session, slot = some session → session.context.Unspent) :
    AllUnspent sys' := by
  intro other session hlive
  rcases live_set hset hlive with ⟨-, hsome⟩ | ⟨-, hold⟩
  · exact hslot session hsome
  · exact h other session hold

theorem AllUnspent.spawn (h : AllUnspent sys)
    {built : Outcome OscoreError (Context C)}
    (hbuilt : ∀ context, built = .ok context → context.Unspent) :
    AllUnspent (sys.spawn built) := by
  unfold Deployment.spawn
  split
  · rename_i context
    intro handle session hlive
    rcases live_spawn.mp hlive with hold | ⟨-, rfl⟩
    · exact h handle session hold
    · exact hbuilt context rfl
  · exact h

theorem AllUnspent.replace {ε' : Type} (h : AllUnspent sys) (handle : Nat)
    {result : EStateM.Result (Fault ε') σ (Context C)} (event : Option Event)
    (hresult : ∀ context store, result = .ok context store →
      context.active = true) : AllUnspent (sys.replace handle result event) := by
  unfold Deployment.replace
  split
  · rename_i context store
    refine h.set rfl ?_
    rintro _ ⟨⟩
    exact Context.unspent_of_active (hresult context store rfl)
  · exact h.set rfl (by rintro _ ⟨⟩)

theorem AllUnspent.step (h : AllUnspent sys) (op : Op) :
    AllUnspent (step S sys op) := by
  cases op with
  | new masterSecret masterSalt idContext senderId recipientId =>
      refine h.spawn fun context hbuilt => ?_
      obtain ⟨material, -, rfl⟩ := Context.new_eq_ok.mp hbuilt
      exact Context.unspent_initial material false
  | newFresh masterSecret masterSalt idContext senderId recipientId =>
      refine h.spawn fun context hbuilt => ?_
      obtain ⟨material, -, rfl⟩ := Context.newFresh_eq_ok.mp hbuilt
      exact Context.unspent_initial material true
  | registerFresh handle =>
      simp only [Deployment.step]
      split
      · refine h.replace handle _ fun context store hok => ?_
        obtain ⟨-, -, -, rfl⟩ := Context.registerFresh_eq_ok.mp hok
        rfl
      · exact h
  | restoreExisting handle =>
      simp only [Deployment.step]
      split
      · refine h.replace handle _ fun context store hok => ?_
        obtain ⟨_, _, -, _, -, rs, -, rfl⟩ :=
          Context.restoreExisting_eq_ok.mp hok
        rfl
      · exact h
  | saveRecipient handle =>
      simp only [Deployment.step]
      split
      · exact h
      · exact h
  | crash handle => exact h.set rfl (by rintro _ ⟨⟩)
  | act handle action =>
      simp only [Deployment.step]
      split
      · rename_i session hlive
        refine h.set rfl ?_
        rintro _ ⟨⟩
        exact (session.act_effect S sys.store action).unspent
          (h handle session hlive)
      · exact h

/-- The record of every identifier stands behind the sequences handed out for
it, which are consecutive from where it started. -/
structure Gapless (K : SenderContract S) (first : ContextId → Nat)
    (sys : Deployment C σ) : Prop where
  issued : ∀ id, ∃ count,
    sys.tickets id = (List.range' (first id) count).reverse ∧
      ticketCounter (K.record sys.store id) = first id + count
  spent : ∀ handle session, sys.Live handle session →
    session.context.senderSeqExhausted = true →
      ticketCounter (K.record sys.store session.context.contextId) =
        seqMax + 1
  unspent : AllUnspent sys

variable {K : SenderContract S} {first : ContextId → Nat}

/-- A step that leaves the counters where they are. -/
theorem Gapless.keep (h : Gapless K first sys)
    (hcounter : ∀ id, ticketCounter (K.record sys'.store id) =
      ticketCounter (K.record sys.store id))
    (htickets : ∀ id, sys'.tickets id = sys.tickets id)
    (hspent : ∀ handle session, sys'.Live handle session →
      session.context.senderSeqExhausted = true →
        ticketCounter (K.record sys.store session.context.contextId) =
          seqMax + 1) (hunspent : AllUnspent sys') :
    Gapless K first sys' where
  issued id := by
    rw [hcounter, htickets]
    exact h.issued id
  spent handle session hlive hexhausted := by
    rw [hcounter]
    exact hspent handle session hlive hexhausted
  unspent := hunspent

theorem spent_of_set (h : Gapless K first sys) {handle : Nat}
    {slot : Option (Session C)}
    (hset : sys'.sessions = sys.sessions.set handle slot)
    (hslot : ∀ session, slot = some session →
      session.context.senderSeqExhausted = true →
        ticketCounter (K.record sys.store session.context.contextId) =
          seqMax + 1) (other : Nat) (session : Session C)
    (hlive : sys'.Live other session)
    (hexhausted : session.context.senderSeqExhausted = true) :
    ticketCounter (K.record sys.store session.context.contextId) =
      seqMax + 1 := by
  rcases live_set hset hlive with ⟨-, hsome⟩ | ⟨-, hold⟩
  · exact hslot session hsome hexhausted
  · exact h.spent other session hold hexhausted

/-- A reservation hands out the ticket that the record stands at. -/
theorem Gapless.reserved (h : Gapless K first sys) {handle : Nat}
    {session : Session C} {store : σ}
    (hfresh : session.context.senderSeqExhausted = false)
    (hswap : (session.context.reservation S).run sys.store = .ok true store)
    (hunspent : AllUnspent sys')
    (hstore : sys'.store = store)
    (hsessions : sys'.sessions = sys.sessions.set handle
      (some ⟨session.context.reserved, .reserved ⟨session.context.senderSeq⟩⟩))
    (hlog : sys'.log = ⟨handle, session.context.toMaterial,
      .reserved session.context.senderSeq⟩ :: sys.log) :
    Gapless K first sys' := by
  obtain ⟨hexpected, hrecord⟩ := K.swap_true _ _ _ _ _ hswap
  have hcounter : ticketCounter (K.record sys.store
      session.context.contextId) = session.context.senderSeq.get := by
    simp [hexpected, ticketCounter, Context.senderSequenceState, hfresh]
  refine ⟨fun id => ?_, fun other session' hlive' hexhausted => ?_, hunspent⟩
  · obtain ⟨count, htickets, hcount⟩ := h.issued id
    rw [hstore, hrecord, tickets, hlog, List.filterMap_cons, ← tickets]
    by_cases heq : session.context.contextId = id
    · subst heq
      refine ⟨count + 1, ?_, ?_⟩
      · rw [hcounter] at hcount
        simp only [Entry.ticket?, ↓reduceIte, htickets, hcount,
          List.range'_1_concat, List.reverse_append, List.reverse_singleton,
          List.singleton_append]
      · rw [Function.update_self, ticketCounter_nextSenderState, ← hcounter,
          hcount, Nat.add_assoc]
    · refine ⟨count, ?_, ?_⟩
      · simp only [Entry.ticket?, heq, ↓reduceIte, htickets]
      · rw [Function.update_of_ne (Ne.symm heq), hcount]
  · rw [hstore, hrecord]
    rcases live_set hsessions hlive' with ⟨-, hsome⟩ | ⟨-, hold⟩
    · cases Option.some.inj hsome
      have hnone : session.context.senderSeq.increment = none := by
        simpa [Context.reserved] using hexhausted
      have hid : session.context.reserved.contextId =
          session.context.contextId := rfl
      rw [hid, Function.update_self, ticketCounter_nextSenderState,
        OscoreSeqNum.increment_eq_none.mp hnone]
    · have hspent := h.spent other session' hold hexhausted
      have hne : session'.context.contextId ≠ session.context.contextId := by
        intro heq
        rw [heq, hcounter] at hspent
        have := session.context.senderSeq.le_max
        omega
      rw [Function.update_of_ne hne, hspent]

/-- Over a store that never fails, a swap that fails changes nothing. -/
theorem record_of_failed (hnever : K.NeverFails) {id : ContextId}
    {expected : Option SenderSequenceState} {next : SenderSequenceState}
    {store store' : σ} (h : store' = store ∨
      (S.compareExchangeSender id expected next).run store =
        .ok false store' ∨
      ∃ error, (S.compareExchangeSender id expected next).run store =
        .error error store') : K.record store' = K.record store := by
  rcases h with rfl | hfalse | ⟨error, herror⟩
  · rfl
  · exact K.swap_false _ _ _ _ _ hfalse
  · obtain ⟨swapped, t, hok, -⟩ := hnever id expected next store
    cases hok.symm.trans herror

/-- A registration starts a record with nothing counted. -/
theorem counter_registerFresh (hnever : K.NeverFails) (h : AllUnspent sys)
    (handle : Nat) (id : ContextId) :
    ticketCounter (K.record
      (Deployment.step S sys (.registerFresh handle)).store id) =
        ticketCounter (K.record sys.store id) := by
  simp only [Deployment.step]
  split
  · rename_i context hlive
    simp only [replace]
    split
    · rename_i registered store hok
      obtain ⟨-, hinactive, hswap, -⟩ := Context.registerFresh_eq_ok.mp hok
      obtain ⟨hempty, hrecord⟩ := K.swap_true _ _ _ _ _ hswap
      have hzero := Context.ticketCounter_unspent (h handle _ hlive) hinactive
      rw [hrecord]
      by_cases heq : id = context.contextId
      · rw [heq, Function.update_self, hempty, hzero]
        rfl
      · rw [Function.update_of_ne heq]
    · rename_i store hfailed
      rw [record_of_failed hnever (Context.registerFresh_eq_error hfailed)]
  · rfl

theorem Gapless.acted (hnever : K.NeverFails) (h : Gapless K first sys)
    {handle : Nat} {action : Action} {session session' : Session C} {store : σ}
    {event : Option Event} (hlive : sys.Live handle session)
    (heffect : session.Effect S sys.store action session' store event)
    (hsys' : sys' = {
      store
      sessions := sys.sessions.set handle (some session')
      log := (event.map
        (Entry.mk handle session.context.toMaterial)).toList ++ sys.log }) :
    Gapless K first sys' := by
  subst hsys'
  have hunspent : AllUnspent (C := C) (σ := σ) ⟨store,
      sys.sessions.set handle (some session'), (event.map
        (Entry.mk handle session.context.toMaterial)).toList ++ sys.log⟩ := by
    refine h.unspent.set rfl ?_
    rintro _ ⟨⟩
    exact heffect.unspent (h.unspent handle session hlive)
  have hslot : session'.context.senderSeqExhausted =
      session.context.senderSeqExhausted → ∀ other, some session' = some other →
        other.context.senderSeqExhausted = true →
          ticketCounter (K.record sys.store other.context.contextId) =
            seqMax + 1 := by
    rintro hsame _ ⟨⟩ hexhausted
    rw [heffect.toMaterial]
    exact h.spent handle session hlive (hsame ▸ hexhausted)
  cases heffect with
  | reserved store' hactive hfresh hswap =>
      exact h.reserved hfresh hswap hunspent rfl rfl rfl
  | reserveFailed store' hfailed =>
      have hrecord := record_of_failed hnever hfailed
      exact h.keep (fun _ => congrArg _ (congrFun hrecord _)) (fun _ => rfl)
        (spent_of_set h rfl (hslot rfl)) hunspent
  | _ =>
      exact h.keep (fun _ => rfl) (fun _ => rfl)
        (spent_of_set h rfl (hslot rfl)) hunspent

theorem Gapless.step (hnever : K.NeverFails) (h : Gapless K first sys)
    (op : Op) : Gapless K first (Deployment.step S sys op) := by
  have hunspent := h.unspent.step (S := S) op
  generalize hstep : Deployment.step S sys op = sys' at hunspent ⊢
  have hchange := step_change K sys op
  rw [hstep] at hchange
  cases hchange with
  | none => exact h
  | spawned context hidle =>
      refine h.keep (fun _ => rfl) (fun _ => rfl) ?_ hunspent
      intro handle session hlive hexhausted
      rcases live_spawn.mp hlive with hold | ⟨-, rfl⟩
      · exact h.spent handle session hold hexhausted
      · exact Bool.noConfusion (hidle.2.symm.trans hexhausted)
  | crashed handle store hkept =>
      exact h.keep (fun _ => congrArg _ (congrFun hkept _)) (fun _ => rfl)
        (spent_of_set h rfl (by rintro _ ⟨⟩)) hunspent
  | saved store hkept =>
      exact h.keep (fun _ => congrArg _ (congrFun hkept _)) (fun _ => rfl)
        h.spent hunspent
  | registered handle context store hlive =>
      refine h.keep (fun id => ?_) (fun _ => rfl) (spent_of_set h rfl ?_)
        hunspent
      · rw [← counter_registerFresh hnever h.unspent handle, hstep]
      · rintro _ ⟨⟩ hexhausted
        exact h.spent handle ⟨context, .free⟩ hlive hexhausted
  | registerFailed handle context store =>
      refine h.keep (fun id => ?_) (fun _ => rfl)
        (spent_of_set h rfl (by rintro _ ⟨⟩)) hunspent
      rw [← counter_registerFresh hnever h.unspent handle, hstep]
  | restored handle context context' store state rs hlive hfound hset hkept =>
      refine h.keep (fun _ => congrArg _ (congrFun hkept _)) (fun _ => rfl)
        (spent_of_set h rfl ?_) hunspent
      rintro _ ⟨⟩ hexhausted
      have hstate : state.exhausted = true := by
        obtain ⟨-, seq, -, rfl⟩ := Context.setSenderState_eq_ok.mp hset
        cases rs <;> exact hexhausted
      have hid : (context'.activateRestored rs).contextId =
          context.contextId := by
        rw [← Context.setSenderState_contextId hset]
        cases rs <;> rfl
      rw [hid, hfound, ticketCounter, if_pos hstate]
  | acted handle action session session' store event hlive heffect =>
      exact h.acted hnever hlive heffect rfl

theorem gapless_run (hnever : K.NeverFails) (store : σ) (ops : List Op) :
    Gapless K (fun id => ticketCounter (K.record store id))
      (History.run (step S) (boot C store) ops) := by
  refine History.invariant (fun sys op h => h.step hnever op) ?_ ops
  have hnone (handle : Nat) (session : Session C) :
      ¬ (boot C store).Live handle session := by
    simp [Live, boot]
  exact ⟨fun _ => ⟨0, rfl, rfl⟩,
    fun handle session hlive => absurd hlive (hnone handle session),
    fun handle session hlive => absurd hlive (hnone handle session)⟩

/-- The sequences of every record, where `first` says at which ticket it
started. -/
structure HandsOutAll (K : SenderContract S) (first : ContextId → Nat)
    (sys : Deployment C σ) : Prop where
  /-- Latest first, and the record stands at the next one. -/
  consecutive : ∀ id, ∃ count,
    sys.tickets id = (List.range' (first id) count).reverse ∧
      ticketCounter (K.record sys.store id) = first id + count
  /-- A context is exhausted only after the last sequence. -/
  exhausted : ∀ handle session, sys.Live handle session →
    session.context.senderSeqExhausted = true → ∀ n,
      first session.context.contextId ≤ n → n ≤ seqMax →
        n ∈ sys.tickets session.context.contextId

/-- Reservations over a store that never fails hand out the sequences of a
record in order and leave none out, over every run. -/
theorem reservations_leave_no_gap (K : SenderContract S)
    (hnever : K.NeverFails) (store : σ) (ops : List Op) :
    HandsOutAll K (fun id => ticketCounter (K.record store id))
      (History.run (step S) (boot C store) ops) where
  consecutive := (gapless_run hnever store ops).issued
  exhausted handle session hlive hexhausted n hfirst hle := by
    have h := gapless_run (C := C) hnever store ops
    have hspent := h.spent handle session hlive hexhausted
    obtain ⟨count, htickets, hcount⟩ := h.issued session.context.contextId
    rw [htickets, List.mem_reverse, List.mem_range'_1]
    omega

/-- Two contexts take turns on one record. -/
theorem reservations_leave_no_gap_turns :
    let sys := History.run (step memoryStore)
      (boot Crypto.standIn MemoryState.empty)
      [.newFresh Crypto.sampleKey none none [1] [2], .registerFresh 0,
        .act 0 .reserve, .act 0 .release,
        .new Crypto.sampleKey none none [1] [3], .restoreExisting 1,
        .act 1 .reserve]
    sys.log.map Entry.event =
        [.reserved ⟨1, by decide⟩, .reserved ⟨0, by decide⟩, .registered] ∧
      HandsOutAll memoryStoreSender
        (fun id => ticketCounter (memoryStoreSender.record MemoryState.empty
          id)) sys :=
  ⟨by decide +kernel, reservations_leave_no_gap memoryStoreSender
    memoryStoreSender_neverFails MemoryState.empty _⟩

end Deployment

end Oscore
