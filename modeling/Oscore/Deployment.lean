/-
Any number of contexts over one store.  A context is known by its handle, which
no later context reuses; a crash removes it with whatever borrows it.
-/
import Oscore.Session

namespace Oscore

open Rust Rust.Call

/-- A completed operation of the context `handle`, and what that context was
built from. -/
structure Entry (C : Crypto) where
  handle : Nat
  material : Material C
  event : Event

structure Deployment (C : Crypto) (σ : Type) where
  store : σ
  sessions : List (Option (Session C))
  /-- Latest first. -/
  log : List (Entry C)

inductive Op where
  | new (masterSecret : Key) (masterSalt idContext : Option Bytes)
      (senderId recipientId : Bytes)
  | newFresh (masterSecret : Key) (masterSalt idContext : Option Bytes)
      (senderId recipientId : Bytes)
  | registerFresh (handle : Nat)
  | restoreExisting (handle : Nat)
  | saveRecipient (handle : Nat)
  | crash (handle : Nat)
  | act (handle : Nat) (action : Action)

namespace Deployment

variable {C : Crypto} {σ ε : Type}

/-- A store before any context was built. -/
def boot (C : Crypto) (store : σ) : Deployment C σ := ⟨store, [], []⟩

/-- `handle` names the live context of `session`. -/
def Live (sys : Deployment C σ) (handle : Nat) (session : Session C) : Prop :=
  sys.sessions[handle]? = some (some session)

def spawn (sys : Deployment C σ) (built : Outcome OscoreError (Context C)) :
    Deployment C σ :=
  match built with
  | .ok context =>
      { sys with sessions := sys.sessions ++ [some ⟨context, .free⟩] }
  | .error _ => sys

/-- `register_fresh` and `restore_existing` consume the context. -/
def replace {ε' : Type} (sys : Deployment C σ) (handle : Nat)
    (result : EStateM.Result (Fault ε') σ (Context C)) (event : Option Event) :
    Deployment C σ :=
  match result with
  | .ok context store => {
      store
      sessions := sys.sessions.set handle (some ⟨context, .free⟩)
      log := (event.map (Entry.mk handle context.toMaterial)).toList ++
        sys.log }
  | .error _ store =>
      { sys with store, sessions := sys.sessions.set handle none }

def step (S : ContextStateStore σ ε) (sys : Deployment C σ) : Op → Deployment C σ
  | .new masterSecret masterSalt idContext senderId recipientId =>
      sys.spawn (Context.new C masterSecret masterSalt idContext senderId
        recipientId)
  | .newFresh masterSecret masterSalt idContext senderId recipientId =>
      sys.spawn (Context.newFresh C masterSecret masterSalt idContext senderId
        recipientId)
  | .registerFresh handle =>
      match sys.sessions[handle]? with
      | some (some ⟨context, .free⟩) =>
          sys.replace handle ((Context.registerFresh S context).run sys.store)
            (some .registered)
      | _ => sys
  | .restoreExisting handle =>
      match sys.sessions[handle]? with
      | some (some ⟨context, .free⟩) =>
          sys.replace handle ((Context.restoreExisting S context).run sys.store)
            none
      | _ => sys
  | .saveRecipient handle =>
      match sys.sessions[handle]? with
      | some (some ⟨context, _⟩) =>
          { sys with store := after (S.saveRecipient context.contextId
              context.recipientReplayState) sys.store }
      | _ => sys
  | .crash handle =>
      { sys with sessions := sys.sessions.set handle none }
  | .act handle action =>
      match sys.sessions[handle]? with
      | some (some session) =>
          let (session', store, event) :=
            session.act S sys.store action
          { store
            sessions := sys.sessions.set handle (some session')
            log := (event.map
              (Entry.mk handle session.context.toMaterial)).toList ++ sys.log }
      | _ => sys

theorem live_spawn {sys : Deployment C σ} {handle : Nat}
    {session spawned : Session C} :
    ({ sys with sessions := sys.sessions ++ [some spawned] } :
        Deployment C σ).Live handle session ↔
      sys.Live handle session ∨
        (handle = sys.sessions.length ∧ session = spawned) := by
  simp only [Live, List.getElem?_append]
  split
  · rename_i hlt
    exact ⟨Or.inl, fun h => h.elim id fun hnew => absurd hnew.1 (by omega)⟩
  · rename_i hge
    have hnone : sys.sessions[handle]? = none :=
      List.getElem?_eq_none (Nat.not_lt.mp hge)
    rw [hnone, List.getElem?_singleton]
    constructor
    · intro h
      split at h
      · simp only [Option.some.injEq] at h
        exact Or.inr ⟨by omega, h.symm⟩
      · cases h
    · rintro (h | ⟨rfl, rfl⟩)
      · cases h
      · simp

theorem live_set {sys sys' : Deployment C σ} {handle other : Nat}
    {slot : Option (Session C)} {session : Session C}
    (h : sys'.sessions = sys.sessions.set handle slot)
    (hlive : sys'.Live other session) :
    (other = handle ∧ slot = some session) ∨
      (other ≠ handle ∧ sys.Live other session) := by
  simp only [Live, h, List.getElem?_set] at hlive
  split at hlive
  · rename_i heq
    split at hlive
    · exact Or.inl ⟨heq.symm, Option.some.inj hlive⟩
    · cases hlive
  · rename_i hne
    exact Or.inr ⟨fun heq => hne heq.symm, hlive⟩

/-! What a step can do. -/

/-- Every way a step can change the system, as far as the sender records and
the live contexts are concerned. -/
inductive Change {S : ContextStateStore σ ε} (K : SenderContract S)
    (sys : Deployment C σ) : Op → Deployment C σ → Prop where
  | none {op : Op} : Change K sys op sys
  | spawned {op : Op} (context : Context C)
      (idle : context.active = false ∧ context.senderSeqExhausted = false) :
      Change K sys op
        { sys with sessions := sys.sessions ++ [some ⟨context, .free⟩] }
  | crashed {op : Op} (handle : Nat) (store : σ)
      (kept : K.record store = K.record sys.store) :
      Change K sys op
        { sys with store, sessions := sys.sessions.set handle .none }
  | saved {op : Op} (store : σ) (kept : K.record store = K.record sys.store) :
      Change K sys op { sys with store }
  | registered (handle : Nat) (context : Context C) (store : σ)
      (live : sys.Live handle ⟨context, .free⟩)
      (inactive : context.active = false)
      (empty : K.record sys.store context.contextId = .none)
      (swapped : K.record store = Function.update (K.record sys.store)
        context.contextId (some context.senderSequenceState)) :
      Change K sys (.registerFresh handle)
        { store
          sessions := sys.sessions.set handle
            (some ⟨context.registered, .free⟩)
          log := ⟨handle, context.toMaterial, .registered⟩ :: sys.log }
  | registerFailed (handle : Nat) (context : Context C) (store : σ)
      (live : sys.Live handle ⟨context, .free⟩)
      (swap : K.MaySwap sys.store store context.contextId .none
        context.senderSequenceState) :
      Change K sys (.registerFresh handle)
        { sys with store, sessions := sys.sessions.set handle .none }
  | restored (handle : Nat) (context context' : Context C) (store : σ)
      (state : SenderSequenceState) (rs : Option RecipientReplayState)
      (live : sys.Live handle ⟨context, .free⟩)
      (found : K.record sys.store context.contextId = some state)
      (set : context.setSenderState state = .ok context')
      (kept : K.record store = K.record sys.store) :
      Change K sys (.restoreExisting handle)
        { sys with
          store
          sessions := sys.sessions.set handle
            (some ⟨context'.activateRestored rs, .free⟩) }
  | acted (handle : Nat) (action : Action) (session session' : Session C)
      (store : σ) (event : Option Event)
      (live : sys.Live handle session)
      (effect : session.Effect S sys.store action session' store event) :
      Change K sys (.act handle action)
        { store
          sessions := sys.sessions.set handle (some session')
          log := (event.map
            (Entry.mk handle session.context.toMaterial)).toList ++ sys.log }

theorem step_change {S : ContextStateStore σ ε} (K : SenderContract S)
    (sys : Deployment C σ) (op : Op) : Change K sys op (step S sys op) := by
  cases op with
  | new masterSecret masterSalt idContext senderId recipientId =>
      simp only [step, spawn]
      split
      · rename_i context h
        obtain ⟨material, -, rfl⟩ := Context.new_eq_ok.mp h
        exact .spawned _ ⟨rfl, rfl⟩
      · exact .none
  | newFresh masterSecret masterSalt idContext senderId recipientId =>
      simp only [step, spawn]
      split
      · rename_i context h
        obtain ⟨material, -, rfl⟩ := Context.newFresh_eq_ok.mp h
        exact .spawned _ ⟨rfl, rfl⟩
      · exact .none
  | registerFresh handle =>
      simp only [step]
      split
      · rename_i context hlive
        simp only [replace]
        split
        · rename_i registered store h
          obtain ⟨-, hinactive, hswap, rfl⟩ :=
            Context.registerFresh_eq_ok.mp h
          obtain ⟨hempty, hswapped⟩ := K.swap_true _ _ _ _ _ hswap
          exact .registered handle context store hlive hinactive hempty
            hswapped
        · rename_i store h
          exact .registerFailed handle context store hlive
            (K.maySwap_of_failed (Context.registerFresh_eq_error h))
      · exact .none
  | restoreExisting handle =>
      simp only [step]
      split
      · rename_i context hlive
        have hkept := K.record_after_restoreExisting context sys.store
        simp only [replace]
        split
        · rename_i restored store h
          rw [after_of_ok h] at hkept
          obtain ⟨state, u, hload, context', hset, rs, -, rfl⟩ :=
            Context.restoreExisting_eq_ok.mp h
          have hfound := K.loadSender_ok _ _ _ _ hload
          exact .restored handle context context' store state rs hlive
            hfound.symm hset hkept
        · rename_i store h
          rw [after_of_error h] at hkept
          exact .crashed handle store hkept
      · exact .none
  | saveRecipient handle =>
      simp only [step]
      split
      · exact .saved _ (K.saveRecipient_keeps _ _ _)
      · exact .none
  | crash handle => exact .crashed handle _ rfl
  | act handle action =>
      simp only [step]
      split
      · rename_i session hlive
        exact .acted handle action session _ _ _ hlive
          (session.act_effect S sys.store action)
      · exact .none

/-- The log only grows. -/
theorem Change.log_suffix {S : ContextStateStore σ ε} {K : SenderContract S}
    {sys sys' : Deployment C σ} {op : Op} (h : Change K sys op sys') :
    ∃ recent, sys'.log = recent ++ sys.log := by
  cases h with
  | registered => exact ⟨[_], rfl⟩
  | acted => exact ⟨_, rfl⟩
  | _ => exact ⟨[], rfl⟩

theorem run_log_suffix {S : ContextStateStore σ ε} (K : SenderContract S)
    (sys : Deployment C σ) (ops : List Op) :
    ∃ recent, (History.run (step S) sys ops).log = recent ++ sys.log := by
  induction ops generalizing sys with
  | nil => exact ⟨[], rfl⟩
  | cons op ops ih =>
      obtain ⟨first, hfirst⟩ := (step_change K sys op).log_suffix
      obtain ⟨rest, hrest⟩ := ih (step S sys op)
      exact ⟨rest ++ first, by
        rw [History.run_cons, hrest, hfirst, List.append_assoc]⟩

end Deployment

end Oscore
