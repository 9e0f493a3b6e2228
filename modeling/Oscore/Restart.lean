/-
A restart that saves the recipient snapshot first cannot be told from no
restart by the operations that succeed, as long as nothing is borrowed then and
no response is ever sent outside a reservation: the restored context differs
from the lost one in the two flags that only such responses read.
-/
import Oscore.Admission
import Oscore.InStep
import Oscore.KeyRecord

namespace Oscore

open Rust Rust.Call

namespace Context

variable {C : Crypto} {σ ε : Type} {S : ContextStateStore σ ε}

/-- The context with the flags that `restore_existing` sets. -/
def flagged (restored allow : Bool) (self : Context C) : Context C :=
  { self with restored, allowNoPivResponse := allow }

theorem oblivious_unprotectRequest (restored allow : Bool)
    (oscoreOption ciphertext : Bytes) :
    Oblivious (flagged restored allow)
      (unprotectRequest (C := C) oscoreOption ciphertext) := by
  refine oblivious_get_bind (fun _ => rfl) fun self => ?_
  iterate 12 refine (oblivious_check _ _).bind fun _ => ?_
  refine (oblivious_check _ _).bind fun ⟨options, payload⟩ => ?_
  exact Oblivious.bind (oblivious_modify fun _ => rfl) fun _ =>
    oblivious_pure _ _

theorem oblivious_beginUnprotectResponseMode (restored allow : Bool)
    (oscoreOption ciphertext requestPiv : Bytes) (observe : Bool) :
    Oblivious (flagged restored allow) (beginUnprotectResponseMode (C := C)
      oscoreOption ciphertext requestPiv observe) := by
  refine oblivious_get_bind (fun _ => rfl) fun self => ?_
  iterate 15 refine (oblivious_check _ _).bind fun _ => ?_
  exact oblivious_pure _ _

theorem oblivious_commit (restored allow : Bool) (pending : PendingResponse) :
    Oblivious (flagged restored allow) (pending.commit (C := C)) := by
  refine (oblivious_check _ _).bind fun _ => ?_
  obtain ⟨requestSeq, responseSeq, markRequestUsed, code, options, payload⟩ :=
    pending
  cases responseSeq <;> cases markRequestUsed
  · exact oblivious_pure _ _
  · exact Oblivious.bind (oblivious_modify fun _ => rfl) fun _ =>
      oblivious_pure _ _
  · exact Oblivious.bind (oblivious_modify fun _ => rfl) fun _ =>
      oblivious_pure _ _
  · exact Oblivious.bind (oblivious_modify fun _ => rfl) fun _ =>
      Oblivious.bind (oblivious_modify fun _ => rfl) fun _ =>
        oblivious_pure _ _

/-- A context in step with its record reserves exactly if it is active and has
sequences left, whatever else is in the store. -/
theorem reserveSender_inStep {K : SenderContract S} (hnever : K.NeverFails)
    {self : Context C} {store : σ}
    (hrecord : K.record store self.contextId = some self.senderSequenceState) :
    (self.active = true ∧ self.senderSeqExhausted = false ∧
      ∃ store', (reserveSender S).run (self, store) =
        .ok ⟨self.senderSeq⟩ (self.reserved, store')) ∨
    (¬ (self.active = true ∧ self.senderSeqExhausted = false) ∧
      ∃ fault store', (reserveSender S).run (self, store) =
        .error fault (self, store')) := by
  by_cases hready : self.active = true ∧ self.senderSeqExhausted = false
  · obtain ⟨swapped, store', hswap, htrue⟩ := hnever self.contextId
      (some self.senderSequenceState) (nextSenderState self.senderSeq) store
    rw [htrue hrecord] at hswap
    exact Or.inl ⟨hready.1, hready.2, store', reserveSender_eq_ok.mpr
      ⟨hready.1, hready.2, hswap, rfl, rfl⟩⟩
  · refine Or.inr ⟨hready, ?_⟩
    cases hrun : (reserveSender S).run (self, store) with
    | ok sender after =>
        obtain ⟨self', store'⟩ := after
        obtain ⟨hactive, hfresh, -⟩ := reserveSender_eq_ok.mp hrun
        exact absurd ⟨hactive, hfresh⟩ hready
    | error fault after =>
        obtain ⟨self', store'⟩ := after
        obtain ⟨rfl, -⟩ := reserveSender_eq_error hrun
        exact ⟨fault, store', rfl⟩

end Context

namespace Session

variable {C : Crypto} {σ ε : Type} {S : ContextStateStore σ ε}

/-- Two sessions that differ in the flags of their context only. -/
inductive Resembles : Session C → Session C → Prop
  | free (context : Context C) (restored allow : Bool) :
      Resembles ⟨context, .free⟩ ⟨context.flagged restored allow, .free⟩
  | reserved (context : Context C) (restored allow : Bool)
      (sender : ReservedSender) :
      Resembles ⟨context, .reserved sender⟩
        ⟨context.flagged restored allow, .reserved sender⟩
  | pending (context : Context C) (restored allow : Bool) (call : ResponseCall)
      (response : PendingResponse) (begun begun') :
      Resembles ⟨context, .pending call response begun⟩
        ⟨context.flagged restored allow, .pending call response begun'⟩

theorem Resembles.context {s u : Session C} (h : Resembles s u) :
    ∃ restored allow, u.context = s.context.flagged restored allow := by
  cases h with
  | free context restored allow => exact ⟨restored, allow, rfl⟩
  | reserved context restored allow => exact ⟨restored, allow, rfl⟩
  | pending context restored allow => exact ⟨restored, allow, rfl⟩

theorem act_beginResponse_ok {context after : Context C} {call : ResponseCall}
    {response : PendingResponse}
    (h : (Context.beginUnprotectResponseMode call.oscoreOption call.ciphertext
      call.requestPiv call.observe).run context = .ok response after)
    (store : σ) :
    ∃ begun, act S ⟨context, .free⟩ store (.beginResponse call) =
      (⟨after, .pending call response begun⟩, store, none) := by
  simp only [act]
  split
  · rename_i pending context' hok
    cases h.symm.trans hok
    obtain ⟨opt, plaintext, haccepts, rfl⟩ :=
      Context.beginUnprotectResponseMode_eq_ok.mp h
    exact ⟨⟨opt, plaintext, haccepts⟩, rfl⟩
  · rename_i context' herror
    cases h.symm.trans herror

theorem act_beginResponse_error {context after : Context C}
    {call : ResponseCall} {fault : Fault OscoreError}
    (h : (Context.beginUnprotectResponseMode call.oscoreOption call.ciphertext
      call.requestPiv call.observe).run context = .error fault after)
    (store : σ) :
    act S ⟨context, .free⟩ store (.beginResponse call) =
      (⟨after, .free⟩, store, none) := by
  simp only [act]
  split
  · rename_i pending context' hok
    cases h.symm.trans hok
  · rename_i context' herror
    cases h.symm.trans herror
    rfl

/-- Resembling sessions complete the same operation with the same result. -/
def ActsAlike (S : ContextStateStore σ ε) (s u : Session C) (store store' : σ)
    (action : Action) : Prop :=
  (u.act S store' action).2.2 = (s.act S store action).2.2 ∧
    Resembles (s.act S store action).1 (u.act S store' action).1

theorem actsAlike_unprotectRequest (context : Context C)
    (restored allow : Bool) (store store' : σ)
    (oscoreOption ciphertext : Bytes) :
    ActsAlike S ⟨context, .free⟩ ⟨context.flagged restored allow, .free⟩ store
      store' (.unprotectRequest oscoreOption ciphertext) := by
  have hrun := Context.oblivious_unprotectRequest restored allow oscoreOption
    ciphertext context
  unfold ActsAlike
  simp only [act, hrun]
  cases (Context.unprotectRequest oscoreOption ciphertext).run context with
  | ok message after => exact ⟨rfl, .free after restored allow⟩
  | error fault after => exact ⟨rfl, .free after restored allow⟩

theorem actsAlike_beginResponse (context : Context C) (restored allow : Bool)
    (store store' : σ) (call : ResponseCall) :
    ActsAlike S ⟨context, .free⟩ ⟨context.flagged restored allow, .free⟩ store
      store' (.beginResponse call) := by
  have hrun := Context.oblivious_beginUnprotectResponseMode restored allow
    call.oscoreOption call.ciphertext call.requestPiv call.observe context
  unfold ActsAlike
  cases hcase : (Context.beginUnprotectResponseMode call.oscoreOption
      call.ciphertext call.requestPiv call.observe).run context with
  | ok response after =>
      rw [hcase] at hrun
      obtain ⟨begun, hact⟩ := act_beginResponse_ok (S := S) hcase store
      obtain ⟨begun', hact'⟩ := act_beginResponse_ok (S := S) hrun store'
      rw [hact, hact']
      exact ⟨rfl, .pending after restored allow call response begun begun'⟩
  | error fault after =>
      rw [hcase] at hrun
      rw [act_beginResponse_error hcase, act_beginResponse_error hrun]
      exact ⟨rfl, .free after restored allow⟩

theorem actsAlike_commit (context : Context C) (restored allow : Bool)
    (store store' : σ) (call : ResponseCall) (response : PendingResponse)
    (begun begun') :
    ActsAlike S ⟨context, .pending call response begun⟩
      ⟨context.flagged restored allow, .pending call response begun'⟩ store
      store' .commit := by
  have hrun := Context.oblivious_commit restored allow response context
  unfold ActsAlike
  simp only [act, hrun]
  cases response.commit.run context with
  | ok message after => exact ⟨rfl, .free after restored allow⟩
  | error fault after => exact ⟨rfl, .free after restored allow⟩

theorem actsAlike_reserve {K : SenderContract S} (hnever : K.NeverFails)
    {context : Context C} (restored allow : Bool) {store store' : σ}
    (hrecord : K.record store context.contextId =
      some context.senderSequenceState)
    (hrecord' : K.record store' context.contextId =
      some context.senderSequenceState) :
    ActsAlike S ⟨context, .free⟩ ⟨context.flagged restored allow, .free⟩ store
      store' .reserve := by
  have hflagged := @Context.reserveSender_inStep C σ ε S K hnever
    (context.flagged restored allow) store' hrecord'
  unfold ActsAlike
  rcases Context.reserveSender_inStep hnever hrecord with
    ⟨hactive, hfresh, next, hrun⟩ | ⟨hnot, fault, next, hrun⟩
  · rcases hflagged with ⟨-, -, next', hrun'⟩ | ⟨hnot, -⟩
    · simp only [act, hrun, hrun']
      exact ⟨rfl, .reserved context.reserved restored allow _⟩
    · exact absurd ⟨hactive, hfresh⟩ hnot
  · rcases hflagged with ⟨hactive, hfresh, -⟩ | ⟨-, fault', next', hrun'⟩
    · exact absurd ⟨hactive, hfresh⟩ hnot
    · simp only [act, hrun, hrun', true_and]
      exact .free context restored allow

/-- The operation is not a response outside the reservation path. -/
def Reserves : Action → Prop
  | .protectResponse .. => False
  | _ => True

instance : DecidablePred Reserves
  | .protectResponse .. => inferInstanceAs (Decidable False)
  | .reserve | .protectRequest .. | .protectResponseWithPiv ..
  | .unprotectRequest .. | .beginResponse _ | .commit | .release =>
      inferInstanceAs (Decidable True)

theorem Resembles.act {K : SenderContract S} (hnever : K.NeverFails)
    {s u : Session C} (h : Resembles s u) {store store' : σ} {action : Action}
    (haction : Reserves action)
    (hrecord : K.record store s.context.contextId =
      some s.context.senderSequenceState)
    (hrecord' : K.record store' s.context.contextId =
      some s.context.senderSequenceState) :
    ActsAlike S s u store store' action := by
  cases h with
  | free context restored allow =>
      cases action with
      | reserve => exact actsAlike_reserve hnever restored allow hrecord hrecord'
      | unprotectRequest oscoreOption ciphertext =>
          exact actsAlike_unprotectRequest context restored allow store store' _
            _
      | beginResponse call =>
          exact actsAlike_beginResponse context restored allow store store' call
      | protectResponse => exact haction.elim
      | _ => exact ⟨rfl, .free context restored allow⟩
  | reserved context restored allow sender =>
      cases action with
      | protectRequest code classEOptions payload =>
          have hsame : sender.protectRequest (context.flagged restored allow)
              code classEOptions payload =
                sender.protectRequest context code classEOptions payload := rfl
          unfold ActsAlike
          simp only [Session.act, hsame]
          cases sender.protectRequest context code classEOptions payload with
          | ok message => exact ⟨rfl, .free context restored allow⟩
          | error fault => exact ⟨rfl, .free context restored allow⟩
      | protectResponseWithPiv code classEOptions payload requestKid
          requestPiv =>
          have hsame : sender.protectResponseWithPiv
              (context.flagged restored allow) code classEOptions payload
              requestKid requestPiv = sender.protectResponseWithPiv context
                code classEOptions payload requestKid requestPiv := rfl
          unfold ActsAlike
          simp only [Session.act, hsame]
          cases sender.protectResponseWithPiv context code classEOptions payload
            requestKid requestPiv with
          | ok message => exact ⟨rfl, .free context restored allow⟩
          | error fault => exact ⟨rfl, .free context restored allow⟩
      | release => exact ⟨rfl, .free context restored allow⟩
      | protectResponse => exact haction.elim
      | _ => exact ⟨rfl, .reserved context restored allow sender⟩
  | pending context restored allow call response begun begun' =>
      cases action with
      | commit =>
          exact actsAlike_commit context restored allow store store' call
            response begun begun'
      | release => exact ⟨rfl, .free context restored allow⟩
      | protectResponse => exact haction.elim
      | _ => exact ⟨rfl, .pending context restored allow call response begun
          begun'⟩

end Session

/-- What `restore_existing` makes of a new context of the same material. -/
theorem Context.activateRestored_eq {C : Crypto} {context : Context C}
    {snapshot : RecipientReplayState}
    (hwindows : context.windows = snapshot.windows)
    (hactive : context.active = true) :
    ({ Context.initial context.toMaterial with
        senderSeq := context.senderSeq
        senderSeqExhausted := context.senderSeqExhausted } :
      Context C).activateRestored (some snapshot) =
        context.flagged true false := by
  change Context.mk context.toMaterial context.senderSeq
    context.senderSeqExhausted true true snapshot.windows.replay
    snapshot.windows.response snapshot.windows.receivedResponse
    snapshot.windows.receivedResponsePiv false = _
  rw [← hwindows, ← hactive]
  rfl

theorem Material.build_self {C : Crypto} (material : Material C) :
    Material.build C material.masterSecret (some material.masterSalt)
      material.idContext material.senderId material.recipientId =
        .ok material := by
  obtain ⟨built, hbuild⟩ := @Material.exists_build C material.masterSecret
    (some material.masterSalt) material.idContext material.senderId
    material.recipientId material.senderId_le material.recipientId_le
    material.ids_ne material.masterSalt_le material.idContext_le
  rw [hbuild, Receiver.material_eq_of_build hbuild]

namespace Receiver

variable {C : Crypto} {σ ε : Type} {S : ContextStateStore σ ε}

/-- A call of a store that never fails. -/
theorem exists_ok [IsEmpty ε] {α : Type} (method : EStateM ε σ α) (s : σ) :
    ∃ a t, method.run s = .ok a t := by
  cases hrun : method.run s with
  | ok a t => exact ⟨a, t, rfl⟩
  | error error t => exact isEmptyElim error

/-- A restart with nothing borrowed brings the context back, but for the two
flags. -/
theorem restart_free [IsEmpty ε] {K : SenderContract S}
    {R : RecipientContract S} {initial : ReuseWindow} {r : Receiver C σ}
    (htracks : Tracks R initial r) {context : Context C}
    (hsession : r.session = some ⟨context, .free⟩)
    (hmaterial : context.toMaterial = r.material)
    (hactive : context.active = true) (hsound : context.Sound)
    (hrecord : K.record r.store r.material.contextId =
      some context.senderSequenceState) :
    ∃ store, Receiver.step S r .restart =
        { r with
          store
          session := some ⟨context.flagged true false, .free⟩ } ∧
      K.record store = K.record r.store := by
  have hwindows := (htracks.up _ hsession).1
  obtain ⟨⟨⟩, saved, hsave⟩ := exists_ok
    (S.saveRecipient r.material.contextId r.snapshot) r.store
  obtain ⟨loaded, between, hload⟩ := exists_ok
    (S.loadSender r.material.contextId) saved
  obtain ⟨rs, store, hrecipient⟩ := exists_ok
    (S.loadRecipient r.material.contextId) between
  have hkept := K.saveRecipient_keeps r.material.contextId r.snapshot r.store
  have hkept' := K.loadSender_keeps r.material.contextId saved
  have hkept'' := K.loadRecipient_keeps r.material.contextId between
  rw [after_of_ok hsave] at hkept
  rw [after_of_ok hload] at hkept'
  rw [after_of_ok hrecipient] at hkept''
  have hloaded : loaded = some context.senderSequenceState := by
    rw [K.loadSender_ok _ _ _ _ hload, hkept, hrecord]
  have hrs : rs = some r.snapshot := by
    have hkeeps := R.loadSender_keeps r.material.contextId saved
    rw [after_of_ok hload] at hkeeps
    rw [R.loadRecipient_ok _ _ _ _ hrecipient, hkeeps,
      R.saveRecipient_ok _ _ _ _ hsave, Function.update_self]
  subst hloaded hrs
  have hset : (Context.initial r.material).setSenderState
      context.senderSequenceState = .ok { Context.initial r.material with
        senderSeq := context.senderSeq
        senderSeqExhausted := context.senderSeqExhausted } :=
    Context.setSenderState_eq_ok.mpr ⟨hsound, context.senderSeq, rfl, rfl⟩
  have hrestore : (Context.restoreExisting S
      (Context.initial r.material)).run saved =
        .ok (context.flagged true false) store := by
    refine Context.restoreExisting_eq_ok.mpr ⟨_, between, hload, _, hset,
      some r.snapshot, hrecipient, ?_⟩
    rw [← hmaterial]
    exact (Context.activateRestored_eq hwindows hactive).symm
  have hnew : Context.new C r.material.masterSecret
      (some r.material.masterSalt) r.material.idContext r.material.senderId
      r.material.recipientId = .ok (Context.initial r.material) :=
    Context.new_eq_ok.mpr ⟨r.material, r.material.build_self, rfl⟩
  refine ⟨store, ?_, by rw [hkept'', hkept', hkept]⟩
  simp only [Receiver.step, hsession, hsave, rebuild, hnew, hrestore]

/-- A run with restarts against one without. -/
structure Alike (K : SenderContract S) (R : RecipientContract S)
    (initial : ReuseWindow) (r t : Receiver C σ) (u s : Session C) : Prop where
  log : r.log = t.log
  tracks : Tracks R initial r
  live : r.session = some u
  live' : t.session = some s
  resembles : s.Resembles u
  material : s.context.toMaterial = r.material
  active : s.context.active = true
  sound : s.context.Sound
  record : K.record r.store r.material.contextId =
    some s.context.senderSequenceState
  record' : K.record t.store r.material.contextId =
    some s.context.senderSequenceState

variable {K : SenderContract S} {R : RecipientContract S}
  {initial : ReuseWindow} {r t : Receiver C σ} {u s : Session C}

/-- The two runs cannot be told apart by what follows. -/
def Related (K : SenderContract S) (R : RecipientContract S)
    (initial : ReuseWindow) (r t : Receiver C σ) : Prop :=
  ∃ u s, Alike K R initial r t u s

theorem Alike.restart [IsEmpty ε] (h : Alike K R initial r t u s)
    {context : Context C} (hfree : r.session = some ⟨context, .free⟩) :
    Related K R initial (Receiver.step S r .restart) t := by
  cases Option.some.inj (h.live.symm.trans hfree)
  cases h.resembles with
  | free own restored allow =>
      obtain ⟨store, hstep, hkept⟩ := restart_free h.tracks hfree h.material
        h.active h.sound h.record
      have htracks := h.tracks.step .restart
      rw [hstep] at htracks ⊢
      exact ⟨⟨own.flagged true false, .free⟩, ⟨own, .free⟩,
        { log := h.log
          tracks := htracks
          live := rfl
          live' := h.live'
          resembles := .free own true false
          material := h.material
          active := h.active
          sound := h.sound
          record := by rw [hkept]; exact h.record
          record' := h.record' }⟩

theorem Alike.act (hnever : K.NeverFails) (h : Alike K R initial r t u s)
    {action : Action} (haction : Session.Reserves action) :
    Related K R initial (Receiver.step S r (.act action))
      (Receiver.step S t (.act action)) := by
  have hid : s.context.contextId = r.material.contextId :=
    congrArg Material.contextId h.material
  obtain ⟨restored, allow, hcontext⟩ := h.resembles.context
  have hrecord := h.record
  have hrecord' := h.record'
  rw [← hid] at hrecord hrecord'
  obtain ⟨hevent, hresembles⟩ :=
    h.resembles.act hnever haction hrecord' hrecord
  have heffect := s.act_effect S t.store action
  have heffect' := u.act_effect S r.store action
  have hown : ∀ code classEOptions payload requestKid requestPiv, action ≠
      .protectResponse code classEOptions payload requestKid requestPiv
        true := by
    rintro _ _ _ _ _ rfl
    exact haction
  have hafter := heffect.record hnever hrecord' hown
  have hafter' := @Session.Effect.record C σ ε S K hnever u _ r.store _ action _
    (by rw [hcontext]; exact hrecord) hown heffect'
  obtain ⟨restored', allow', hcontext'⟩ := hresembles.context
  have hmaterial := heffect.toMaterial
  have htracks := h.tracks.step (.act action)
  rw [step_act h.live] at htracks ⊢
  rw [step_act h.live']
  have hsame := congrArg Material.contextId (hmaterial.trans h.material)
  rw [hcontext'] at hafter'
  exact ⟨(u.act S r.store action).1, (s.act S t.store action).1,
    { log := by
        simp only [acted]
        rw [hevent, h.log]
      tracks := htracks
      live := rfl
      live' := rfl
      resembles := hresembles
      material := hmaterial.trans h.material
      active := heffect.active.trans h.active
      sound := heffect.sound h.sound
      record := hsame ▸ hafter'
      record' := hsame ▸ hafter }⟩

/-- A context is up, and nothing borrows it. -/
def isFree (r : Receiver C σ) : Bool :=
  match r.session with
  | some ⟨_, .free⟩ => true
  | _ => false

theorem exists_free (h : r.isFree = true) :
    ∃ context, r.session = some ⟨context, .free⟩ := by
  unfold isFree at h
  split at h
  · rename_i context hsession
    exact ⟨context, hsession⟩
  · cases h

def Op.isRestart : Op → Bool
  | .restart => true
  | .act _ => false

/-- Restarts happen while nothing is borrowed, and responses are sent under
reserved sequences. -/
def Quiet (r : Receiver C σ) : Op → Prop
  | .restart => r.isFree = true
  | .act action => Session.Reserves action

instance (r : Receiver C σ) : ∀ op, Decidable (r.Quiet op)
  | .restart => inferInstanceAs (Decidable (_ = _))
  | .act action => inferInstanceAs (Decidable (Session.Reserves action))

/-- Over a store that never fails, a context that is in step with its record
completes the same operations, with the same results, with restarts as without.
Restarts come while nothing is borrowed, and no response is sent outside a
reservation in the whole run.  What a failed call returns is not compared. -/
theorem restarts_are_invisible [IsEmpty ε] (K : SenderContract S)
    (R : RecipientContract S) (hnever : K.NeverFails) {context : Context C}
    (hactive : context.active = true) (hsound : context.Sound) {store : σ}
    (hrecord : K.record store context.contextId =
      some context.senderSequenceState) {ops : List Op}
    (hguard : History.Guarded (Receiver.step S) Quiet (start context store)
      ops) :
    let r := History.run (Receiver.step S) (start context store) ops
    let t := History.run (Receiver.step S) (start context store)
      (ops.filter fun op => !op.isRestart)
    r.log = t.log ∧ ∃ u s, r.session = some u ∧ t.session = some s ∧
      s.Resembles u := by
  intro r t
  have hstart : Alike K R context.receivedResponse (start context store)
      (start context store) ⟨context, .free⟩ ⟨context, .free⟩ :=
    { log := rfl
      tracks := tracks_run R context store []
      live := rfl
      live' := rfl
      resembles := .free context context.restored context.allowNoPivResponse
      material := rfl
      active := hactive
      sound := hsound
      record := hrecord
      record' := hrecord }
  have hrelated : Related K R context.receivedResponse r t := by
    refine History.related_without_silent ?_ ?_ hguard ⟨_, _, hstart⟩
    · rintro r t op ⟨u, s, h⟩ hquiet hsilent
      cases op with
      | act action => cases hsilent
      | restart =>
          obtain ⟨context, hfree⟩ := exists_free hquiet
          exact h.restart hfree
    · rintro r t op ⟨u, s, h⟩ hquiet hsilent
      cases op with
      | restart => cases hsilent
      | act action => exact h.act hnever hquiet
  obtain ⟨u, s, halike⟩ := hrelated
  exact ⟨halike.log, u, s, halike.live, halike.live', halike.resembles⟩

theorem restarts_are_invisible_sample :
    let ops : List Op := [.act .reserve, .act (.protectRequest 1 [] [97]),
      .restart, .restart, .act .reserve, .act .release, .restart]
    let r := History.run (Receiver.step memoryStore)
      (start (Association.sampleStart .a)
        ⟨fun _ => some ⟨0, false⟩, fun _ => none⟩) ops
    let t := History.run (Receiver.step memoryStore)
      (start (Association.sampleStart .a)
        ⟨fun _ => some ⟨0, false⟩, fun _ => none⟩)
      (ops.filter fun op => !op.isRestart)
    r.log = t.log ∧ ∃ u s, r.session = some u ∧ t.session = some s ∧
      s.Resembles u :=
  restarts_are_invisible memoryStoreSender memoryStoreRecipient
    memoryStoreSender_neverFails rfl (Context.sound_of_fresh rfl) rfl
    (by decide +kernel)

end Receiver

end Oscore
