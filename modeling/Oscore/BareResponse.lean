/-
Responses without a PIV of their own reuse the nonce of the request.  Only the
context that registered an identifier may produce them, and its window answers
each request once.
-/
import Oscore.Deployment

namespace Oscore

open Rust Rust.Call

/-- Active, and allowed to omit the PIV of a response. -/
def Context.MayOmit {C : Crypto} (self : Context C) : Prop :=
  self.active = true ∧ self.allowNoPivResponse = true

/-- The request PIV of a response released without a PIV. -/
def Event.barePiv? : Event → Option Bytes
  | .sentResponse none _ _ _ _ requestPiv _ => some requestPiv
  | _ => none

namespace Entry

variable {C : Crypto}

/-- The context that registered the identifier `id`. -/
def registrant? (id : ContextId) (entry : Entry C) : Option Nat :=
  match entry.event with
  | .registered =>
      if entry.material.contextId = id then some entry.handle else none
  | _ => none

/-- The request a response without a PIV answers, for the identifier `id`. -/
def answer? (id : ContextId) (entry : Entry C) :
    Option (Option OscoreSeqNum) :=
  if entry.material.contextId = id then
    entry.event.barePiv?.map OscoreSeqNum.fromPiv
  else none

end Entry

namespace Deployment

variable {C : Crypto} {σ ε : Type} {S : ContextStateStore σ ε}

def registrants (sys : Deployment C σ) (id : ContextId) : List Nat :=
  sys.log.filterMap (Entry.registrant? id)

def answers (sys : Deployment C σ) (id : ContextId) :
    List (Option OscoreSeqNum) :=
  sys.log.filterMap (Entry.answer? id)

/-- The live context `handle` may omit the PIV under the identifier `id`. -/
def Omits (sys : Deployment C σ) (handle : Nat) (id : ContextId) : Prop :=
  ∃ session, sys.Live handle session ∧ session.context.MayOmit ∧
    session.context.contextId = id

/-- The answered requests of `id`, as the window of its owner remembers them. -/
structure Answered (sys : Deployment C σ) (id : ContextId) : Prop where
  nodup : (sys.answers id).Nodup
  unowned : sys.registrants id = [] → sys.answers id = []
  remembers : ∀ handle session, sys.Live handle session →
    session.context.MayOmit → session.context.contextId = id →
    ReuseWindow.oneShot.onOption.Remembers session.context.response
      (sys.answers id)

/-- One context owns the right to omit the PIV. -/
structure OneOwner (K : SenderContract S) (sys : Deployment C σ) : Prop where
  recorded : ∀ id, K.record sys.store id = none → sys.registrants id = []
  unique : ∀ id, (sys.registrants id).length ≤ 1
  owner : ∀ handle id, sys.Omits handle id → handle ∈ sys.registrants id
  answered : ∀ id, sys.Answered id

variable {K : SenderContract S} {sys sys' : Deployment C σ}

theorem eq_of_mem_of_length_le_one {α : Type} {xs : List α} {a b : α}
    (ha : a ∈ xs) (hb : b ∈ xs) (hlength : xs.length ≤ 1) : a = b := by
  cases xs with
  | nil => cases ha
  | cons x xs =>
      have hnil : xs = [] :=
        List.eq_nil_of_length_eq_zero (by simpa using hlength)
      subst hnil
      rw [List.mem_singleton.mp ha, List.mem_singleton.mp hb]

/-- Records are never lost. -/
theorem maySwap_keeps_record {store store' : σ} {id : ContextId}
    {expected : Option SenderSequenceState} {next : SenderSequenceState}
    (h : K.MaySwap store store' id expected next) (other : ContextId)
    (hnone : K.record store' other = none) : K.record store other = none := by
  rcases h with hsame | ⟨-, hrecord⟩
  · exact hsame ▸ hnone
  rw [hrecord] at hnone
  by_cases heq : other = id
  · subst heq
    rw [Function.update_self] at hnone
    cases hnone
  · rwa [Function.update_of_ne heq] at hnone

/-- Every context that may omit the PIV did so before, with the same window. -/
def OmitsNoMore (sys sys' : Deployment C σ) : Prop :=
  ∀ handle session, sys'.Live handle session → session.context.MayOmit →
    ∃ session₀, sys.Live handle session₀ ∧ session₀.context.MayOmit ∧
      session₀.context.contextId = session.context.contextId ∧
      session₀.context.response = session.context.response

theorem OneOwner.keep (h : OneOwner K sys)
    (hrecord : ∀ id, K.record sys'.store id = none →
      K.record sys.store id = none)
    (hregistrants : ∀ id, sys'.registrants id = sys.registrants id)
    (hanswers : ∀ id, sys'.answers id = sys.answers id)
    (homits : OmitsNoMore sys sys') : OneOwner K sys' where
  recorded id hnone := hregistrants id ▸ h.recorded id (hrecord id hnone)
  unique id := hregistrants id ▸ h.unique id
  owner handle id homit := by
    obtain ⟨session, hlive, hmay, rfl⟩ := homit
    obtain ⟨session₀, hlive₀, hmay₀, hid, -⟩ := homits handle session hlive hmay
    rw [hregistrants]
    exact h.owner handle _ ⟨session₀, hlive₀, hmay₀, hid⟩
  answered id := by
    have hold := h.answered id
    refine ⟨hanswers id ▸ hold.nodup, fun hempty => ?_, ?_⟩
    · rw [hanswers]
      exact hold.unowned (hregistrants id ▸ hempty)
    · intro handle session hlive hmay hid
      obtain ⟨session₀, hlive₀, hmay₀, hid₀, hwindow⟩ :=
        homits handle session hlive hmay
      rw [hanswers, ← hwindow]
      exact hold.remembers handle session₀ hlive₀ hmay₀ (hid₀.trans hid)

theorem omitsNoMore_set {handle : Nat} {slot : Option (Session C)}
    (hset : sys'.sessions = sys.sessions.set handle slot)
    (hslot : ∀ session, slot = some session → session.context.MayOmit →
      ∃ session₀, sys.Live handle session₀ ∧ session₀.context.MayOmit ∧
        session₀.context.contextId = session.context.contextId ∧
        session₀.context.response = session.context.response) :
    OmitsNoMore sys sys' := by
  intro other session hlive hmay
  rcases live_set hset hlive with ⟨rfl, hsome⟩ | ⟨-, hold⟩
  · exact hslot session hsome hmay
  · exact ⟨session, hold, hmay, rfl, rfl⟩

theorem registrants_of_log {entry : Entry C}
    (hlog : sys'.log = entry :: sys.log) (id : ContextId) :
    sys'.registrants id =
      (entry.registrant? id).toList ++ sys.registrants id := by
  rw [registrants, hlog, List.filterMap_cons]
  cases entry.registrant? id <;> rfl

theorem answers_of_log {entry : Entry C} (hlog : sys'.log = entry :: sys.log)
    (id : ContextId) :
    sys'.answers id = (entry.answer? id).toList ++ sys.answers id := by
  rw [answers, hlog, List.filterMap_cons]
  cases entry.answer? id <;> rfl

/-- Registering an identifier that had no record. -/
theorem OneOwner.register (h : OneOwner K sys) {handle : Nat}
    {context : Context C}
    (hempty : K.record sys.store context.contextId = none)
    (hrecord : ∀ id, K.record sys'.store id = none →
      K.record sys.store id = none)
    (hstored : K.record sys'.store context.contextId ≠ none)
    (hsessions : sys'.sessions = sys.sessions.set handle
      (some ⟨context.registered, .free⟩))
    (hlog : sys'.log =
      ⟨handle, context.toMaterial, .registered⟩ :: sys.log) :
    OneOwner K sys' := by
  have hunowned := h.recorded _ hempty
  have hregistrants : ∀ id, sys'.registrants id =
      (if context.contextId = id then [handle] else []) ++
        sys.registrants id := by
    intro id
    rw [registrants_of_log hlog]
    by_cases heq : context.contextId = id <;> simp [Entry.registrant?, heq]
  have hanswers : ∀ id, sys'.answers id = sys.answers id := by
    intro id
    rw [answers_of_log hlog]
    simp [Entry.answer?, Event.barePiv?]
  refine ⟨fun id hnone => ?_, fun id => ?_, ?_, fun id => ?_⟩
  · have hne : context.contextId ≠ id := fun heq => hstored (heq ▸ hnone)
    rw [hregistrants, if_neg hne, List.nil_append]
    exact h.recorded id (hrecord id hnone)
  · rw [hregistrants]
    by_cases heq : context.contextId = id
    · subst heq
      simp [hunowned]
    · simpa [heq] using h.unique id
  · rintro other id ⟨session, hlive, hmay, rfl⟩
    rw [hregistrants]
    rcases live_set hsessions hlive with ⟨rfl, hsome⟩ | ⟨-, hold⟩
    · cases hsome
      simp [Context.registered]
    · exact List.mem_append_right _
        (h.owner other _ ⟨session, hold, hmay, rfl⟩)
  · have hanswered := h.answered id
    refine ⟨hanswers id ▸ hanswered.nodup, fun hnil => ?_, ?_⟩
    · rw [hregistrants, List.append_eq_nil_iff] at hnil
      rw [hanswers]
      exact hanswered.unowned hnil.2
    · intro other session hlive hmay hid
      rw [hanswers]
      rcases live_set hsessions hlive with ⟨-, hsome⟩ | ⟨-, hold⟩
      · cases hsome
        subst hid
        rw [hanswered.unowned hunowned]
        exact History.OneShot.remembers_nil _ _
      · exact hanswered.remembers other session hold hmay hid

/-- Answering a request the owner's window does not reject. -/
theorem OneOwner.answer (h : OneOwner K sys) {handle : Nat}
    {session : Session C} {event : Event} {requestPiv : Bytes}
    {seq : OscoreSeqNum} (hlive : sys.Live handle session)
    (hmay : session.context.MayOmit)
    (hpiv : event.barePiv? = some requestPiv)
    (hseq : OscoreSeqNum.fromPiv requestPiv = some seq)
    (hfresh : session.context.response.isReuse seq = false)
    (hstore : sys'.store = sys.store)
    (hsessions : sys'.sessions = sys.sessions.set handle
      (some ⟨session.context.answered seq, .free⟩))
    (hlog : sys'.log =
      ⟨handle, session.context.toMaterial, event⟩ :: sys.log) :
    OneOwner K sys' := by
  have howner := h.owner handle _ ⟨session, hlive, hmay, rfl⟩
  have hregistrants : ∀ id, sys'.registrants id = sys.registrants id := by
    intro id
    rw [registrants_of_log hlog]
    cases event <;> first | rfl | cases hpiv
  have hanswers : ∀ id, sys'.answers id =
      (if session.context.contextId = id then [some seq] else []) ++
        sys.answers id := by
    intro id
    rw [answers_of_log hlog]
    by_cases heq : session.context.contextId = id <;>
      simp [Entry.answer?, hpiv, hseq, heq]
  refine ⟨fun id hnone => ?_, fun id => ?_, ?_, fun id => ?_⟩
  · rw [hregistrants]
    exact h.recorded id (hstore ▸ hnone)
  · rw [hregistrants]
    exact h.unique id
  · rintro other id ⟨session', hlive', hmay', rfl⟩
    rw [hregistrants]
    rcases live_set hsessions hlive' with ⟨rfl, hsome⟩ | ⟨-, hold⟩
    · cases hsome
      exact howner
    · exact h.owner other _ ⟨session', hold, hmay', rfl⟩
  · have hanswered := h.answered id
    by_cases heq : session.context.contextId = id
    · subst heq
      have haccept :=
        (hanswered.remembers handle session hlive hmay rfl).accept
          (show ¬ ReuseWindow.oneShot.onOption.rejects
              session.context.response (some seq) by
            simp [ReuseWindow.oneShot, History.OneShot.onOption, hfresh])
      have hcons := hanswers session.context.contextId
      rw [if_pos rfl, List.singleton_append] at hcons
      rw [← hcons] at haccept
      refine ⟨haccept.1, fun hnil => ?_, ?_⟩
      · rw [hregistrants] at hnil
        rw [hnil] at howner
        cases howner
      · intro other session' hlive' hmay' hid
        rcases live_set hsessions hlive' with ⟨-, hsome⟩ | ⟨hne, hold⟩
        · cases hsome
          exact haccept
        · have hother := h.owner other _ ⟨session', hold, hmay', hid⟩
          exact absurd (eq_of_mem_of_length_le_one hother howner (h.unique _))
            hne
    · have hsame := hanswers id
      rw [if_neg heq, List.nil_append] at hsame
      refine ⟨hsame ▸ hanswered.nodup, fun hnil => ?_, ?_⟩
      · rw [hsame]
        exact hanswered.unowned (hregistrants id ▸ hnil)
      · intro other session' hlive' hmay' hid
        rw [hsame]
        rcases live_set hsessions hlive' with ⟨-, hsome⟩ | ⟨-, hold⟩
        · cases hsome
          exact absurd hid heq
        · exact hanswered.remembers other session' hold hmay' hid

/-- No action changes whether a context may omit the PIV. -/
theorem mayOmit_of_effect {session session' : Session C} {store store' : σ}
    {action : Action} {event : Option Event}
    (h : session.Effect S store action session' store' event)
    (hmay : session'.context.MayOmit) : session.context.MayOmit := by
  cases h <;> exact hmay

theorem OneOwner.acted (h : OneOwner K sys) {handle : Nat} {action : Action}
    {session session' : Session C} {store : σ} {event : Option Event}
    (hlive : sys.Live handle session)
    (heffect : session.Effect S sys.store action session' store event) :
    OneOwner K
      { store
        sessions := sys.sessions.set handle (some session')
        log := (event.map
          (Entry.mk handle session.context.toMaterial)).toList ++ sys.log } := by
  have homits (hwindow : session'.context.response = session.context.response)
      (log : List (Entry C)) :
      OmitsNoMore sys
        ⟨store, sys.sessions.set handle (some session'), log⟩ := by
    refine omitsNoMore_set rfl fun other hsome hmay => ?_
    cases hsome
    exact ⟨session, hlive, mayOmit_of_effect heffect hmay,
      (congrArg Material.contextId heffect.toMaterial).symm, hwindow.symm⟩
  cases heffect with
  | reserved store' _ _ hswap =>
      have hkept := maySwap_keeps_record
        (Or.inr (K.swap_true _ _ _ _ _ hswap))
      refine h.keep hkept (fun _ => rfl) (fun id => ?_) (homits rfl _)
      simp [answers, Entry.answer?, Event.barePiv?]
  | reserveFailed store' hfailed =>
      exact h.keep (maySwap_keeps_record (K.maySwap_of_failed hfailed))
        (fun _ => rfl) (fun _ => rfl) (homits rfl _)
  | sentBare seq code classEOptions payload requestKid requestPiv message
      hactive hrequest hbare hok =>
      exact h.answer hlive ⟨hactive, hbare.allowed⟩ rfl hbare.seq_eq
        hbare.fresh rfl rfl rfl
  | skipped | freed | tookOnly | began =>
      exact h.keep (fun _ => id) (fun _ => rfl) (fun _ => rfl) (homits rfl _)
  | _ =>
      refine h.keep (fun _ => id) (fun _ => rfl) (fun id => ?_) (homits rfl _)
      simp [answers, Entry.answer?, Event.barePiv?]

theorem OneOwner.change (h : OneOwner K sys) {op : Op}
    (hchange : Change K sys op sys') : OneOwner K sys' := by
  cases hchange with
  | none => exact h
  | spawned context hidle =>
      refine h.keep (fun _ => id) (fun _ => rfl) (fun _ => rfl) ?_
      intro handle session hlive hmay
      rcases live_spawn.mp hlive with hold | ⟨-, rfl⟩
      · exact ⟨session, hold, hmay, rfl, rfl⟩
      · exact absurd hmay.1 (by simp [hidle.1])
  | crashed handle store hkept =>
      exact h.keep (fun _ hnone => hkept ▸ hnone) (fun _ => rfl) (fun _ => rfl)
        (omitsNoMore_set rfl fun _ hnone => nomatch hnone)
  | saved store hkept =>
      exact h.keep (fun _ hnone => hkept ▸ hnone) (fun _ => rfl) (fun _ => rfl)
        fun _ session hlive hmay => ⟨session, hlive, hmay, rfl, rfl⟩
  | registered handle context store hlive hinactive hempty hswapped =>
      refine h.register hempty
        (maySwap_keeps_record (Or.inr ⟨hempty, hswapped⟩)) ?_ rfl rfl
      simp [hswapped]
  | registerFailed handle context store hlive hswap =>
      exact h.keep (maySwap_keeps_record hswap) (fun _ => rfl) (fun _ => rfl)
        (omitsNoMore_set rfl fun _ hnone => nomatch hnone)
  | restored handle context context' store state rs hlive hfound hset hkept =>
      refine h.keep (fun _ hnone => hkept ▸ hnone) (fun _ => rfl)
        (fun _ => rfl) (omitsNoMore_set rfl ?_)
      rintro _ ⟨⟩ hmay
      cases rs <;> exact absurd hmay.2 (by simp [Context.activateRestored])
  | acted handle action session session' store event hlive heffect =>
      exact h.acted hlive heffect

theorem oneOwner_run (K : SenderContract S) (store : σ) (ops : List Op) :
    OneOwner K (History.run (step S) (boot C store) ops) := by
  refine History.invariant (fun sys op h => h.change (step_change K sys op))
    ⟨fun _ _ => rfl, fun _ => Nat.zero_le _, ?_, fun _ => ?_⟩ ops
  · rintro handle id ⟨session, hlive, -⟩
    simp [Live, boot] at hlive
  · exact ⟨List.nodup_nil, fun _ => rfl, fun _ session hlive => by
      simp [Live, boot] at hlive⟩

/-- Any two responses released without a PIV under one identifier answer
different requests. -/
def AnswersOnce (sys : Deployment C σ) : Prop :=
  sys.log.Pairwise fun later earlier =>
    ∀ piv piv', later.event.barePiv? = some piv →
      earlier.event.barePiv? = some piv' →
      later.material.contextId = earlier.material.contextId →
      OscoreSeqNum.fromPiv piv ≠ OscoreSeqNum.fromPiv piv'

theorem answersOnce_of_oneOwner (h : OneOwner K sys) : AnswersOnce sys := by
  refine List.pairwise_iff_forall_sublist.mpr ?_
  intro later earlier hsublist piv piv' hlater hearlier hid heq
  have hnodup := (h.answered earlier.material.contextId).nodup
  have hpair := hsublist.filterMap
    (Entry.answer? earlier.material.contextId)
  simp only [List.filterMap_cons, Entry.answer?, hid, ↓reduceIte, hlater,
    hearlier, Option.map_some, List.filterMap_nil] at hpair
  have hne := hnodup.sublist hpair
  simp [heq] at hne

/-- For one sender key at most one context may ever omit the PIV of a response,
and it does so at most once for each request. -/
theorem bare_responses_once (K : SenderContract S) (store : σ)
    (first second : List Op) :
    (∀ id handle handle',
      (History.run (step S) (boot C store) first).Omits handle id →
      (History.run (step S) (boot C store) (first ++ second)).Omits handle' id →
      handle = handle') ∧
    AnswersOnce (History.run (step S) (boot C store) (first ++ second)) := by
  have hfirst := oneOwner_run (C := C) K store first
  have hboth := oneOwner_run (C := C) K store (first ++ second)
  refine ⟨fun id handle handle' homits homits' => ?_,
    answersOnce_of_oneOwner hboth⟩
  have hmem := hfirst.owner handle id homits
  have hmem' := hboth.owner handle' id homits'
  obtain ⟨recent, hlog⟩ := run_log_suffix K
    (History.run (step S) (boot C store) first) second
  rw [← History.run_append] at hlog
  have hearlier : handle ∈ (History.run (step S) (boot C store)
      (first ++ second)).registrants id := by
    rw [registrants, hlog, List.filterMap_append]
    exact List.mem_append_right _ hmem
  exact eq_of_mem_of_length_le_one hearlier hmem' (hboth.unique id)

end Deployment

end Oscore
