/-
A filter in front of the contexts.  Dropping the messages that `validate_option`
refuses cannot be told from delivering them, and it refuses no message that a
context released.
-/
import Oscore.Answering
import Oscore.Deployment

namespace Oscore

open Rust Rust.Call

theorem validateOption_eq_ok {data : Bytes} :
    validateOption data = .ok () ↔ ∃ option, parseOption data = .ok option := by
  simp only [validateOption, Outcome.bind_eq_ok, Outcome.pure_eq_ok,
    and_true]

/-- The option of a message that the operation hands to a context. -/
def Action.receivedOption? : Action → Option Bytes
  | .unprotectRequest oscoreOption _ => some oscoreOption
  | .beginResponse call => some call.oscoreOption
  | _ => none

/-- The filter lets the operation pass. -/
def Op.passes : Op → Bool
  | .act _ action => action.receivedOption?.all fun oscoreOption =>
      decide (validateOption oscoreOption = .ok ())
  | _ => true

namespace Session

variable {C : Crypto} {σ ε : Type} {S : ContextStateStore σ ε}

/-- A message whose option is refused changes nothing. -/
theorem act_of_refused (session : Session C) (store : σ) {action : Action}
    {oscoreOption : Bytes} (h : action.receivedOption? = some oscoreOption)
    (hrefused : validateOption oscoreOption ≠ .ok ()) :
    session.act S store action = (session, store, none) := by
  obtain ⟨context, borrow⟩ := session
  have hnot (option : OscoreOption) :
      parseOption oscoreOption ≠ .ok option := fun hok =>
    hrefused (validateOption_eq_ok.mpr ⟨option, hok⟩)
  cases action with
  | unprotectRequest _ ciphertext =>
      obtain rfl := Option.some.inj h
      cases borrow with
      | free =>
          simp only [act]
          split
          · rename_i hok
            obtain ⟨option, _, _, haccepts, -⟩ :=
              Context.unprotectRequest_eq_ok.mp hok
            exact absurd haccepts.parsed (hnot option)
          · rename_i hfailed
            rw [Context.transactional_unprotectRequest _ _ _ _ _ hfailed]
      | reserved sender => rfl
      | pending call response begun => rfl
  | beginResponse call =>
      obtain rfl := Option.some.inj h
      cases borrow with
      | free =>
          simp only [act]
          split
          · rename_i hok
            obtain ⟨option, _, haccepts, -⟩ :=
              Context.beginUnprotectResponseMode_eq_ok.mp hok
            exact absurd haccepts.parsed (hnot option)
          · rename_i hfailed
            rw [(Context.readOnly_beginUnprotectResponseMode _ _ _ _).2 _ _ _
              hfailed]
      | reserved sender => rfl
      | pending call response begun => rfl
  | _ => cases h

end Session

namespace Context

variable {C : Crypto} {self : Context C}

theorem validateOption_request {seq : OscoreSeqNum}
    {opt : HVec oscoreOptionMaxLen}
    (h : self.requestOption seq.encodePiv = .ok opt) :
    validateOption opt.toList = .ok () := by
  have hparsed := parseOption_request seq self.idContext_le self.senderId_le
  rw [← requestOption_eq_ok.mp h] at hparsed
  exact validateOption_eq_ok.mpr ⟨_, hparsed⟩

theorem validateOption_response {seq : OscoreSeqNum}
    {opt : HVec oscoreOptionMaxLen}
    (h : responseOption seq.encodePiv = .ok opt) :
    validateOption opt.toList = .ok () := by
  have hparsed := parseOption_response seq
  rw [← responseOption_eq_ok.mp h] at hparsed
  exact validateOption_eq_ok.mpr ⟨_, hparsed⟩

end Context

/-- What a context releases is not refused. -/
theorem Session.Effect.passes {C : Crypto} {σ ε : Type}
    {S : ContextStateStore σ ε} {session session' : Session C}
    {store store' : σ} {action : Action} {event : Event}
    (heffect : session.Effect S store action session' store' (some event))
    {message : Protected} (h : event.protected? = some message) :
    validateOption message.2.toList = .ok () := by
  cases heffect with
  | sentRequest sender code classEOptions payload message' hholds hok =>
      obtain rfl := Option.some.inj h
      exact Context.validateOption_request
        (Context.protectRequestReserved_eq_ok.mp hok).2
  | sentResponse sender code classEOptions payload requestKid requestPiv
      message' hholds hok =>
      obtain rfl := Option.some.inj h
      exact Context.validateOption_response
        (Context.protectResponseWithReservedPiv_eq_ok.mp hok).2.2
  | sentOwn code classEOptions payload requestKid requestPiv message' hholds
      hactive hrequest hbelow hok =>
      obtain rfl := Option.some.inj h
      exact Context.validateOption_response
        (Context.sealResponse_eq_ok.mp hok).2
  | sentBare seq code classEOptions payload requestKid requestPiv message'
      hactive hrequest hbare hok =>
      obtain rfl := Option.some.inj h
      have hempty := (Context.sealResponse_eq_ok.mp hok).2
      rw [← Except.ok.inj hempty]
      rfl
  | _ => cases h

namespace Deployment

variable {C : Crypto} {σ ε : Type} {S : ContextStateStore σ ε}

/-- A refused message leaves the system as it is. -/
theorem step_of_refused (sys : Deployment C σ) {op : Op}
    (h : op.passes = false) : step S sys op = sys := by
  cases op with
  | act handle action =>
      rw [Op.passes, Option.all_eq_false] at h
      obtain ⟨oscoreOption, hreceived, hrefused⟩ := h
      have hrefused := of_decide_eq_false hrefused
      simp only [step]
      split
      · rename_i session hlive
        obtain ⟨hlt, hget⟩ := List.getElem?_eq_some_iff.mp hlive
        rw [session.act_of_refused sys.store hreceived hrefused, ← hget,
          List.set_getElem_self hlt]
        rfl
      · rfl
  | _ => cases h

/-- Every released message passes the filter. -/
def Passing (sys : Deployment C σ) : Prop :=
  ∀ entry ∈ sys.log, ∀ message, entry.event.protected? = some message →
    validateOption message.2.toList = .ok ()

theorem Passing.grow {sys sys' : Deployment C σ} (h : Passing sys)
    {handle : Nat} {material : Material C} {event : Option Event}
    (hlog : sys'.log =
      (event.map (Entry.mk handle material)).toList ++ sys.log)
    (hevent : ∀ released message, event = some released →
      released.protected? = some message →
        validateOption message.2.toList = .ok ()) : Passing sys' := by
  intro entry hentry message hmessage
  rw [hlog, List.mem_append, Option.mem_toList] at hentry
  rcases hentry with hnew | hold
  · obtain ⟨released, rfl, rfl⟩ := Option.map_eq_some_iff.mp hnew
    exact hevent released message rfl hmessage
  · exact h entry hold message hmessage

theorem Passing.replace {ε' : Type} {sys : Deployment C σ} (h : Passing sys)
    (handle : Nat) (result : EStateM.Result (Fault ε') σ (Context C))
    {event : Option Event} (hevent : ∀ released, event = some released →
      released.protected? = none) :
    Passing (sys.replace handle result event) := by
  unfold Deployment.replace
  split
  · refine h.grow rfl fun released message hsome hmessage => ?_
    rw [hevent released hsome] at hmessage
    cases hmessage
  · exact h

theorem Passing.step {sys : Deployment C σ} (h : Passing sys) (op : Op) :
    Passing (step S sys op) := by
  cases op with
  | new | newFresh =>
      simp only [Deployment.step, spawn]
      split
      · exact h
      · exact h
  | registerFresh handle =>
      simp only [Deployment.step]
      split
      · exact h.replace handle _ fun _ hsome => Option.some.inj hsome ▸ rfl
      · exact h
  | restoreExisting handle =>
      simp only [Deployment.step]
      split
      · exact h.replace handle _ (by rintro _ ⟨⟩)
      · exact h
  | saveRecipient handle =>
      simp only [Deployment.step]
      split
      · exact h
      · exact h
  | crash handle => exact h
  | act handle action =>
      simp only [Deployment.step]
      split
      · rename_i session hlive
        refine h.grow rfl fun released message hsome hmessage => ?_
        have heffect := session.act_effect S sys.store action
        rw [hsome] at heffect
        exact heffect.passes hmessage
      · exact h

theorem passing_run (S : ContextStateStore σ ε) (store : σ) (ops : List Op) :
    Passing (History.run (step S) (boot C store) ops) :=
  History.invariant (fun _ op h => h.step op) nofun ops

theorem run_filter (S : ContextStateStore σ ε) (sys : Deployment C σ)
    (ops : List Op) :
    History.run (step S) sys (ops.filter Op.passes) =
      History.run (step S) sys ops := by
  induction ops generalizing sys with
  | nil => rfl
  | cons op ops ih =>
      cases hop : op.passes with
      | true =>
          rw [List.filter_cons_of_pos hop, History.run_cons, History.run_cons,
            ih]
      | false =>
          rw [List.filter_cons_of_neg (by simp [hop]), History.run_cons, ih,
            step_of_refused sys hop]

/-- The filter is invisible: a run is the run without what it refuses, and no
released message is refused. -/
theorem option_filter_invisible (S : ContextStateStore σ ε) (store : σ)
    (ops : List Op) :
    History.run (step S) (boot C store) (ops.filter Op.passes) =
        History.run (step S) (boot C store) ops ∧
      Passing (History.run (step S) (boot C store) ops) :=
  ⟨run_filter S _ ops, passing_run S store ops⟩

end Deployment

end Oscore
