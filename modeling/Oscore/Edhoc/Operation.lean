/-
The public calls of the two roles as operations, and the life of a session that
they run through: six transitions that both roles share, and what every state
they reach has in common.
-/
import Oscore.Edhoc.Initiator
import Oscore.Edhoc.Responder
import Oscore.Lib.History
import Mathlib.Logic.Relation

namespace Oscore.Edhoc

open Rust Rust.Call

variable {X : Suite}

/-- What a call returns to the application. -/
inductive Reply (X : Suite) where
  | message1 (result : Outcome EdhocError (HVec 64))
  | message2 (result : Outcome EdhocError (HVec 160))
  | pending2 (result : Outcome EdhocError (PendingMessage2 X))
  | message3 (result : Outcome EdhocError (HVec 128))
  | pending3 (result : Outcome EdhocError (PendingMessage3 X))
  | finished (result : Outcome EdhocError Unit)
  | context (result : Outcome OscoreError (Context X.toCrypto))
  | zeroized

/-- A handshake call or an export returned `Ok`. -/
def Reply.Succeeds : Reply X → Prop
  | .message1 result => ∃ value, result = .ok value
  | .message2 result => ∃ value, result = .ok value
  | .pending2 result => ∃ value, result = .ok value
  | .message3 result => ∃ value, result = .ok value
  | .pending3 result => ∃ value, result = .ok value
  | .finished result => ∃ value, result = .ok value
  | .context result => ∃ value, result = .ok value
  | .zeroized => False

/-- A call, its result wrapped as a reply. -/
def answer {σ α : Type} (call : Call σ EdhocError α)
    (wrap : Outcome EdhocError α → Reply X) (self : σ) : σ × Reply X :=
  (after call self, wrap (outcome call self))

namespace EdhocInitiator

inductive Op (X : Suite) where
  | createMessage1
  | beginProcessMessage2 (msg2 : Bytes)
  | finishProcessMessage2 (pending : PendingMessage2 X) (peer : PeerCredential)
  | processMessage2WithCredential (msg2 : Bytes) (peer : PeerCredential)
  | processMessage2 (msg2 : Bytes) (peerPubkey : Bytes32)
  | exportOscore
  | zeroize

def apply (X : Suite) (self : EdhocInitiator) :
    Op X → EdhocInitiator × Reply X
  | .createMessage1 => answer EdhocInitiator.createMessage1 .message1 self
  | .beginProcessMessage2 msg2 =>
      answer (EdhocInitiator.beginProcessMessage2 X msg2) .pending2 self
  | .finishProcessMessage2 pending peer =>
      answer (EdhocInitiator.finishProcessMessage2 X pending peer) .message3
        self
  | .processMessage2WithCredential msg2 peer =>
      answer (EdhocInitiator.processMessage2WithCredential X msg2 peer)
        .message3 self
  | .processMessage2 msg2 peerPubkey =>
      answer (EdhocInitiator.processMessage2 X msg2 peerPubkey) .message3 self
  | .exportOscore => (self, .context (self.exportOscore X))
  | .zeroize => (self.zeroize, .zeroized)

def step (X : Suite) (self : EdhocInitiator) (op : Op X) : EdhocInitiator :=
  (self.apply X op).1

end EdhocInitiator

namespace EdhocResponder

inductive Op (X : Suite) where
  | processMessage1 (msg1 : Bytes)
  | beginProcessMessage3 (msg3 : Bytes)
  | finishProcessMessage3 (pending : PendingMessage3 X) (peer : PeerCredential)
  | processMessage3WithCredential (msg3 : Bytes) (peer : PeerCredential)
  | processMessage3 (msg3 : Bytes) (peerPubkey : Bytes32)
  | exportOscore
  | zeroize

def apply (X : Suite) (self : EdhocResponder) :
    Op X → EdhocResponder × Reply X
  | .processMessage1 msg1 =>
      answer (EdhocResponder.processMessage1 X msg1) .message2 self
  | .beginProcessMessage3 msg3 =>
      answer (EdhocResponder.beginProcessMessage3 X msg3) .pending3 self
  | .finishProcessMessage3 pending peer =>
      answer (EdhocResponder.finishProcessMessage3 X pending peer) .finished
        self
  | .processMessage3WithCredential msg3 peer =>
      answer (EdhocResponder.processMessage3WithCredential X msg3 peer)
        .finished self
  | .processMessage3 msg3 peerPubkey =>
      answer (EdhocResponder.processMessage3 X msg3 peerPubkey) .finished self
  | .exportOscore => (self, .context (self.exportOscore X))
  | .zeroize => (self.zeroize, .zeroized)

def step (X : Suite) (self : EdhocResponder) (op : Op X) : EdhocResponder :=
  (self.apply X op).1

end EdhocResponder

/-! The life of a session. -/

namespace Endpoint

/-- What one call can do to the fields that the roles share. -/
inductive Transition : Endpoint → Endpoint → Prop
  | idle (self : Endpoint) : Transition self self
  | poison {self other : Endpoint} (h : self.Poisoned other) :
      Transition self other
  | zeroize (self : Endpoint) : Transition self (self.wipe .zeroized)
  /-- Message 1 is made, or message 3 is opened. -/
  | advance {self other : Endpoint}
      (hlifecycle : self.lifecycle = .created ∧
          other.lifecycle = .message1Created ∨
        self.lifecycle = .awaitingMessage3 ∧
          other.lifecycle = .pendingMessage3)
      (hsecret : other.ephSecret = self.ephSecret)
      (hasked : other.asked = self.asked)
      (hcompleted : other.completed = self.completed) : Transition self other
  /-- The ephemeral secret is spent, on message 1 or on message 2. -/
  | agree {self other : Endpoint}
      (hfrom : self.lifecycle = .created ∨ self.lifecycle = .message1Created)
      (hto : other.lifecycle = .awaitingMessage3 ∨
        other.lifecycle = .pendingMessage2)
      (hsecret : self.ephSecret ≠ none) (hnone : other.ephSecret = none)
      (hagreements : other.agreements = self.agreements + 1)
      (hcompleted : other.completed = self.completed) : Transition self other
  | complete {self other : Endpoint}
      (hfrom : self.lifecycle = .pendingMessage2 ∨
        self.lifecycle = .pendingMessage3)
      (hto : other.lifecycle = .complete) (hcompleted : other.completed = true)
      (hsecret : other.ephSecret = self.ephSecret)
      (hagreements : other.agreements = self.agreements) :
      Transition self other

/-- What holds of both roles in every state. -/
structure Inv (endpoint : Endpoint) : Prop where
  completed_iff : endpoint.completed = true ↔ endpoint.lifecycle = .complete
  /-- A secret that is still there has not been used. -/
  secret : endpoint.ephSecret ≠ none →
    endpoint.lifecycle = .created ∨ endpoint.lifecycle = .message1Created
  budget_le : endpoint.budget ≤ 1
  dead : endpoint.lifecycle = .failed ∨ endpoint.lifecycle = .zeroized →
    endpoint.Wiped

theorem inv_new (X : Suite) (seed ephSeed : Bytes32) :
    (new X seed ephSeed).Inv where
  completed_iff := by simp [new]
  secret _ := .inl rfl
  budget_le := by simp [budget, agreements, new]
  dead h := by simp [new] at h

theorem Wiped.inv {self : Endpoint} (h : self.Wiped)
    (hlifecycle : self.lifecycle ≠ .complete) (hbudget : self.budget ≤ 1) :
    self.Inv where
  completed_iff := by simp [h.completed, hlifecycle]
  secret hsecret := absurd h.ephSecret hsecret
  budget_le := hbudget
  dead _ := h

theorem Inv.transition {self other : Endpoint} (hinv : self.Inv)
    (h : Transition self other) : other.Inv := by
  have hopen : self.lifecycle ≠ .complete → self.completed ≠ true :=
    fun hne hcompleted => hne (hinv.completed_iff.mp hcompleted)
  have hspent : self.lifecycle = .awaitingMessage3 ∨
      self.lifecycle = .pendingMessage2 ∨
      self.lifecycle = .pendingMessage3 → self.ephSecret = none := by
    intro hlate
    by_contra hsecret
    rcases hinv.secret hsecret with hearly | hearly <;>
      rw [hearly] at hlate <;> simp at hlate
  cases h with
  | idle => exact hinv
  | poison h =>
      exact h.wiped.inv (by simp [h.lifecycle])
        (h.budget_le.trans hinv.budget_le)
  | zeroize =>
      refine (self.wiped_wipe _).inv (by simp [wipe]) ?_
      rw [budget_of_none rfl]
      exact (Nat.le_add_right _ _).trans hinv.budget_le
  | advance hlifecycle hsecret hasked hcompleted =>
      have hbudget : other.budget = self.budget := by
        rw [budget, budget, agreements, agreements, hasked, hsecret]
      refine ⟨?_, ?_, hbudget ▸ hinv.budget_le, ?_⟩
      · rw [hcompleted]
        rcases hlifecycle with ⟨hfrom, hto⟩ | ⟨hfrom, hto⟩ <;>
          simp [hto, hopen, hfrom]
      · intro hsome
        rcases hlifecycle with ⟨-, hto⟩ | ⟨hfrom, -⟩
        · exact .inr hto
        · exact absurd (hsecret.trans (hspent (.inl hfrom))) hsome
      · rcases hlifecycle with ⟨-, hto⟩ | ⟨-, hto⟩ <;> simp [hto]
  | agree hfrom hto hsecret hnone hagreements hcompleted =>
      obtain ⟨secret, hsome⟩ := Option.ne_none_iff_exists'.mp hsecret
      have hbudget := hinv.budget_le
      rw [budget_of_some hsome] at hbudget
      refine ⟨?_, fun hsome => absurd hnone hsome, ?_, ?_⟩
      · rw [hcompleted]
        rcases hfrom with hfrom | hfrom <;> rcases hto with hto | hto <;>
          simp [hto, hopen, hfrom]
      · rw [budget_of_none hnone, hagreements]
        exact hbudget
      · rcases hto with hto | hto <;> simp [hto]
  | complete hfrom hto hcompleted hsecret hagreements =>
      have hnone := hspent (.inr hfrom)
      have hbudget := hinv.budget_le
      rw [budget_of_none hnone, ← hagreements] at hbudget
      refine ⟨by simp [hto, hcompleted], ?_, ?_, by simp [hto]⟩
      · exact fun hsome => absurd (hsecret.trans hnone) hsome
      · rw [budget_of_none (hsecret.trans hnone)]
        exact hbudget

/-- What has only just been created has been created so. -/
theorem Transition.of_created {self other : Endpoint}
    (h : Transition self other) (hto : other.lifecycle = .created) :
    self.lifecycle = .created ∧ other.ephSecret = self.ephSecret := by
  cases h with
  | idle => exact ⟨hto, rfl⟩
  | poison h => simp [h.lifecycle] at hto
  | zeroize => simp [wipe] at hto
  | advance hlifecycle =>
      rcases hlifecycle with ⟨-, hother⟩ | ⟨-, hother⟩ <;> simp [hother] at hto
  | agree _ hother => rcases hother with hother | hother <;> simp [hother] at hto
  | complete _ hother => simp [hother] at hto

/-- One state is reached from another by transitions. -/
abbrev Reaches : Endpoint → Endpoint → Prop :=
  Relation.ReflTransGen Transition

theorem Inv.reaches {self other : Endpoint} (hinv : self.Inv)
    (h : Reaches self other) : other.Inv := by
  induction h with
  | refl => exact hinv
  | tail _ htransition ih => exact ih.transition htransition

theorem Reaches.ephSecret_of_created {self other : Endpoint}
    (h : Reaches self other) (hto : other.lifecycle = .created) :
    other.ephSecret = self.ephSecret := by
  induction h with
  | refl => rfl
  | tail _ htransition ih =>
      obtain ⟨hfrom, hsecret⟩ := htransition.of_created hto
      rw [hsecret, ih hfrom]

end Endpoint

open Endpoint (Reaches Transition)

/-- However the call ends, its state is reached from this endpoint. -/
abbrev Leads {σ α : Type} (endpoint : σ → Endpoint) (start : Endpoint)
    (call : Call σ EdhocError α) (self : σ) : Prop :=
  Meets call self (fun _ t => Reaches start (endpoint t))
    fun t => Reaches start (endpoint t)

/-- A poisoned state is reached from whatever leads to the state before. -/
theorem Endpoint.Poisoned.reaches {start self other : Endpoint}
    (h : self.Poisoned other) (hstart : Reaches start self) :
    Reaches start other :=
  hstart.tail (.poison h)

namespace EdhocInitiator

variable {start : Endpoint} {self : EdhocInitiator}

theorem createMessage1_leads (h : Reaches start self.toEndpoint) :
    Leads toEndpoint start EdhocInitiator.createMessage1 self := by
  refine (createMessage1_meets self).mono ?_ ?_
  · rintro msg1 _ ⟨hcreated, -, rfl⟩
    exact h.tail (.advance (.inl ⟨hcreated, rfl⟩) rfl rfl rfl)
  · rintro _ rfl
    exact h

theorem beginProcessMessage2_leads (h : Reaches start self.toEndpoint)
    (msg2 : Bytes) :
    Leads toEndpoint start (EdhocInitiator.beginProcessMessage2 X msg2)
      self := by
  refine (beginProcessMessage2_meets self msg2).mono ?_ ?_
  · rintro pending _ ⟨secret, gY, hlifecycle, hsecret, -, -, rfl⟩
    exact h.tail (.agree (.inr hlifecycle) (.inr rfl) (by simp [hsecret]) rfl
      rfl rfl)
  · rintro t (rfl | ⟨-, hpoisoned, -⟩)
    · exact h
    · exact hpoisoned.reaches h

theorem finishProcessMessage2_leads (h : Reaches start self.toEndpoint)
    (pending : PendingMessage2 X) (peer : PeerCredential) :
    Leads toEndpoint start
      (EdhocInitiator.finishProcessMessage2 X pending peer) self := by
  refine (finishProcessMessage2_meets self pending peer).mono ?_ ?_
  · rintro msg3 _ ⟨hlifecycle, -, -, _, ⟨_, _, -, -, -, rfl⟩, rfl⟩
    exact h.tail (.complete (.inl hlifecycle) rfl rfl rfl rfl)
  · rintro t (rfl | ⟨-, hpoisoned⟩)
    · exact h
    · exact hpoisoned.reaches h

theorem processMessage2WithCredential_leads
    (h : Reaches start self.toEndpoint) (msg2 : Bytes)
    (peer : PeerCredential) :
    Leads toEndpoint start
      (EdhocInitiator.processMessage2WithCredential X msg2 peer) self :=
  (beginProcessMessage2_leads h msg2).bind fun pending _ hbegin =>
    finishProcessMessage2_leads hbegin pending peer

/-- Every call walks through the life of a session. -/
theorem step_reaches (self : EdhocInitiator) (op : Op X) :
    Reaches self.toEndpoint (self.step X op).toEndpoint := by
  have h : Reaches self.toEndpoint self.toEndpoint := .refl
  cases op with
  | createMessage1 => exact (createMessage1_leads h).after
  | beginProcessMessage2 msg2 =>
      exact (beginProcessMessage2_leads h msg2).after
  | finishProcessMessage2 pending peer =>
      exact (finishProcessMessage2_leads h pending peer).after
  | processMessage2WithCredential msg2 peer =>
      exact (processMessage2WithCredential_leads h msg2 peer).after
  | processMessage2 msg2 peerPubkey =>
      obtain ⟨idCred, credential, hraw, -⟩ :=
        exists_rawKeyCredential X peerPubkey
      have hleads : Leads toEndpoint self.toEndpoint
          (EdhocInitiator.processMessage2 X msg2 peerPubkey) self :=
        processMessage2_eq hraw msg2 ▸
          processMessage2WithCredential_leads h msg2 _
      exact hleads.after
  | exportOscore => exact h
  | zeroize => exact h.tail (.zeroize self.toEndpoint)

end EdhocInitiator

namespace EdhocResponder

variable {start : Endpoint} {self : EdhocResponder}

theorem processMessage1_leads (h : Reaches start self.toEndpoint)
    (msg1 : Bytes) :
    Leads toEndpoint start (EdhocResponder.processMessage1 X msg1) self := by
  refine (processMessage1_meets self msg1).mono ?_ ?_
  · rintro _ _ ⟨_, _, _, _, _, hlifecycle, hsecret, -, -, -, -, rfl⟩
    exact h.tail (.agree (.inl hlifecycle) (.inl rfl) (by simp [hsecret]) rfl
      rfl rfl)
  · rintro t (rfl | ⟨-, ⟨_, rfl⟩ | ⟨hpoisoned, -⟩⟩)
    · exact h
    · exact h
    · exact hpoisoned.reaches h

theorem beginProcessMessage3_leads (h : Reaches start self.toEndpoint)
    (msg3 : Bytes) :
    Leads toEndpoint start (EdhocResponder.beginProcessMessage3 X msg3)
      self := by
  refine (beginProcessMessage3_meets self msg3).mono ?_ ?_
  · rintro pending _ ⟨hlifecycle, -, rfl⟩
    exact h.tail (.advance (.inr ⟨hlifecycle, rfl⟩) rfl rfl rfl)
  · rintro t (rfl | ⟨-, hpoisoned⟩)
    · exact h
    · exact hpoisoned.reaches h

theorem finishProcessMessage3_leads (h : Reaches start self.toEndpoint)
    (pending : PendingMessage3 X) (peer : PeerCredential) :
    Leads toEndpoint start
      (EdhocResponder.finishProcessMessage3 X pending peer) self := by
  refine (finishProcessMessage3_meets self pending peer).mono ?_ ?_
  · rintro _ _ ⟨hlifecycle, -, -, _, ⟨_, _, -, -, -, rfl⟩, rfl⟩
    exact h.tail (.complete (.inr hlifecycle) rfl rfl rfl rfl)
  · exact fun t hpoisoned => hpoisoned.reaches h

theorem processMessage3WithCredential_leads
    (h : Reaches start self.toEndpoint) (msg3 : Bytes)
    (peer : PeerCredential) :
    Leads toEndpoint start
      (EdhocResponder.processMessage3WithCredential X msg3 peer) self :=
  (beginProcessMessage3_leads h msg3).bind fun pending _ hbegin =>
    finishProcessMessage3_leads hbegin pending peer

/-- Every call walks through the life of a session. -/
theorem step_reaches (self : EdhocResponder) (op : Op X) :
    Reaches self.toEndpoint (self.step X op).toEndpoint := by
  have h : Reaches self.toEndpoint self.toEndpoint := .refl
  cases op with
  | processMessage1 msg1 => exact (processMessage1_leads h msg1).after
  | beginProcessMessage3 msg3 =>
      exact (beginProcessMessage3_leads h msg3).after
  | finishProcessMessage3 pending peer =>
      exact (finishProcessMessage3_leads h pending peer).after
  | processMessage3WithCredential msg3 peer =>
      exact (processMessage3WithCredential_leads h msg3 peer).after
  | processMessage3 msg3 peerPubkey =>
      obtain ⟨idCred, credential, hraw, -⟩ :=
        exists_rawKeyCredential X peerPubkey
      have hleads : Leads toEndpoint self.toEndpoint
          (EdhocResponder.processMessage3 X msg3 peerPubkey) self :=
        processMessage3_eq hraw msg3 ▸
          processMessage3WithCredential_leads h msg3 _
      exact hleads.after
  | exportOscore => exact h
  | zeroize => exact h.tail (.zeroize self.toEndpoint)

theorem run_reaches (self : EdhocResponder) (ops : List (Op X)) :
    Reaches self.toEndpoint (History.run (step X) self ops).toEndpoint := by
  have hstep : ∀ (s : EdhocResponder) (op : Op X),
      Reaches self.toEndpoint s.toEndpoint →
        Reaches self.toEndpoint (s.step X op).toEndpoint :=
    fun s op h => h.trans (step_reaches s op)
  exact History.invariant hstep .refl ops

end EdhocResponder

/-! A handshake between two parties. -/

/-- The states of the two parties. -/
abbrev Parties : Type := EdhocInitiator × EdhocResponder

def byInitiator {α : Type} (call : Call EdhocInitiator EdhocError α) :
    Call Parties EdhocError α := fun parties =>
  match call.run parties.1 with
  | .ok a initiator => .ok a (initiator, parties.2)
  | .error fault initiator => .error fault (initiator, parties.2)

def byResponder {α : Type} (call : Call EdhocResponder EdhocError α) :
    Call Parties EdhocError α := fun parties =>
  match call.run parties.2 with
  | .ok a responder => .ok a (parties.1, responder)
  | .error fault responder => .error fault (parties.1, responder)

/-- The three messages, delivered as they were sent; each party is given the
raw public key of the other. -/
def handshake (X : Suite) :
    Call Parties EdhocError (HVec 64 × HVec 160 × HVec 128) := do
  let (initiator, responder) ← get
  let msg1 ← byInitiator EdhocInitiator.createMessage1
  let msg2 ← byResponder (EdhocResponder.processMessage1 X msg1.toList)
  let msg3 ← byInitiator
    (EdhocInitiator.processMessage2 X msg2.toList responder.pubkey)
  byResponder
    (EdhocResponder.processMessage3 X msg3.toList initiator.pubkey)
  return (msg1, msg2, msg3)

/-- Two parties on the stand-in primitives. -/
def standInParties : Parties :=
  (.new .standIn (Crypto.blockOfNat 32 1) (Crypto.blockOfNat 32 2)
      (.ofByte 0),
    .new .standIn (Crypto.blockOfNat 32 3) (Crypto.blockOfNat 32 4) 1)

end Oscore.Edhoc
