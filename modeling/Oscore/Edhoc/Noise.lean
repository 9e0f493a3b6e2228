/-
The handshake among other messages.  Before the message of its peer each party
is handed any number of others.  The handshake then ends as it does without
them, except where one of them is read as far as the ephemeral secret.
-/
import Oscore.Edhoc.Handshake
import Oscore.Edhoc.Lifecycle

namespace Oscore.Edhoc

open Rust Rust.Call

variable {X : Suite}

namespace EdhocResponder

/-- `process_message_1` reads the message as far as its own identifier. -/
def Reads (msg1 : Bytes) : Prop :=
  ∃ (storedMsg1 : HVec 64) (gX : Bytes32) (start : Nat) (cI : UInt8),
    extendErr HVec.empty msg1 = .ok storedMsg1 ∧
      parseGX msg1 = .ok (gX, start) ∧ parseCI (msg1.drop start) = .ok cI

/-- What cannot be read leaves at most the key behind. -/
theorem processMessage1_unread (self : EdhocResponder) {msg1 : Bytes}
    (h : ¬ Reads msg1) :
    (processMessage1 X msg1).Meets self (fun _ _ => False)
      fun t => self.SameButGX t := by
  refine Meets.get_bind (Meets.failIf_bind self.sameButGX_refl fun _ => ?_)
  refine Meets.check_bind (extendErr_meets _ _).returned self.sameButGX_refl ?_
  rintro storedMsg1 ⟨hstored, -⟩
  refine Meets.check_bind (parseGX_meets msg1).returned self.sameButGX_refl ?_
  rintro ⟨gX, start⟩ ⟨hgX, hstart⟩
  refine Meets.modify_bind ?_
  refine Meets.check_bind (sliceFrom_meets msg1 hstart) ⟨gX, rfl⟩ ?_
  rintro _ rfl
  refine Meets.check_bind (parseCI_meets _).returned ⟨gX, rfl⟩ ?_
  rintro cI ⟨hcI, -⟩
  exact absurd ⟨storedMsg1, gX, start, cI, hstored, hgX, hcI⟩ h

/-- What can be read ends the wait for message 1. -/
theorem processMessage1_read {self : EdhocResponder} {msg1 : Bytes}
    (h : Reads msg1) (hcreated : self.lifecycle = .created) {secret : Bytes32}
    (hsecret : self.ephSecret = some secret) :
    (processMessage1 X msg1).Meets self (fun _ t => t.lifecycle ≠ .created)
      fun t => t.lifecycle ≠ .created := by
  obtain ⟨storedMsg1, gX, start, cI, hstored, hgX, hcI⟩ := h
  have hstart : start ≤ msg1.length := (parseGX_meets msg1).of_ok hgX
  refine Meets.get_bind ?_
  rw [failIf_of_not _ (by simp [hcreated, hsecret])]
  refine Meets.ok_bind ?_
  rw [hstored]
  refine Meets.ok_bind ?_
  rw [hgX]
  refine Meets.ok_bind (Meets.modify_bind ?_)
  rw [sliceFrom_of_le hstart]
  refine Meets.ok_bind ?_
  rw [hcI]
  refine Meets.ok_bind (Meets.ite (fun _ => ?_) fun _ => ?_)
  · exact Meets.modify_bind (Meets.throw _ nofun)
  · rw [hsecret]
    refine Meets.ok_bind (Meets.modify_bind ?_)
    refine Meets.onErr ((createMessage2_meets _ _ _).mono ?_ fun _ h => h)
      fun _ _ => nofun
    rintro msg2 t ⟨-, rfl⟩
    exact nofun

theorem processMessage1_late {self : EdhocResponder}
    (h : self.lifecycle ≠ .created) (msg1 : Bytes) :
    (processMessage1 X msg1).Meets self (fun _ _ => False)
      fun t => t = self :=
  Meets.get_bind (Meets.failIf_bind rfl fun hguard =>
    absurd (.inl h) hguard)

theorem sameButGX_symm {self other : EdhocResponder}
    (h : self.SameButGX other) : other.SameButGX self := by
  obtain ⟨gX, rfl⟩ := h
  exact ⟨self.gX, rfl⟩

theorem processMessage1_sameButGX {self other : EdhocResponder}
    (h : self.SameButGX other) {msg1 : Bytes} {msg2 : HVec 160}
    {t : EdhocResponder} (hrun : (processMessage1 X msg1).run self =
      .ok msg2 t) : (processMessage1 X msg1).run other = .ok msg2 t := by
  have hreply := (processMessage1_agree (X := X) h msg1).1
  rcases (processMessage1_meets (X := X) other msg1).ends with
    ⟨msg2', houtcome, hother, secret', stored', gX', start', cI', -, hsecret',
      hstored', hgX', hcI', -, ht'⟩ | ⟨error, houtcome, -⟩
  · obtain ⟨secret, stored, gX, start, cI, -, hsecret, hstored, hgX, hcI, -,
      ht⟩ := (processMessage1_meets (X := X) self msg1).of_ok hrun
    rw [houtcome, outcome, hrun] at hreply
    cases Except.ok.inj hreply
    obtain ⟨gX₀, rfl⟩ := h
    cases Option.some.inj (hsecret.symm.trans hsecret')
    cases HVec.ext (hstored.trans hstored'.symm)
    cases Except.ok.inj (hgX.symm.trans hgX')
    cases Except.ok.inj (hcI.symm.trans hcI')
    rw [hother, ht', ht]
    rfl
  · rw [houtcome, outcome, hrun] at hreply
    cases hreply

/-- The responder once these messages were handed to it as message 1. -/
def hears (X : Suite) (self : EdhocResponder) (noise : List Bytes) :
    EdhocResponder :=
  History.run (EdhocResponder.step X) self (noise.map .processMessage1)

theorem hears_late {self : EdhocResponder} (h : self.lifecycle ≠ .created)
    (noise : List Bytes) : self.hears X noise = self := by
  induction noise with
  | nil => rfl
  | cons msg1 noise ih =>
      have hstep : self.step X (.processMessage1 msg1) = self := by
        rcases (processMessage1_late (X := X) h msg1).ends with
          ⟨_, -, -, hfalse⟩ | ⟨_, -, hafter⟩
        · exact hfalse.elim
        · exact hafter
      rw [hears, List.map_cons, History.run_cons, hstep]
      exact ih

/-- A responder that waits either reads none of the messages, or does not wait
for message 1 any more. -/
theorem hears_cases {self : EdhocResponder}
    (hcreated : self.lifecycle = .created) {secret : Bytes32}
    (hsecret : self.ephSecret = some secret) (noise : List Bytes) :
    (∀ msg1 ∈ noise, ¬ Reads msg1) ∧ self.SameButGX (self.hears X noise) ∨
      (∃ msg1 ∈ noise, Reads msg1) ∧
        (self.hears X noise).lifecycle ≠ .created := by
  induction noise generalizing self with
  | nil => exact .inl ⟨nofun, self.sameButGX_refl⟩
  | cons msg1 noise ih =>
      rw [hears, List.map_cons, History.run_cons]
      by_cases hreads : Reads msg1
      · have hstep : (self.step X (.processMessage1 msg1)).lifecycle ≠
            .created :=
          (processMessage1_read (X := X) hreads hcreated hsecret).after
        refine .inr ⟨⟨msg1, List.mem_cons_self, hreads⟩, ?_⟩
        rw [← hears, hears_late hstep]
        exact hstep
      · have hstep : self.SameButGX (self.step X (.processMessage1 msg1)) := by
          rcases (processMessage1_unread (X := X) self hreads).ends with
            ⟨_, -, -, hfalse⟩ | ⟨_, -, hafter⟩
          · exact hfalse.elim
          · exact hafter
        obtain ⟨gX, hgX⟩ := hstep
        rw [hgX, ← hears]
        have hnext := @ih { self with gX } hcreated hsecret
        rcases hnext with ⟨hnone, gX', hgX'⟩ | ⟨⟨msg1', hmem, hread⟩, hlate⟩
        · refine .inl ⟨?_, gX', hgX'⟩
          simpa [hreads] using hnone
        · exact .inr ⟨⟨msg1', List.mem_cons_of_mem _ hmem, hread⟩, hlate⟩

end EdhocResponder

namespace EdhocInitiator

/-- `process_message_2` finds an error message or the parts of a message 2. -/
def Reads (X : Suite) (msg2 : Bytes) : Prop :=
  msg2.head? = some 2 ∨ ∃ parts, splitMessage2 X msg2 = .ok parts

theorem beginProcessMessage2_unread (self : EdhocInitiator) {msg2 : Bytes}
    (h : ¬ Reads X msg2) :
    (beginProcessMessage2 X msg2).Meets self (fun _ _ => False)
      fun t => t = self := by
  refine Meets.get_bind (Meets.failIf_bind rfl fun _ => ?_)
  rw [if_neg fun hhead => h (.inl hhead)]
  refine Meets.check_bind (splitMessage2_meets msg2).returned rfl ?_
  rintro parts ⟨hparts, -⟩
  exact absurd (.inr ⟨parts, hparts⟩) h

theorem beginProcessMessage2_read {self : EdhocInitiator} {msg2 : Bytes}
    (h : Reads X msg2) (hcreated : self.lifecycle = .message1Created)
    {secret : Bytes32} (hsecret : self.ephSecret = some secret) :
    (beginProcessMessage2 X msg2).Meets self
      (fun _ t => t.lifecycle ≠ .message1Created)
      fun t => t.lifecycle ≠ .message1Created := by
  refine Meets.get_bind ?_
  rw [failIf_of_not _ (by simp [hcreated, hsecret])]
  refine Meets.ok_bind (Meets.ite (fun _ => ?_) fun hhead => ?_)
  · exact Meets.modify_bind (Meets.throw _ nofun)
  · obtain ⟨⟨gY, ciphertext2⟩, hparts⟩ := h.resolve_left hhead
    rw [hparts]
    refine Meets.ok_bind ?_
    rw [hsecret]
    refine Meets.ok_bind (Meets.modify_bind ?_)
    refine Meets.onErr ((openMessage2_meets _ _ _).mono ?_ fun _ h => h)
      fun _ _ => nofun
    rintro pending t ⟨-, -, -, rfl⟩
    exact nofun

/-- What cannot be read leaves nothing behind. -/
theorem processMessage2_unread (self : EdhocInitiator) {msg2 : Bytes}
    (h : ¬ Reads X msg2) (pubkey : Bytes32) :
    (processMessage2 X msg2 pubkey).Meets self (fun _ _ => False)
      fun t => t = self := by
  rw [processMessage2_raw]
  exact (beginProcessMessage2_unread self h).bind fun _ _ hfalse => hfalse.elim

/-- What can be read ends the wait for message 2. -/
theorem processMessage2_read {self : EdhocInitiator} {msg2 : Bytes}
    (h : Reads X msg2) (hcreated : self.lifecycle = .message1Created)
    {secret : Bytes32} (hsecret : self.ephSecret = some secret)
    (pubkey : Bytes32) :
    (processMessage2 X msg2 pubkey).Meets self
      (fun _ t => t.lifecycle ≠ .message1Created)
      fun t => t.lifecycle ≠ .message1Created := by
  rw [processMessage2_raw]
  refine (beginProcessMessage2_read h hcreated hsecret).bind ?_
  intro pending t ht
  refine (finishProcessMessage2_meets t pending _).mono ?_ ?_
  · rintro msg3 _ ⟨-, -, -, _, -, rfl⟩
    exact nofun
  · rintro _ (rfl | ⟨-, hpoisoned⟩)
    · exact ht
    · rw [hpoisoned.lifecycle]
      exact nofun

theorem processMessage2_late {self : EdhocInitiator}
    (h : self.lifecycle ≠ .message1Created) (msg2 : Bytes)
    (pubkey : Bytes32) :
    (processMessage2 X msg2 pubkey).Meets self (fun _ _ => False)
      fun t => t = self := by
  rw [processMessage2_raw]
  have hbegin : (beginProcessMessage2 X msg2).Meets self (fun _ _ => False)
      fun t => t = self :=
    Meets.get_bind (Meets.failIf_bind rfl fun hguard =>
      absurd (.inl h) hguard)
  exact hbegin.bind fun _ _ hfalse => hfalse.elim

/-- The initiator once these messages were handed to it as message 2. -/
def hears (X : Suite) (self : EdhocInitiator) (pubkey : Bytes32)
    (noise : List Bytes) : EdhocInitiator :=
  History.run (EdhocInitiator.step X) self
    (noise.map fun msg2 => .processMessage2 msg2 pubkey)

theorem hears_late {self : EdhocInitiator}
    (h : self.lifecycle ≠ .message1Created) (pubkey : Bytes32)
    (noise : List Bytes) : self.hears X pubkey noise = self := by
  induction noise with
  | nil => rfl
  | cons msg2 noise ih =>
      have hstep : self.step X (.processMessage2 msg2 pubkey) = self := by
        rcases (processMessage2_late (X := X) h msg2 pubkey).ends with
          ⟨_, -, -, hfalse⟩ | ⟨_, -, hafter⟩
        · exact hfalse.elim
        · exact hafter
      rw [hears, List.map_cons, History.run_cons, hstep]
      exact ih

/-- An initiator that waits either reads none of the messages and stays as it
is, or does not wait for message 2 any more. -/
theorem hears_cases {self : EdhocInitiator}
    (hcreated : self.lifecycle = .message1Created) {secret : Bytes32}
    (hsecret : self.ephSecret = some secret) (pubkey : Bytes32)
    (noise : List Bytes) :
    (∀ msg2 ∈ noise, ¬ Reads X msg2) ∧ self.hears X pubkey noise = self ∨
      (∃ msg2 ∈ noise, Reads X msg2) ∧
        (self.hears X pubkey noise).lifecycle ≠ .message1Created := by
  induction noise with
  | nil => exact .inl ⟨nofun, rfl⟩
  | cons msg2 noise ih =>
      rw [hears, List.map_cons, History.run_cons]
      by_cases hreads : Reads X msg2
      · have hstep : (self.step X (.processMessage2 msg2 pubkey)).lifecycle ≠
            .message1Created :=
          (processMessage2_read hreads hcreated hsecret pubkey).after
        refine .inr ⟨⟨msg2, List.mem_cons_self, hreads⟩, ?_⟩
        rw [← hears, hears_late hstep]
        exact hstep
      · have hstep : self.step X (.processMessage2 msg2 pubkey) = self := by
          rcases (processMessage2_unread self hreads pubkey).ends with
            ⟨_, -, -, hfalse⟩ | ⟨_, -, hafter⟩
          · exact hfalse.elim
          · exact hafter
        rw [hstep, ← hears]
        rcases ih with ⟨hnone, hsame⟩ | ⟨⟨msg2', hmem, hread⟩, hlate⟩
        · refine .inl ⟨?_, hsame⟩
          simpa [hreads] using hnone
        · exact .inr ⟨⟨msg2', List.mem_cons_of_mem _ hmem, hread⟩, hlate⟩

end EdhocInitiator

/-! The handshake. -/

/-- The handshake, where the responder is handed other messages before message
1, and the initiator before message 2. -/
def noisyHandshake (X : Suite) (toResponder toInitiator : List Bytes) :
    Call Parties EdhocError (HVec 64 × HVec 160 × HVec 128) := do
  let (initiator, responder) ← get
  let msg1 ← byInitiator EdhocInitiator.createMessage1
  modify fun (initiator, responder) =>
    (initiator, responder.hears X toResponder)
  let msg2 ← byResponder (EdhocResponder.processMessage1 X msg1.toList)
  let pubkey := responder.pubkey
  modify fun (initiator, responder) =>
    (initiator.hears X pubkey toInitiator, responder)
  let msg3 ← byInitiator
    (EdhocInitiator.processMessage2 X msg2.toList pubkey)
  byResponder
    (EdhocResponder.processMessage3 X msg3.toList initiator.pubkey)
  return (msg1, msg2, msg3)

theorem noisyHandshake_eq_ok {toResponder toInitiator : List Bytes}
    {initiator initiator' : EdhocInitiator}
    {responder responder' : EdhocResponder} {msg1 : HVec 64} {msg2 : HVec 160}
    {msg3 : HVec 128} :
    (noisyHandshake X toResponder toInitiator).run (initiator, responder) =
        .ok (msg1, msg2, msg3) (initiator', responder') ↔
      ∃ sent answered,
        EdhocInitiator.createMessage1.run initiator = .ok msg1 sent ∧
        (EdhocResponder.processMessage1 X msg1.toList).run
            (responder.hears X toResponder) = .ok msg2 answered ∧
        (EdhocInitiator.processMessage2 X msg2.toList responder.pubkey).run
          (sent.hears X responder.pubkey toInitiator) = .ok msg3 initiator' ∧
        (EdhocResponder.processMessage3 X msg3.toList initiator.pubkey).run
          answered = .ok () responder' := by
  simp only [noisyHandshake, bind_eq_ok, get_eq_ok, modify_eq_ok,
    byInitiator_eq_ok, byResponder_eq_ok, EStateM.run_pure,
    EStateM.Result.ok.injEq, Prod.mk.injEq, Prod.exists]
  constructor
  · rintro ⟨_, _, _, _, ⟨⟨rfl, rfl⟩, rfl, rfl⟩, _, sent, _, ⟨h1, rfl⟩, _, _,
      _, ⟨rfl, rfl⟩, _, _, answered, ⟨h2, rfl⟩, _, _, _, ⟨rfl, rfl⟩, _, _, _,
      ⟨h3, rfl⟩, _, _, _, ⟨h4, rfl⟩, ⟨rfl, rfl, rfl⟩, rfl, rfl⟩
    exact ⟨_, _, h1, h2, h3, h4⟩
  · rintro ⟨sent, answered, h1, h2, h3, h4⟩
    exact ⟨initiator, responder, initiator, responder,
      ⟨⟨rfl, rfl⟩, rfl, rfl⟩, msg1, sent, responder, ⟨h1, rfl⟩, (), _, _,
      ⟨rfl, rfl⟩, msg2, sent, answered, ⟨h2, rfl⟩, (), _, _, ⟨rfl, rfl⟩, msg3,
      initiator', answered, ⟨h3, rfl⟩, (), initiator', responder', ⟨h4, rfl⟩,
      ⟨rfl, rfl, rfl⟩, rfl, rfl⟩

/-- Other messages leave a handshake as it is, if none of them can be read, and
else keep it from completing. -/
theorem handshake_survives_iff_unread (seedI ephI seedR ephR : Bytes32)
    (cI : ConnectionId) (cR : UInt8) (toResponder toInitiator : List Bytes)
    (messages : HVec 64 × HVec 160 × HVec 128) (other : Parties) :
    (noisyHandshake X toResponder toInitiator).run
        (newParties X seedI ephI seedR ephR cI cR) = .ok messages other ↔
      (handshake X).run (newParties X seedI ephI seedR ephR cI cR) =
          .ok messages other ∧
        (∀ msg1 ∈ toResponder, ¬ EdhocResponder.Reads msg1) ∧
        ∀ msg2 ∈ toInitiator, ¬ EdhocInitiator.Reads X msg2 := by
  obtain ⟨msg1, msg2, msg3⟩ := messages
  obtain ⟨initiator', responder'⟩ := other
  rw [newParties, noisyHandshake_eq_ok, handshake_eq_ok]
  have hresponder := (EdhocResponder.new X seedR ephR cR).hears_cases (X := X)
    rfl rfl toResponder
  have hinitiator {sent : EdhocInitiator}
      (h1 : EdhocInitiator.createMessage1.run
        (EdhocInitiator.new X seedI ephI cI) = .ok msg1 sent) :=
    sent.hears_cases (X := X)
      (by
        obtain ⟨-, -, rfl⟩ := (EdhocInitiator.createMessage1_meets _).of_ok h1
        rfl)
      (by
        obtain ⟨-, -, rfl⟩ := (EdhocInitiator.createMessage1_meets _).of_ok h1
        rfl)
      (EdhocResponder.new X seedR ephR cR).pubkey toInitiator
  constructor
  · rintro ⟨sent, answered, h1, h2, h3, h4⟩
    rcases hresponder with ⟨hunread, hsame⟩ | ⟨-, hlate⟩
    · rcases hinitiator h1 with ⟨hunread', hsame'⟩ | ⟨-, hlate⟩
      · rw [hsame'] at h3
        exact ⟨⟨sent, answered, h1, EdhocResponder.processMessage1_sameButGX
          (EdhocResponder.sameButGX_symm hsame) h2, h3, h4⟩, hunread,
          hunread'⟩
      · exact ((EdhocInitiator.processMessage2_late hlate _ _).of_ok h3).elim
    · exact ((EdhocResponder.processMessage1_late hlate _).of_ok h2).elim
  · rintro ⟨⟨sent, answered, h1, h2, h3, h4⟩, hunread, hunread'⟩
    rcases hresponder with ⟨-, hsame⟩ | ⟨⟨msg1', hmem, hread⟩, -⟩
    · rcases hinitiator h1 with ⟨-, hsame'⟩ | ⟨⟨msg2', hmem, hread⟩, -⟩
      · exact ⟨sent, answered, h1,
          EdhocResponder.processMessage1_sameButGX hsame h2,
          hsame'.symm ▸ h3, h4⟩
      · exact absurd hread (hunread' msg2' hmem)
    · exact absurd hread (hunread msg1' hmem)

end Oscore.Edhoc
