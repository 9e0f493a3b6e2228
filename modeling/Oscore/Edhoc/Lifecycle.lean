/-
What a session promises over every sequence of calls: how it gets complete, how
often it uses its ephemeral secret, and what it refuses once it is wiped.
-/
import Oscore.Edhoc.Operation

namespace Oscore.Edhoc

open Rust Rust.Call

variable {X : Suite}

/-- The call fails with an `Err` and leaves no trace. -/
abbrev Refused {σ α : Type} (call : Call σ EdhocError α) (self : σ) : Prop :=
  Meets call self (fun _ _ => False) (· = self)

theorem not_ok_of_meets {σ α : Type} {call : Call σ EdhocError α} {self : σ}
    {fail : σ → Prop} (h : Meets call self (fun _ _ => False) fail) :
    ¬ ∃ value, outcome call self = .ok value := by
  rintro ⟨value, hok⟩
  rcases h.ends with ⟨_, -, -, hfalse⟩ | ⟨error, herror, -⟩
  · exact hfalse
  · rw [herror] at hok
    cases hok

theorem refused_answer {σ α : Type} {call : Call σ EdhocError α} {self : σ}
    (h : Refused call self) :
    after call self = self ∧ ¬ ∃ value, outcome call self = .ok value := by
  have hafter : Meets call self (fun _ => (· = self)) (· = self) :=
    h.mono (fun _ _ hfalse => hfalse.elim) fun _ ht => ht
  exact ⟨hafter.after, not_ok_of_meets h⟩

/-- A failure and `zeroize` leave a state like this. -/
def Endpoint.Dead (endpoint : Endpoint) : Prop :=
  endpoint.lifecycle = .failed ∨ endpoint.lifecycle = .zeroized

/-- The law of a role, in one of its states. -/
structure Lawful {σ ω : Type} (endpoint : σ → Endpoint)
    (exportOscore : σ → Outcome OscoreError (Context X.toCrypto))
    (apply : σ → ω → σ × Reply X) (finishes : σ → ω → σ → Prop) (s : σ) :
    Prop where
  completed_iff :
    (endpoint s).completed = true ↔ (endpoint s).lifecycle = .complete
  complete_of_export : ∀ context, exportOscore s = .ok context →
    (endpoint s).lifecycle = .complete
  finishes_of_complete : ∀ op, (endpoint s).lifecycle ≠ .complete →
    (endpoint (apply s op).1).lifecycle = .complete →
      finishes s op (apply s op).1
  secret : (endpoint s).ephSecret ≠ none → (endpoint s).agreements = 0 ∧
    ((endpoint s).lifecycle = .created ∨
      (endpoint s).lifecycle = .message1Created)
  agreements_le : (endpoint s).agreements ≤ 1
  wiped : (endpoint s).Dead → (endpoint s).Wiped
  refuses : (endpoint s).Dead → ∀ ops,
    ∀ reply ∈ History.replies apply s ops, ¬ reply.Succeeds

theorem lawful_of_inv {σ ω : Type} {endpoint : σ → Endpoint}
    {exportOscore : σ → Outcome OscoreError (Context X.toCrypto)}
    {apply : σ → ω → σ × Reply X} {finishes : σ → ω → σ → Prop} {s : σ}
    (hinv : (endpoint s).Inv)
    (hexport : ∀ context, exportOscore s = .ok context →
      (endpoint s).completed = true)
    (hfinishes : ∀ op, (endpoint s).lifecycle ≠ .complete →
      (endpoint (apply s op).1).lifecycle = .complete →
        finishes s op (apply s op).1)
    (hdead : ∀ s op, (endpoint s).Inv ∧ (endpoint s).Dead →
      ¬ (apply s op).2.Succeeds ∧
        (endpoint (apply s op).1).Inv ∧ (endpoint (apply s op).1).Dead) :
    Lawful endpoint exportOscore apply finishes s where
  completed_iff := hinv.completed_iff
  complete_of_export context h :=
    hinv.completed_iff.mp (hexport context h)
  finishes_of_complete := hfinishes
  secret h := by
    obtain ⟨secret, hsome⟩ := Option.ne_none_iff_exists'.mp h
    have hbudget := hinv.budget_le
    rw [Endpoint.budget_of_some hsome] at hbudget
    exact ⟨by omega, hinv.secret h⟩
  agreements_le := (Nat.le_add_right _ _).trans hinv.budget_le
  wiped := hinv.dead
  refuses h ops := History.forall_replies hdead ⟨hinv, h⟩ ops

namespace EdhocInitiator

variable {self : EdhocInitiator}

/-- Every handshake call comes out of turn. -/
def Idle (initiator : EdhocInitiator) : Prop :=
  initiator.lifecycle ≠ .created ∧ initiator.lifecycle ≠ .message1Created ∧
    initiator.lifecycle ≠ .pendingMessage2

theorem idle_of_dead (h : self.Dead) : self.Idle := by
  rcases h with h | h <;> simp [Idle, h]

theorem createMessage1_refused (h : self.Idle) :
    Refused EdhocInitiator.createMessage1 self :=
  (createMessage1_meets self).mono (fun _ _ hok => h.1 hok.1) fun _ ht => ht

theorem beginProcessMessage2_refused (h : self.Idle) (msg2 : Bytes) :
    Refused (EdhocInitiator.beginProcessMessage2 X msg2) self := by
  refine (beginProcessMessage2_meets self msg2).mono ?_ ?_
  · rintro _ _ ⟨_, _, hlifecycle, -⟩
    exact h.2.1 hlifecycle
  · rintro _ (ht | ⟨hlifecycle, -⟩)
    · exact ht
    · exact absurd hlifecycle h.2.1

theorem finishProcessMessage2_refused (h : self.Idle)
    (pending : PendingMessage2 X) (peer : PeerCredential) :
    Refused (EdhocInitiator.finishProcessMessage2 X pending peer) self := by
  refine (finishProcessMessage2_meets self pending peer).mono ?_ ?_
  · exact fun _ _ hok => h.2.2 hok.1
  · rintro _ (ht | ⟨hlifecycle, -⟩)
    · exact ht
    · exact absurd hlifecycle h.2.2

theorem processMessage2WithCredential_refused (h : self.Idle) (msg2 : Bytes)
    (peer : PeerCredential) :
    Refused (EdhocInitiator.processMessage2WithCredential X msg2 peer) self :=
  (beginProcessMessage2_refused h msg2).bind fun _ _ hfalse => hfalse.elim

theorem processMessage2_refused (h : self.Idle) (msg2 : Bytes)
    (peerPubkey : Bytes32) :
    Refused (EdhocInitiator.processMessage2 X msg2 peerPubkey) self := by
  obtain ⟨idCred, credential, hraw, -⟩ := exists_rawKeyCredential X peerPubkey
  rw [processMessage2_eq hraw]
  exact processMessage2WithCredential_refused h msg2 _

/-- A handshake call out of turn is refused and leaves no trace. -/
theorem refuses (h : self.Idle) (op : Op X) (hop : op ≠ .zeroize) :
    self.step X op = self ∧
      (op ≠ .exportOscore → ¬ (self.apply X op).2.Succeeds) := by
  cases op with
  | createMessage1 =>
      exact (refused_answer (createMessage1_refused h)).imp id fun hno _ => hno
  | beginProcessMessage2 msg2 =>
      exact (refused_answer (beginProcessMessage2_refused h msg2)).imp id
        fun hno _ => hno
  | finishProcessMessage2 pending peer =>
      exact (refused_answer (finishProcessMessage2_refused h pending peer)).imp
        id fun hno _ => hno
  | processMessage2WithCredential msg2 peer =>
      exact (refused_answer
        (processMessage2WithCredential_refused h msg2 peer)).imp id
          fun hno _ => hno
  | processMessage2 msg2 peerPubkey =>
      exact (refused_answer (processMessage2_refused h msg2 peerPubkey)).imp id
        fun hno _ => hno
  | exportOscore => exact ⟨rfl, fun hne => absurd rfl hne⟩
  | zeroize => exact absurd rfl hop

/-- An export needs the completed flag. -/
theorem completed_of_export {context : Context X.toCrypto}
    (h : self.exportOscore X = .ok context) : self.completed = true := by
  rw [EdhocInitiator.exportOscore, Outcome.bind_eq_ok] at h
  obtain ⟨_, hcheck, -⟩ := h
  simpa using (not_or.mp (failIf_eq_ok.mp hcheck)).1

/-- Once it is wiped, an initiator stays so and refuses everything. -/
theorem dead_apply (hinv : self.Inv) (hdead : self.Dead) (op : Op X) :
    ¬ (self.apply X op).2.Succeeds ∧
      (self.step X op).Inv ∧ (self.step X op).Dead := by
  have hnext : (self.step X op).Inv := hinv.reaches (step_reaches self op)
  have hno : ∀ context, self.exportOscore X ≠ .ok context := by
    intro context h
    have hcomplete := hinv.completed_iff.mp (completed_of_export h)
    rcases hdead with h | h <;> rw [h] at hcomplete <;> cases hcomplete
  cases hop : op with
  | zeroize => exact ⟨fun h => h, hop ▸ hnext, .inr rfl⟩
  | exportOscore =>
      exact ⟨fun ⟨context, h⟩ => hno context h, hop ▸ hnext, hdead⟩
  | _ =>
      obtain ⟨hstep, hfails⟩ :=
        refuses (idle_of_dead hdead) op (by rw [hop]; simp)
      rw [← hop, hstep]
      exact ⟨hfails (by rw [hop]; simp), hinv, hdead⟩

/-- The operation runs `finish_process_message_2`, on this pending value and in
this state. -/
inductive Runs (self : EdhocInitiator) : Op X → PendingMessage2 X →
    PeerCredential → EdhocInitiator → Prop
  | finish (pending : PendingMessage2 X) (peer : PeerCredential) :
      Runs self (.finishProcessMessage2 pending peer) pending peer self
  | process {msg2 : Bytes} {pending : PendingMessage2 X}
      {before : EdhocInitiator} (peer : PeerCredential)
      (h : (EdhocInitiator.beginProcessMessage2 X msg2).run self =
        .ok pending before) :
      Runs self (.processMessage2WithCredential msg2 peer) pending peer before
  | processRaw {msg2 : Bytes} {pending : PendingMessage2 X}
      {before : EdhocInitiator} {peerPubkey : Bytes32} {idCred : HVec 40}
      {credential : HVec 80}
      (hraw : rawKeyCredential X peerPubkey = .ok (idCred, credential))
      (h : (EdhocInitiator.beginProcessMessage2 X msg2).run self =
        .ok pending before) :
      Runs self (.processMessage2 msg2 peerPubkey) pending
        ⟨peerPubkey, idCred.toList, credential.toList⟩ before

theorem processMessage2WithCredential_meets
    (h : self.lifecycle ≠ .complete) (msg2 : Bytes) (peer : PeerCredential) :
    (EdhocInitiator.processMessage2WithCredential X msg2 peer).Meets self
      (fun _ t => ∃ pending before,
        (EdhocInitiator.beginProcessMessage2 X msg2).run self =
            .ok pending before ∧ before.Finishes X pending peer t)
      (fun t => t.lifecycle ≠ .complete) := by
  refine ((beginProcessMessage2_meets self msg2).returned.mono
    (fun _ _ hok => hok) ?_).bind ?_
  · rintro t (rfl | ⟨-, hpoisoned, -⟩)
    · exact h
    · simp [hpoisoned.lifecycle]
  · rintro pending _ ⟨hbegin, _, _, -, -, -, -, rfl⟩
    refine (finishProcessMessage2_meets _ pending peer).mono ?_ ?_
    · exact fun _ _ hfinish => ⟨pending, _, hbegin, hfinish⟩
    · rintro t (rfl | ⟨-, hpoisoned⟩)
      · simp [opened]
      · simp [hpoisoned.lifecycle]

/-- A session gets complete only where a pending value of its own is finished
under a verified signature. -/
theorem finishes_of_complete (h : self.lifecycle ≠ .complete) {op : Op X}
    (hcomplete : (self.step X op).lifecycle = .complete) :
    ∃ pending peer before, self.Runs op pending peer before ∧
      before.Finishes X pending peer (self.step X op) := by
  cases op with
  | createMessage1 =>
      rcases (createMessage1_meets self).ends with
        ⟨_, -, -, -, -, ht⟩ | ⟨_, -, ht⟩ <;>
      · have hstep := congrArg (·.lifecycle) ht
        exact absurd (hstep.symm.trans hcomplete) (by simp [h])
  | beginProcessMessage2 msg2 =>
      rcases (beginProcessMessage2_meets (X := X) self msg2).ends with
        ⟨_, -, -, _, _, -, -, -, -, ht⟩ | ⟨_, -, ht | ⟨-, hpoisoned, -⟩⟩
      · have hstep := congrArg (·.lifecycle) ht
        exact absurd (hstep.symm.trans hcomplete) (by simp [opened])
      · have hstep := congrArg (·.lifecycle) ht
        exact absurd (hstep.symm.trans hcomplete) h
      · exact absurd (hpoisoned.lifecycle.symm.trans hcomplete) (by simp)
  | finishProcessMessage2 pending peer =>
      rcases (finishProcessMessage2_meets self pending peer).ends with
        ⟨_, -, -, hfinish⟩ | ⟨_, -, ht | ⟨-, hpoisoned⟩⟩
      · exact ⟨pending, peer, self, .finish pending peer, hfinish⟩
      · have hstep := congrArg (·.lifecycle) ht
        exact absurd (hstep.symm.trans hcomplete) h
      · exact absurd (hpoisoned.lifecycle.symm.trans hcomplete) (by simp)
  | processMessage2WithCredential msg2 peer =>
      rcases (processMessage2WithCredential_meets h msg2 peer).ends with
        ⟨_, -, -, pending, before, hbegin, hfinish⟩ | ⟨_, -, hfail⟩
      · exact ⟨pending, peer, before, .process peer hbegin, hfinish⟩
      · exact absurd hcomplete hfail
  | processMessage2 msg2 peerPubkey =>
      obtain ⟨idCred, credential, hraw, -⟩ :=
        exists_rawKeyCredential X peerPubkey
      have hmeets := processMessage2WithCredential_meets (X := X) h msg2
        ⟨peerPubkey, idCred.toList, credential.toList⟩
      rw [← processMessage2_eq hraw] at hmeets
      rcases hmeets.ends with
        ⟨_, -, -, pending, before, hbegin, hfinish⟩ | ⟨_, -, hfail⟩
      · exact ⟨pending, _, before, .processRaw hraw hbegin, hfinish⟩
      · exact absurd hcomplete hfail
  | exportOscore => exact absurd hcomplete h
  | zeroize =>
      have hzeroized : (self.step X .zeroize).lifecycle = .zeroized := rfl
      rw [hzeroized] at hcomplete
      cases hcomplete

theorem inv_run (seed ephSeed : Bytes32) (cI : ConnectionId)
    (ops : List (Op X)) :
    (History.run (step X) (new X seed ephSeed cI) ops).Inv := by
  have hstep : ∀ (s : EdhocInitiator) (op : Op X), s.Inv → (s.step X op).Inv :=
    fun s op hinv => hinv.reaches (step_reaches s op)
  exact History.invariant hstep (Endpoint.inv_new X seed ephSeed) ops

end EdhocInitiator

namespace EdhocResponder

variable {self : EdhocResponder}

/-- Every handshake call comes out of turn. -/
def Idle (responder : EdhocResponder) : Prop :=
  responder.lifecycle ≠ .created ∧ responder.lifecycle ≠ .awaitingMessage3 ∧
    responder.lifecycle ≠ .pendingMessage3

theorem idle_of_dead (h : self.Dead) : self.Idle := by
  rcases h with h | h <;> simp [Idle, h]

theorem processMessage1_refused (h : self.Idle) (msg1 : Bytes) :
    Refused (EdhocResponder.processMessage1 X msg1) self := by
  refine (processMessage1_meets self msg1).mono ?_ ?_
  · rintro _ _ ⟨_, _, _, _, _, hlifecycle, -⟩
    exact h.1 hlifecycle
  · rintro _ (ht | ⟨hlifecycle, -⟩)
    · exact ht
    · exact absurd hlifecycle h.1

theorem beginProcessMessage3_refused (h : self.Idle) (msg3 : Bytes) :
    Refused (EdhocResponder.beginProcessMessage3 X msg3) self := by
  refine (beginProcessMessage3_meets self msg3).mono ?_ ?_
  · exact fun _ _ hok => h.2.1 hok.1
  · rintro _ (ht | ⟨hlifecycle, -⟩)
    · exact ht
    · exact absurd hlifecycle h.2.1

theorem processMessage3WithCredential_refused (h : self.Idle) (msg3 : Bytes)
    (peer : PeerCredential) :
    Refused (EdhocResponder.processMessage3WithCredential X msg3 peer) self :=
  (beginProcessMessage3_refused h msg3).bind fun _ _ hfalse => hfalse.elim

theorem processMessage3_refused (h : self.Idle) (msg3 : Bytes)
    (peerPubkey : Bytes32) :
    Refused (EdhocResponder.processMessage3 X msg3 peerPubkey) self := by
  obtain ⟨idCred, credential, hraw, -⟩ := exists_rawKeyCredential X peerPubkey
  rw [processMessage3_eq hraw]
  exact processMessage3WithCredential_refused h msg3 _

/-- Out of turn, the finishing call wipes the state. -/
theorem finishProcessMessage3_poisons (h : self.Idle)
    (pending : PendingMessage3 X) (peer : PeerCredential) :
    (EdhocResponder.finishProcessMessage3 X pending peer).Meets self
      (fun _ _ => False) (fun t => self.Poisoned t.toEndpoint) :=
  (finishProcessMessage3_meets self pending peer).mono
    (fun _ _ hok => h.2.2 hok.1) fun _ ht => ht

/-- The operation is a call of `finish_process_message_3` itself. -/
def Op.IsFinish : Op X → Prop
  | .finishProcessMessage3 _ _ => True
  | _ => False

/-- Any other handshake call out of turn is refused and leaves no trace. -/
theorem refuses (h : self.Idle) (op : Op X) (hop : op ≠ .zeroize)
    (hfinish : ¬ op.IsFinish) :
    self.step X op = self ∧
      (op ≠ .exportOscore → ¬ (self.apply X op).2.Succeeds) := by
  cases op with
  | processMessage1 msg1 =>
      exact (refused_answer (processMessage1_refused h msg1)).imp id
        fun hno _ => hno
  | beginProcessMessage3 msg3 =>
      exact (refused_answer (beginProcessMessage3_refused h msg3)).imp id
        fun hno _ => hno
  | finishProcessMessage3 pending peer => exact absurd trivial hfinish
  | processMessage3WithCredential msg3 peer =>
      exact (refused_answer
        (processMessage3WithCredential_refused h msg3 peer)).imp id
          fun hno _ => hno
  | processMessage3 msg3 peerPubkey =>
      exact (refused_answer (processMessage3_refused h msg3 peerPubkey)).imp id
        fun hno _ => hno
  | exportOscore => exact ⟨rfl, fun hne => absurd rfl hne⟩
  | zeroize => exact absurd rfl hop

theorem finish_apply (h : self.Idle) {op : Op X} (hfinish : op.IsFinish) :
    self.Poisoned (self.step X op).toEndpoint ∧
      ¬ (self.apply X op).2.Succeeds := by
  cases op with
  | finishProcessMessage3 pending peer =>
      have hmeets := finishProcessMessage3_poisons h pending peer
      have hafter : Meets
          (EdhocResponder.finishProcessMessage3 X pending peer) self
          (fun _ t => self.Poisoned t.toEndpoint)
          (fun t => self.Poisoned t.toEndpoint) :=
        hmeets.mono (fun _ _ hfalse => hfalse.elim) fun _ ht => ht
      exact ⟨hafter.after, not_ok_of_meets hmeets⟩
  | _ => exact hfinish.elim

/-- An export needs the completed flag. -/
theorem completed_of_export {context : Context X.toCrypto}
    (h : self.exportOscore X = .ok context) : self.completed = true := by
  rw [EdhocResponder.exportOscore, Outcome.bind_eq_ok] at h
  obtain ⟨_, hcheck, -⟩ := h
  simpa using (not_or.mp (failIf_eq_ok.mp hcheck)).1

/-- Once it is wiped, a responder stays so and refuses everything. -/
theorem dead_apply (hinv : self.Inv) (hdead : self.Dead) (op : Op X) :
    ¬ (self.apply X op).2.Succeeds ∧
      (self.step X op).Inv ∧ (self.step X op).Dead := by
  have hnext : (self.step X op).Inv := hinv.reaches (step_reaches self op)
  have hidle := idle_of_dead hdead
  by_cases hfinish : op.IsFinish
  · obtain ⟨hpoisoned, hno⟩ := finish_apply hidle hfinish
    exact ⟨hno, hnext, .inl hpoisoned.lifecycle⟩
  have hno : ∀ context, self.exportOscore X ≠ .ok context := by
    intro context h
    have hcomplete := hinv.completed_iff.mp (completed_of_export h)
    rcases hdead with h | h <;> rw [h] at hcomplete <;> cases hcomplete
  cases hop : op with
  | zeroize => exact ⟨fun h => h, hop ▸ hnext, .inr rfl⟩
  | exportOscore =>
      exact ⟨fun ⟨context, h⟩ => hno context h, hop ▸ hnext, hdead⟩
  | _ =>
      obtain ⟨hstep, hfails⟩ := refuses hidle op (by rw [hop]; simp) hfinish
      rw [← hop, hstep]
      exact ⟨hfails (by rw [hop]; simp), hinv, hdead⟩

/-- The operation runs `finish_process_message_3`, on this pending value and in
this state. -/
inductive Runs (self : EdhocResponder) : Op X → PendingMessage3 X →
    PeerCredential → EdhocResponder → Prop
  | finish (pending : PendingMessage3 X) (peer : PeerCredential) :
      Runs self (.finishProcessMessage3 pending peer) pending peer self
  | process {msg3 : Bytes} {pending : PendingMessage3 X}
      {before : EdhocResponder} (peer : PeerCredential)
      (h : (EdhocResponder.beginProcessMessage3 X msg3).run self =
        .ok pending before) :
      Runs self (.processMessage3WithCredential msg3 peer) pending peer before
  | processRaw {msg3 : Bytes} {pending : PendingMessage3 X}
      {before : EdhocResponder} {peerPubkey : Bytes32} {idCred : HVec 40}
      {credential : HVec 80}
      (hraw : rawKeyCredential X peerPubkey = .ok (idCred, credential))
      (h : (EdhocResponder.beginProcessMessage3 X msg3).run self =
        .ok pending before) :
      Runs self (.processMessage3 msg3 peerPubkey) pending
        ⟨peerPubkey, idCred.toList, credential.toList⟩ before

theorem processMessage3WithCredential_meets
    (h : self.lifecycle ≠ .complete) (msg3 : Bytes) (peer : PeerCredential) :
    (EdhocResponder.processMessage3WithCredential X msg3 peer).Meets self
      (fun _ t => ∃ pending before,
        (EdhocResponder.beginProcessMessage3 X msg3).run self =
            .ok pending before ∧ before.Finishes X pending peer t)
      (fun t => t.lifecycle ≠ .complete) := by
  refine ((beginProcessMessage3_meets self msg3).returned.mono
    (fun _ _ hok => hok) ?_).bind ?_
  · rintro t (rfl | ⟨-, hpoisoned⟩)
    · exact h
    · simp [hpoisoned.lifecycle]
  · rintro pending before ⟨hbegin, -⟩
    refine (finishProcessMessage3_meets _ pending peer).mono ?_ ?_
    · exact fun _ _ hfinish => ⟨pending, before, hbegin, hfinish⟩
    · exact fun t hpoisoned => by simp [hpoisoned.lifecycle]

/-- A session gets complete only where a pending value of its own is finished
under a verified signature. -/
theorem finishes_of_complete (h : self.lifecycle ≠ .complete) {op : Op X}
    (hcomplete : (self.step X op).lifecycle = .complete) :
    ∃ pending peer before, self.Runs op pending peer before ∧
      before.Finishes X pending peer (self.step X op) := by
  cases op with
  | processMessage1 msg1 =>
      rcases (processMessage1_meets (X := X) self msg1).ends with
        ⟨_, -, -, _, _, _, _, _, -, -, -, -, -, -, ht⟩ |
          ⟨_, -, ht | ⟨-, ⟨_, ht⟩ | ⟨hpoisoned, -⟩⟩⟩
      · have hstep := congrArg (·.lifecycle) ht
        exact absurd (hstep.symm.trans hcomplete) (by simp [answered])
      · have hstep := congrArg (·.lifecycle) ht
        exact absurd (hstep.symm.trans hcomplete) h
      · have hstep := congrArg (·.lifecycle) ht
        exact absurd (hstep.symm.trans hcomplete) h
      · exact absurd (hpoisoned.lifecycle.symm.trans hcomplete) (by simp)
  | beginProcessMessage3 msg3 =>
      rcases (beginProcessMessage3_meets (X := X) self msg3).ends with
        ⟨_, -, -, -, -, ht⟩ | ⟨_, -, ht | ⟨-, hpoisoned⟩⟩
      · have hstep := congrArg (·.lifecycle) ht
        exact absurd (hstep.symm.trans hcomplete) (by simp)
      · have hstep := congrArg (·.lifecycle) ht
        exact absurd (hstep.symm.trans hcomplete) h
      · exact absurd (hpoisoned.lifecycle.symm.trans hcomplete) (by simp)
  | finishProcessMessage3 pending peer =>
      rcases (finishProcessMessage3_meets self pending peer).ends with
        ⟨_, -, -, hfinish⟩ | ⟨_, -, hpoisoned⟩
      · exact ⟨pending, peer, self, .finish pending peer, hfinish⟩
      · exact absurd (hpoisoned.lifecycle.symm.trans hcomplete) (by simp)
  | processMessage3WithCredential msg3 peer =>
      rcases (processMessage3WithCredential_meets h msg3 peer).ends with
        ⟨_, -, -, pending, before, hbegin, hfinish⟩ | ⟨_, -, hfail⟩
      · exact ⟨pending, peer, before, .process peer hbegin, hfinish⟩
      · exact absurd hcomplete hfail
  | processMessage3 msg3 peerPubkey =>
      obtain ⟨idCred, credential, hraw, -⟩ :=
        exists_rawKeyCredential X peerPubkey
      have hmeets := processMessage3WithCredential_meets (X := X) h msg3
        ⟨peerPubkey, idCred.toList, credential.toList⟩
      rw [← processMessage3_eq hraw] at hmeets
      rcases hmeets.ends with
        ⟨_, -, -, pending, before, hbegin, hfinish⟩ | ⟨_, -, hfail⟩
      · exact ⟨pending, _, before, .processRaw hraw hbegin, hfinish⟩
      · exact absurd hcomplete hfail
  | exportOscore => exact absurd hcomplete h
  | zeroize =>
      have hzeroized : (self.step X .zeroize).lifecycle = .zeroized := rfl
      rw [hzeroized] at hcomplete
      cases hcomplete

theorem inv_run (seed ephSeed : Bytes32) (cR : UInt8) (ops : List (Op X)) :
    (History.run (step X) (new X seed ephSeed cR) ops).Inv := by
  have hstep : ∀ (s : EdhocResponder) (op : Op X), s.Inv → (s.step X op).Inv :=
    fun s op hinv => hinv.reaches (step_reaches s op)
  exact History.invariant hstep (Endpoint.inv_new X seed ephSeed) ops

end EdhocResponder

/-- In every state that any sequence of calls leads to, both roles obey the
law of the session. -/
theorem session_lawful (X : Suite) (seed ephSeed : Bytes32) :
    (∀ cI ops, Lawful EdhocInitiator.toEndpoint
      (EdhocInitiator.exportOscore X) (EdhocInitiator.apply X)
      (fun self op other => ∃ pending peer before,
        self.Runs op pending peer before ∧
          before.Finishes X pending peer other)
      (History.run (EdhocInitiator.step X) (.new X seed ephSeed cI) ops)) ∧
    ∀ cR ops, Lawful EdhocResponder.toEndpoint
      (EdhocResponder.exportOscore X) (EdhocResponder.apply X)
      (fun self op other => ∃ pending peer before,
        self.Runs op pending peer before ∧
          before.Finishes X pending peer other)
      (History.run (EdhocResponder.step X) (.new X seed ephSeed cR) ops) := by
  constructor
  · intro cI ops
    refine lawful_of_inv (EdhocInitiator.inv_run seed ephSeed cI ops)
      (fun _ => EdhocInitiator.completed_of_export) ?_ ?_
    · exact fun op hne hcomplete =>
        EdhocInitiator.finishes_of_complete hne hcomplete
    · exact fun s op h => EdhocInitiator.dead_apply h.1 h.2 op
  · intro cR ops
    refine lawful_of_inv (EdhocResponder.inv_run seed ephSeed cR ops)
      (fun _ => EdhocResponder.completed_of_export) ?_ ?_
    · exact fun op hne hcomplete =>
        EdhocResponder.finishes_of_complete hne hcomplete
    · exact fun s op h => EdhocResponder.dead_apply h.1 h.2 op

/-! A complete session. -/

namespace EdhocInitiator

theorem idle_of_complete {self : EdhocInitiator}
    (h : self.lifecycle = .complete) : self.Idle := by
  simp [Idle, h]

/-- Along the calls the session stays complete and exports the same. -/
def KeptBy (initiator : EdhocInitiator) (ops : List (Op X)) : Prop :=
  ∀ done, done <+: ops →
    (History.run (step X) initiator done).lifecycle = .complete ∧
      (History.run (step X) initiator done).exportOscore X =
        initiator.exportOscore X

theorem keptBy_iff {self : EdhocInitiator} (h : self.lifecycle = .complete)
    (ops : List (Op X)) : self.KeptBy ops ↔ ∀ op ∈ ops, op ≠ .zeroize := by
  have hstep : ∀ (s : EdhocInitiator) (op : Op X), True →
      (s.lifecycle = .complete ∧ s.exportOscore X = self.exportOscore X) →
      ((s.step X op).lifecycle = .complete ∧
        (s.step X op).exportOscore X = self.exportOscore X ↔
          op ≠ .zeroize) := by
    rintro s op - hkept
    by_cases hop : op = .zeroize
    · subst hop
      refine iff_of_false ?_ (not_not.mpr rfl)
      rintro ⟨hcomplete, -⟩
      cases hcomplete
    · rw [(refuses (idle_of_complete hkept.1) op hop).1]
      exact iff_of_true hkept hop
  exact (History.forall_prefix_iff_guarded (fun _ _ _ => trivial) hstep
    trivial ⟨h, rfl⟩ ops).trans (History.guarded_iff_forall _ _ _ _)

end EdhocInitiator

namespace EdhocResponder

theorem idle_of_complete {self : EdhocResponder}
    (h : self.lifecycle = .complete) : self.Idle := by
  simp [Idle, h]

/-- Along the calls the session stays complete and exports the same. -/
def KeptBy (responder : EdhocResponder) (ops : List (Op X)) : Prop :=
  ∀ done, done <+: ops →
    (History.run (step X) responder done).lifecycle = .complete ∧
      (History.run (step X) responder done).exportOscore X =
        responder.exportOscore X

theorem keptBy_iff {self : EdhocResponder} (h : self.lifecycle = .complete)
    (ops : List (Op X)) :
    self.KeptBy ops ↔ ∀ op ∈ ops, op ≠ .zeroize ∧ ¬ op.IsFinish := by
  have hstep : ∀ (s : EdhocResponder) (op : Op X), True →
      (s.lifecycle = .complete ∧ s.exportOscore X = self.exportOscore X) →
      ((s.step X op).lifecycle = .complete ∧
        (s.step X op).exportOscore X = self.exportOscore X ↔
          op ≠ .zeroize ∧ ¬ op.IsFinish) := by
    rintro s op - hkept
    have hidle := idle_of_complete hkept.1
    by_cases hop : op = .zeroize
    · subst hop
      refine iff_of_false ?_ fun hne => hne.1 rfl
      rintro ⟨hcomplete, -⟩
      cases hcomplete
    by_cases hfinish : op.IsFinish
    · refine iff_of_false ?_ fun hne => hne.2 hfinish
      rintro ⟨hcomplete, -⟩
      rw [(finish_apply hidle hfinish).1.lifecycle] at hcomplete
      cases hcomplete
    · rw [(refuses hidle op hop hfinish).1]
      exact iff_of_true hkept ⟨hop, hfinish⟩
  exact (History.forall_prefix_iff_guarded (fun _ _ _ => trivial) hstep
    trivial ⟨h, rfl⟩ ops).trans (History.guarded_iff_forall _ _ _ _)

end EdhocResponder

/-- A complete session is kept by all calls but `zeroize` and, on the side of
the responder, `finish_process_message_3`. -/
theorem complete_session_kept_iff (X : Suite) :
    (∀ initiator : EdhocInitiator, initiator.lifecycle = .complete →
      ∀ ops : List (EdhocInitiator.Op X),
        initiator.KeptBy ops ↔ ∀ op ∈ ops, op ≠ .zeroize) ∧
    ∀ responder : EdhocResponder, responder.lifecycle = .complete →
      ∀ ops : List (EdhocResponder.Op X),
        responder.KeptBy ops ↔ ∀ op ∈ ops, op ≠ .zeroize ∧ ¬ op.IsFinish :=
  ⟨fun _ => EdhocInitiator.keptBy_iff, fun _ => EdhocResponder.keptBy_iff⟩

/-- The messages of the stand-in handshake. -/
def standInMessages : HVec 64 × HVec 160 × HVec 128 :=
  (outcome (handshake .standIn) standInParties).toOption.get (by
    decide +kernel)

/-- Message 2 of the stand-in handshake, as the initiator opens it. -/
def standInPending2 : PendingMessage2 .standIn :=
  (outcome (EdhocInitiator.beginProcessMessage2 .standIn
    standInMessages.2.1.toList)
    (standInParties.1.step .standIn .createMessage1)).toOption.get (by
      decide +kernel)

/-- The responder of the stand-in handshake with message 3 still to come. -/
def standInAwaiting : EdhocResponder :=
  EdhocResponder.step .standIn standInParties.2
    (.processMessage1 standInMessages.1.toList)

def standInPending : PendingMessage3 .standIn :=
  (outcome (EdhocResponder.beginProcessMessage3 .standIn
    standInMessages.2.2.toList) standInAwaiting).toOption.get (by
      decide +kernel)

/-- The initiator of the stand-in handshake, as the responder knows it. -/
def standInPeer : PeerCredential :=
  .raw .standIn standInParties.1.pubkey

theorem complete_session_kept_iff_standIn :
    let parties := after (handshake .standIn) standInParties
    parties.1.KeptBy (X := .standIn) [.createMessage1,
        .beginProcessMessage2 [0xFF], .finishProcessMessage2 standInPending2
          (.raw .standIn standInParties.2.pubkey), .exportOscore] ∧
      parties.2.KeptBy (X := .standIn) [.processMessage1 [0xFF],
        .beginProcessMessage3 standInMessages.2.2.toList,
        .processMessage3 [0xFF] standInParties.1.pubkey, .exportOscore] ∧
      ¬ parties.2.KeptBy (X := .standIn) [.processMessage1 [0xFF],
        .finishProcessMessage3 standInPending standInPeer] := by
  have hkept := complete_session_kept_iff .standIn
  refine ⟨(hkept.1 _ (by decide +kernel) _).mpr (by simp),
    (hkept.2 _ (by decide +kernel) _).mpr
      (by simp [EdhocResponder.Op.IsFinish]), fun hlost => ?_⟩
  exact ((hkept.2 _ (by decide +kernel) _).mp hlost _ (.tail _ (.head _))).2
    trivial

/-- A pending value that is finished a second time ends a complete session. -/
theorem stale_pending_loses_session :
    ∃ ops : List (EdhocResponder.Op .standIn),
      let complete :=
        History.run (EdhocResponder.step .standIn) standInParties.2 ops
      let again : EdhocResponder.Op .standIn :=
        .finishProcessMessage3 standInPending standInPeer
      .pending3 (.ok standInPending) ∈ History.replies
          (EdhocResponder.apply .standIn) standInParties.2 ops ∧
        complete.lifecycle = .complete ∧
        (complete.exportOscore .standIn).isOk = true ∧
        (complete.step .standIn again).lifecycle = .failed ∧
        (complete.step .standIn again).exportOscore .standIn =
          .error (.err .noContext) ∧
        ¬ complete.KeptBy [again] := by
  have hpending : outcome (EdhocResponder.beginProcessMessage3 .standIn
      standInMessages.2.2.toList) standInAwaiting = .ok standInPending :=
    Outcome.eq_ok_get _
  refine ⟨[.processMessage1 standInMessages.1.toList,
    .beginProcessMessage3 standInMessages.2.2.toList,
    .finishProcessMessage3 standInPending standInPeer], ?_⟩
  intro complete again
  have hcomplete : complete.lifecycle = .complete := by decide +kernel
  have hidle := EdhocResponder.idle_of_complete hcomplete
  have hfinish : again.IsFinish := trivial
  have hpoisoned := (EdhocResponder.finish_apply hidle hfinish).1
  refine ⟨?_, hcomplete, by decide +kernel, hpoisoned.lifecycle, ?_, ?_⟩
  · rw [← hpending]
    exact .tail _ (.head _)
  · rw [EdhocResponder.exportOscore, failIf,
      if_pos (.inl hpoisoned.wiped.completed)]
    rfl
  · intro hkept
    exact ((EdhocResponder.keptBy_iff hcomplete _).mp hkept again
      (.head _)).2 trivial

/-! Failures. -/

theorem agree_answer {σ α : Type} {related : σ → σ → Prop}
    {call : Call σ EdhocError α} {s t : σ}
    (wrap : Outcome EdhocError α → Reply X)
    (h : Agree related call call s t) :
    (answer call wrap s).2 = (answer call wrap t).2 ∧
      related (answer call wrap s).1 (answer call wrap t).1 :=
  ⟨congrArg wrap h.1, h.2⟩

/-- The object is wiped, and every later call fails. -/
def Lost {σ ω : Type} (endpoint : σ → Endpoint) (apply : σ → ω → σ × Reply X)
    (s : σ) : Prop :=
  (endpoint s).lifecycle = .failed ∧ (endpoint s).Wiped ∧
    ∀ ops, ∀ reply ∈ History.replies apply s ops, ¬ reply.Succeeds

/-- Every later sequence of calls returns the same from both states. -/
def Unobservable {σ ω : Type} (apply : σ → ω → σ × Reply X) (s t : σ) :
    Prop :=
  ∀ ops, History.replies apply t ops = History.replies apply s ops

namespace EdhocResponder

/-- The states differ at most in `g_x`, which nothing reads. -/
def SameButGX (responder other : EdhocResponder) : Prop :=
  ∃ gX, other = { responder with gX }

theorem sameButGX_refl (self : EdhocResponder) : self.SameButGX self :=
  ⟨self.gX, rfl⟩

theorem sameButGX_poison {self other : EdhocResponder}
    (h : self.SameButGX other) : self.poison.SameButGX other.poison := by
  obtain ⟨gX, rfl⟩ := h
  exact ⟨zeros 32, rfl⟩

theorem processMessage1_agree {self other : EdhocResponder}
    (h : self.SameButGX other) (msg1 : Bytes) :
    Agree SameButGX (EdhocResponder.processMessage1 X msg1)
      (EdhocResponder.processMessage1 X msg1) self other := by
  obtain ⟨gX, rfl⟩ := h
  refine Agree.get_bind (Agree.check_bind _ ⟨gX, rfl⟩ fun _ => ?_)
  refine Agree.check_bind _ ⟨gX, rfl⟩ fun storedMsg1 => ?_
  refine Agree.check_bind _ ⟨gX, rfl⟩ fun ⟨gX, start⟩ => ?_
  refine Agree.modify_bind ?_
  refine Agree.check_bind _ ⟨gX, rfl⟩ fun rest => ?_
  refine Agree.check_bind _ ⟨gX, rfl⟩ fun cI => ?_
  refine Agree.ite ?_ ?_
  · exact Agree.modify_bind (Agree.throw _ (sameButGX_poison ⟨gX, rfl⟩))
  refine Agree.check_bind _ ⟨gX, rfl⟩ fun secret => ?_
  refine Agree.modify_bind (Agree.onErr ?_ fun _ _ => sameButGX_poison)
  exact ⟨rfl, sameButGX_refl _⟩

theorem openMessage3_agree {self other : EdhocResponder}
    (h : self.SameButGX other) (msg3 : Bytes) :
    Agree SameButGX (openMessage3 X msg3) (openMessage3 X msg3) self
      other := by
  obtain ⟨gX, rfl⟩ := h
  refine Agree.get_bind (Agree.check_bind _ ⟨gX, rfl⟩ fun plaintext3 => ?_)
  refine Agree.check_bind _ ⟨gX, rfl⟩ fun pending => ?_
  exact Agree.modify_bind (Agree.pure _ ⟨gX, rfl⟩)

theorem beginProcessMessage3_agree {self other : EdhocResponder}
    (h : self.SameButGX other) (msg3 : Bytes) :
    Agree SameButGX (EdhocResponder.beginProcessMessage3 X msg3)
      (EdhocResponder.beginProcessMessage3 X msg3) self other := by
  obtain ⟨gX, rfl⟩ := h
  refine Agree.get_bind (Agree.check_bind _ ⟨gX, rfl⟩ fun _ => ?_)
  exact Agree.onErr (openMessage3_agree ⟨gX, rfl⟩ msg3)
    fun _ _ => sameButGX_poison

theorem verifyMessage3_agree {self other : EdhocResponder}
    (h : self.SameButGX other) (pending : PendingMessage3 X)
    (peer : PeerCredential) :
    Agree SameButGX (verifyMessage3 X pending peer)
      (verifyMessage3 X pending peer) self other := by
  obtain ⟨gX, rfl⟩ := h
  refine Agree.get_bind (Agree.check_bind _ ⟨gX, rfl⟩ fun signature => ?_)
  refine Agree.modify_bind ?_
  refine Agree.check_bind _ ⟨gX, rfl⟩ fun verified => ?_
  refine Agree.check_bind _ ⟨gX, rfl⟩ fun th4 => ?_
  exact ⟨rfl, gX, rfl⟩

theorem finishProcessMessage3_agree {self other : EdhocResponder}
    (h : self.SameButGX other) (pending : PendingMessage3 X)
    (peer : PeerCredential) :
    Agree SameButGX (EdhocResponder.finishProcessMessage3 X pending peer)
      (EdhocResponder.finishProcessMessage3 X pending peer) self other := by
  obtain ⟨gX, rfl⟩ := h
  have hpoison : self.poison.SameButGX
      ({ self with gX } : EdhocResponder).poison :=
    sameButGX_poison ⟨gX, rfl⟩
  refine Agree.get_bind (Agree.ite ?_ (Agree.ite ?_ ?_))
  · exact Agree.modify_bind (Agree.throw _ hpoison)
  · exact Agree.modify_bind (Agree.throw _ hpoison)
  · exact Agree.onErr (verifyMessage3_agree ⟨gX, rfl⟩ pending peer)
      fun _ _ => sameButGX_poison

theorem processMessage3WithCredential_agree {self other : EdhocResponder}
    (h : self.SameButGX other) (msg3 : Bytes) (peer : PeerCredential) :
    Agree SameButGX
      (EdhocResponder.processMessage3WithCredential X msg3 peer)
      (EdhocResponder.processMessage3WithCredential X msg3 peer) self other :=
  (beginProcessMessage3_agree h msg3).bind fun pending _ _ hnext =>
    finishProcessMessage3_agree hnext pending peer

/-- No reply depends on `g_x`. -/
theorem apply_agree {self other : EdhocResponder} (op : Op X)
    (h : self.SameButGX other) :
    (self.apply X op).2 = (other.apply X op).2 ∧
      (self.apply X op).1.SameButGX (other.apply X op).1 := by
  cases op with
  | processMessage1 msg1 =>
      exact agree_answer _ (processMessage1_agree h msg1)
  | beginProcessMessage3 msg3 =>
      exact agree_answer _ (beginProcessMessage3_agree h msg3)
  | finishProcessMessage3 pending peer =>
      exact agree_answer _ (finishProcessMessage3_agree h pending peer)
  | processMessage3WithCredential msg3 peer =>
      exact agree_answer _ (processMessage3WithCredential_agree h msg3 peer)
  | processMessage3 msg3 peerPubkey =>
      obtain ⟨idCred, credential, hraw, -⟩ :=
        exists_rawKeyCredential X peerPubkey
      have hagree := processMessage3WithCredential_agree (X := X) h msg3
        ⟨peerPubkey, idCred.toList, credential.toList⟩
      rw [← processMessage3_eq hraw] at hagree
      exact agree_answer _ hagree
  | exportOscore =>
      obtain ⟨gX, rfl⟩ := h
      exact ⟨rfl, gX, rfl⟩
  | zeroize =>
      obtain ⟨gX, rfl⟩ := h
      exact ⟨rfl, zeros 32, rfl⟩

end EdhocResponder

namespace EdhocInitiator

/-- One of the calls that advance the handshake. -/
def Op.IsStep : Op X → Prop
  | .createMessage1 => True
  | .beginProcessMessage2 _ => True
  | .finishProcessMessage2 _ _ => True
  | _ => False

theorem lost_of_poisoned {self other : EdhocInitiator} (hinv : self.Inv)
    (h : self.Poisoned other.toEndpoint) :
    Lost toEndpoint (apply X) other := by
  have hother : other.Inv := hinv.transition (.poison h)
  have hstep : ∀ (s : EdhocInitiator) (op : Op X), s.Inv ∧ s.Dead →
      ¬ (s.apply X op).2.Succeeds ∧ (s.step X op).Inv ∧ (s.step X op).Dead :=
    fun s op hs => dead_apply hs.1 hs.2 op
  refine ⟨h.lifecycle, h.wiped, fun ops => ?_⟩
  exact History.forall_replies hstep ⟨hother, .inl h.lifecycle⟩ ops

/-- A failed call poisons the initiator, or leaves it as it was. -/
theorem failed_step {self : EdhocInitiator} {op : Op X} (hop : op.IsStep)
    (hfail : ¬ (self.apply X op).2.Succeeds) :
    self.step X op = self ∨ self.Poisoned (self.step X op).toEndpoint ∧
      ∀ msg2, op = .beginProcessMessage2 msg2 → msg2.head? = some 2 ∨
        (self.step X op).agreements = self.agreements + 1 := by
  cases op with
  | createMessage1 =>
      rcases (createMessage1_meets self).ends with
        ⟨value, hok, -⟩ | ⟨_, -, ht⟩
      · exact absurd ⟨value, hok⟩ hfail
      · exact .inl ht
  | beginProcessMessage2 msg2 =>
      rcases (beginProcessMessage2_meets (X := X) self msg2).ends with
        ⟨value, hok, -⟩ | ⟨_, -, ht | ⟨-, hpoisoned, hwhy⟩⟩
      · exact absurd ⟨value, hok⟩ hfail
      · exact .inl ht
      · refine .inr ⟨hpoisoned, ?_⟩
        rintro _ ⟨rfl⟩
        exact hwhy
  | finishProcessMessage2 pending peer =>
      rcases (finishProcessMessage2_meets self pending peer).ends with
        ⟨value, hok, -⟩ | ⟨_, -, ht | ⟨-, hpoisoned⟩⟩
      · exact absurd ⟨value, hok⟩ hfail
      · exact .inl ht
      · exact .inr ⟨hpoisoned, fun msg2 heq => by cases heq⟩
  | _ => exact hop.elim

end EdhocInitiator

namespace EdhocResponder

/-- One of the calls that advance the handshake. -/
def Op.IsStep : Op X → Prop
  | .processMessage1 _ => True
  | .beginProcessMessage3 _ => True
  | .finishProcessMessage3 _ _ => True
  | _ => False

theorem lost_of_poisoned {self other : EdhocResponder} (hinv : self.Inv)
    (h : self.Poisoned other.toEndpoint) :
    Lost toEndpoint (apply X) other := by
  have hother : other.Inv := hinv.transition (.poison h)
  have hstep : ∀ (s : EdhocResponder) (op : Op X), s.Inv ∧ s.Dead →
      ¬ (s.apply X op).2.Succeeds ∧ (s.step X op).Inv ∧ (s.step X op).Dead :=
    fun s op hs => dead_apply hs.1 hs.2 op
  refine ⟨h.lifecycle, h.wiped, fun ops => ?_⟩
  exact History.forall_replies hstep ⟨hother, .inl h.lifecycle⟩ ops

theorem unobservable_of_sameButGX {self other : EdhocResponder}
    (h : self.SameButGX other) : Unobservable (apply X) self other :=
  fun ops => (History.replies_eq_of_related
    (fun _ _ op hsame => apply_agree op hsame) h ops).symm

/-- A failed call poisons the responder, or leaves it as it was but for a field
that nothing reads. -/
theorem failed_step {self : EdhocResponder} {op : Op X} (hop : op.IsStep)
    (hfail : ¬ (self.apply X op).2.Succeeds) :
    self.SameButGX (self.step X op) ∨
      self.Poisoned (self.step X op).toEndpoint ∧
        ∀ msg1, op = .processMessage1 msg1 → self.SameIds msg1 ∨
          (self.step X op).agreements = self.agreements + 1 := by
  cases op with
  | processMessage1 msg1 =>
      rcases (processMessage1_meets (X := X) self msg1).ends with
        ⟨value, hok, -⟩ | ⟨_, -, ht | ⟨-, ht | ⟨hpoisoned, hwhy⟩⟩⟩
      · exact absurd ⟨value, hok⟩ hfail
      · exact .inl ⟨self.gX, ht⟩
      · exact .inl ht
      · refine .inr ⟨hpoisoned, ?_⟩
        rintro _ ⟨rfl⟩
        exact hwhy
  | beginProcessMessage3 msg3 =>
      rcases (beginProcessMessage3_meets (X := X) self msg3).ends with
        ⟨value, hok, -⟩ | ⟨_, -, ht | ⟨-, hpoisoned⟩⟩
      · exact absurd ⟨value, hok⟩ hfail
      · exact .inl ⟨self.gX, ht⟩
      · exact .inr ⟨hpoisoned, fun msg1 heq => by cases heq⟩
  | finishProcessMessage3 pending peer =>
      rcases (finishProcessMessage3_meets self pending peer).ends with
        ⟨value, hok, -⟩ | ⟨_, -, hpoisoned⟩
      · exact absurd ⟨value, hok⟩ hfail
      · exact .inr ⟨hpoisoned, fun msg1 heq => by cases heq⟩
  | _ => exact hop.elim

end EdhocResponder

/-- A failed call of the handshake loses the session or cannot be observed.  It
cannot be observed where it failed before the agreement, on anything but an
error message or an identifier the responder has itself. -/
theorem failure_all_or_nothing (X : Suite) (seed ephSeed : Bytes32) :
    (∀ (cI : ConnectionId) (ops : List (EdhocInitiator.Op X))
        (op : EdhocInitiator.Op X),
      let self := History.run (EdhocInitiator.step X)
        (EdhocInitiator.new X seed ephSeed cI) ops
      op.IsStep → ¬ (self.apply X op).2.Succeeds →
        (Lost EdhocInitiator.toEndpoint (EdhocInitiator.apply X)
            (self.step X op) ∨
          Unobservable (EdhocInitiator.apply X) self (self.step X op)) ∧
        ∀ msg2, op = .beginProcessMessage2 msg2 → msg2.head? ≠ some 2 →
          (self.step X op).agreements = self.agreements →
            Unobservable (EdhocInitiator.apply X) self (self.step X op)) ∧
    ∀ (cR : UInt8) (ops : List (EdhocResponder.Op X))
        (op : EdhocResponder.Op X),
      let self := History.run (EdhocResponder.step X)
        (EdhocResponder.new X seed ephSeed cR) ops
      op.IsStep → ¬ (self.apply X op).2.Succeeds →
        (Lost EdhocResponder.toEndpoint (EdhocResponder.apply X)
            (self.step X op) ∨
          Unobservable (EdhocResponder.apply X) self (self.step X op)) ∧
        ∀ msg1, op = .processMessage1 msg1 → ¬ self.SameIds msg1 →
          (self.step X op).agreements = self.agreements →
            Unobservable (EdhocResponder.apply X) self (self.step X op) := by
  constructor
  · intro cI ops op self hop hfail
    have hinv := EdhocInitiator.inv_run seed ephSeed cI ops
    rcases EdhocInitiator.failed_step hop hfail with hstep | ⟨hpoisoned, hwhy⟩
    · have hsame : Unobservable (EdhocInitiator.apply X) self
          (self.step X op) := fun _ => by rw [hstep]
      exact ⟨.inr hsame, fun _ _ _ _ => hsame⟩
    · refine ⟨.inl (EdhocInitiator.lost_of_poisoned hinv hpoisoned), ?_⟩
      intro msg2 hmsg2 hhead hagreements
      rcases hwhy msg2 hmsg2 with herror | hspent
      · exact absurd herror hhead
      · omega
  · intro cR ops op self hop hfail
    have hinv := EdhocResponder.inv_run seed ephSeed cR ops
    rcases EdhocResponder.failed_step hop hfail with hstep | ⟨hpoisoned, hwhy⟩
    · have hsame : Unobservable (EdhocResponder.apply X) self
          (self.step X op) := EdhocResponder.unobservable_of_sameButGX hstep
      exact ⟨.inr hsame, fun _ _ _ _ => hsame⟩
    · refine ⟨.inl (EdhocResponder.lost_of_poisoned hinv hpoisoned), ?_⟩
      intro msg1 hmsg1 hids hagreements
      rcases hwhy msg1 hmsg1 with hsame | hspent
      · exact absurd hsame hids
      · omega

/-- Message 1 of the stand-in handshake with a byte too many, which is rejected
behind `G_X`. -/
def standInTrailing : Bytes := standInMessages.1.toList ++ [0]

theorem failure_all_or_nothing_standIn :
    let initiator := standInParties.1.step .standIn .createMessage1
    let responder := standInParties.2.step .standIn
      (.processMessage1 standInTrailing)
    Unobservable (EdhocInitiator.apply .standIn) initiator
        (initiator.step .standIn (.beginProcessMessage2 [0xFF])) ∧
      responder.gX ≠ standInParties.2.gX ∧
      Unobservable (EdhocResponder.apply .standIn) standInParties.2
        responder := by
  have hinitiator : ¬ ((standInParties.1.step .standIn .createMessage1).apply
      .standIn (.beginProcessMessage2 [0xFF])).2.Succeeds :=
    mt Outcome.exists_ok_iff.mp (by decide +kernel)
  have hresponder : ¬ (standInParties.2.apply .standIn
      (.processMessage1 standInTrailing)).2.Succeeds :=
    mt Outcome.exists_ok_iff.mp (by decide +kernel)
  have hstart : (parseGX standInTrailing).map Prod.snd = .ok 36 := by
    decide +kernel
  have hrejected : (parseCI (standInTrailing.drop 36)).isOk = false := by
    decide +kernel
  have hids : ¬ standInParties.2.SameIds standInTrailing := by
    rintro ⟨gX, start, cI, hgX, hcI, -⟩
    rw [hgX] at hstart
    cases hstart
    rw [hcI] at hrejected
    cases hrejected
  exact ⟨((failure_all_or_nothing .standIn _ _).1 _ [.createMessage1]
      (.beginProcessMessage2 [0xFF]) trivial hinitiator).2 _ rfl (by decide)
        (by decide +kernel), by decide +kernel,
    ((failure_all_or_nothing .standIn _ _).2 _ []
      (.processMessage1 standInTrailing) trivial hresponder).2 _ rfl hids
        (by decide +kernel)⟩

/-- A malformed error message, and a message 1 with the identifier of the
responder, are rejected before the agreement; so is the valid message behind. -/
theorem rejected_message_ends_session :
    (let self := standInParties.1.step .standIn .createMessage1
      let malformed : EdhocInitiator.Op .standIn :=
        .beginProcessMessage2 [2, 0, 0]
      let valid : EdhocInitiator.Op .standIn :=
        .beginProcessMessage2 standInMessages.2.1.toList
      ¬ (self.apply .standIn malformed).2.Succeeds ∧
        (self.step .standIn malformed).agreements = self.agreements ∧
        (self.apply .standIn valid).2.Succeeds ∧
        ¬ ((self.step .standIn malformed).apply .standIn valid).2.Succeeds) ∧
    let self := standInParties.2
    let malformed : EdhocResponder.Op .standIn :=
      .processMessage1 (standInMessages.1.toList.dropLast ++ [1])
    let valid : EdhocResponder.Op .standIn :=
      .processMessage1 standInMessages.1.toList
    ¬ (self.apply .standIn malformed).2.Succeeds ∧
      (self.step .standIn malformed).agreements = self.agreements ∧
      (self.apply .standIn valid).2.Succeeds ∧
      ¬ ((self.step .standIn malformed).apply .standIn valid).2.Succeeds :=
  ⟨⟨mt Outcome.exists_ok_iff.mp (by decide +kernel), by decide +kernel,
      Outcome.exists_ok_iff.mpr (by decide +kernel),
      mt Outcome.exists_ok_iff.mp (by decide +kernel)⟩,
    mt Outcome.exists_ok_iff.mp (by decide +kernel), by decide +kernel,
    Outcome.exists_ok_iff.mpr (by decide +kernel),
    mt Outcome.exists_ok_iff.mp (by decide +kernel)⟩

end Oscore.Edhoc
