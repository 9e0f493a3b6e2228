/-
Each accepted message has a sent message of its own.  What a side accepts, the
other side encrypted before; and one encryption is accepted once, since the
windows tell apart whatever was encrypted under one key.
-/
import Oscore.Association

namespace Oscore

open Rust Rust.Call

/-- The message that an operation handed out. -/
def Event.received? : Event → Option Message
  | .gotRequest _ _ message => some message
  | .gotResponse _ message => some message
  | _ => none

namespace Record

variable {C : Crypto}

/-- The encryption that the call performed. -/
def made? (r : Record C) : Option Sealing :=
  r.session.sealing? r.action

/-- The encryption behind what the call accepted.  A committed response was
opened by an earlier call, on the same context. -/
def opened? (r : Record C) : Option Sealing :=
  match r.event with
  | some (.gotRequest oscoreOption ciphertext _) =>
      Session.opening? ⟨r.session.context, .free⟩
        (.unprotectRequest oscoreOption ciphertext)
  | some (.gotResponse call _) =>
      Session.opening? ⟨r.session.context, .free⟩ (.beginResponse call)
  | _ => none

/-- The call handed out a message. -/
def Accepts (r : Record C) : Prop :=
  ∃ event message, r.event = some event ∧ event.received? = some message

/-- The call `sent` of the other side released what this call handed out, as
the same kind of message and for the same request. -/
inductive DeliveredFrom (start : Side → Context C) (r sent : Record C) :
    Prop where
  | request (oscoreOption ciphertext : Bytes) (message : Message)
      (opt : OscoreOption)
      (accepted : r.event = some (.gotRequest oscoreOption ciphertext message))
      (parsed : parseOption oscoreOption = .ok opt)
      (side : sent.side = r.side.other)
      (released : sent.SentRequest opt.piv ciphertext (plaintextOf message))
  | response (call : ResponseCall) (message : Message)
      (accepted : r.event = some (.gotResponse call message))
      (side : sent.side = r.side.other)
      (released : sent.SentResponse (start r.side).senderId call.requestPiv
        call.ciphertext (plaintextOf message))

end Record

/-! What was checked of an accepted message, in terms of its encryption. -/

theorem Context.nonce_of_opening? {C : Crypto} {self : Context C}
    {nonce : Nonce} {requestKid requestPiv ciphertext : Bytes} {s : Sealing}
    (h : self.opening? nonce requestKid requestPiv ciphertext = some s) :
    s.nonce = nonce := by
  unfold opening? at h
  split at h
  · cases h
  · split at h
    · cases h
    · cases h
      rfl

/-- The nonce of a response: made from the responder and its own PIV, or from
the requester and the PIV of the request. -/
def responseNonce {C : Crypto} (material : Material C) (piv requestPiv : Bytes) :
    Nonce :=
  computeNonce (if piv ≠ [] then material.recipientId else material.senderId)
    (if piv ≠ [] then piv else requestPiv) material.commonIv

namespace Association

variable {C : Crypto} {σ ε : Type} {S : Side → ContextStateStore σ ε}
  {start : Side → Context C}

/-- An accepted request, with its encryption. -/
structure TookRequest (start : Side → Context C) (r : Record C)
    (oscoreOption ciphertext : Bytes) (message : Message) (opt : OscoreOption)
    (s : Sealing) : Prop where
  opened : r.opened? = some s
  parsed : parseOption oscoreOption = .ok opt
  seq : optionSeq oscoreOption = OscoreSeqNum.fromPiv opt.piv
  isOpened : Session.Opened (start r.side).toMaterial
    (start r.side).recipientId opt.piv ciphertext (plaintextOf message) s

/-- A committed response, with its encryption. -/
structure TookResponse (start : Side → Context C) (r : Record C)
    (call : ResponseCall) (message : Message) (piv : Bytes) (s : Sealing) :
    Prop where
  opened : r.opened? = some s
  explicit : explicitPiv? call.oscoreOption =
    if piv = [] then none else some piv
  ordinary : piv = [] → call.observe = false
  seq : ∃ seq, (if piv ≠ [] then piv else call.requestPiv) =
    OscoreSeqNum.encodePiv seq
  nonce : s.nonce =
    responseNonce (start r.side).toMaterial piv call.requestPiv
  isOpened : Session.Opened (start r.side).toMaterial (start r.side).senderId
    call.requestPiv call.ciphertext (plaintextOf message) s

/-- What a call on record did to the session it ran on. -/
theorem Recorded.effect {history : List (Record C)}
    (h : Recorded S start history) {r : Record C} (hr : r ∈ history)
    {event : Event} (hevent : r.event = some event) :
    ∃ store session' store', r.session.Effect (S r.side) store r.action session'
      store' (some event) := by
  obtain ⟨-, store, hact⟩ := h r hr
  have heffect := r.session.act_effect (S r.side) store r.action
  rw [← hact, hevent] at heffect
  exact ⟨store, _, _, heffect⟩

theorem Recorded.tookRequest {history : List (Record C)}
    (h : Recorded S start history) {r : Record C} (hr : r ∈ history)
    {oscoreOption ciphertext : Bytes} {message : Message}
    (hevent : r.event = some (.gotRequest oscoreOption ciphertext message)) :
    ∃ opt s, TookRequest start r oscoreOption ciphertext message opt s := by
  have hmaterial := (h r hr).1
  obtain ⟨store, session', store', heffect⟩ := h.effect hr hevent
  generalize r.action = action at heffect
  cases heffect with
  | gotRequest _ _ opt seq plaintext _ accepts holds =>
      have hfree : (⟨r.session.context, .free⟩ : Session C).borrow = .free :=
        rfl
      obtain ⟨s, hopening, hopened⟩ := Session.opened_request hfree accepts
      dsimp only at hopened
      rw [hmaterial] at hopened
      refine ⟨opt, s, ?_, accepts.parsed, ?_, hopened⟩
      · simp only [Record.opened?, hevent]
        exact hopening
      · simp only [optionSeq, accepts.parsed]

/-- The sequence that an accepted response is sealed under. -/
theorem exists_seq_of_authenticates {context : Context C} {call : ResponseCall}
    {opt : OscoreOption} {plaintext : HVec ptCap} {pending : PendingResponse}
    (h : context.Authenticates call opt plaintext pending) :
    ∃ seq, (if opt.piv ≠ [] then opt.piv else call.requestPiv) =
      OscoreSeqNum.encodePiv seq := by
  split
  · rename_i hpiv
    rcases Context.explicitResponseSeq_eq_ok.mp h.responseSeq_eq with
      ⟨hnil, -⟩ | ⟨seq, -, hseq, -⟩
    · exact absurd hnil hpiv
    · exact ⟨seq, OscoreSeqNum.fromPiv_eq_some.mp hseq⟩
  · exact ⟨_, OscoreSeqNum.fromPiv_eq_some.mp h.requestSeq_eq⟩

theorem Recorded.tookResponse {history : List (Record C)}
    (h : Recorded S start history) {r : Record C} (hr : r ∈ history)
    {call : ResponseCall} {message : Message}
    (hevent : r.event = some (.gotResponse call message)) :
    ∃ piv s, TookResponse start r call message piv s := by
  have hmaterial := (h r hr).1
  obtain ⟨store, session', store', heffect⟩ := h.effect hr hevent
  generalize r.action = action at heffect
  cases heffect with
  | gotResponse _ opt plaintext pending accepts holds =>
      have hfree : (⟨r.session.context, .free⟩ : Session C).borrow = .free :=
        rfl
      obtain ⟨s, hopening, hopened⟩ := Session.opened_response hfree accepts
      have hnonce : s.nonce = responseNonce (start r.side).toMaterial opt.piv
          call.requestPiv := by
        simp only [Session.opening?, accepts.parsed] at hopening
        rw [Context.nonce_of_opening? hopening, ← hmaterial]
        rfl
      dsimp only at hopened
      rw [hmaterial] at hopened
      refine ⟨opt.piv, s, ?_, ?_, ?_, exists_seq_of_authenticates accepts,
        hnonce, hopened⟩
      · simp only [Record.opened?, hevent]
        exact hopening
      · simp only [explicitPiv?, accepts.parsed]
      · intro hnil
        by_contra hobserve
        exact accepts.observe_piv (by simpa using hobserve) hnil

/-! An opened encryption was made, and it is opened once. -/

/-- What a record opened was accepted in one of two ways. -/
theorem Recorded.took {history : List (Record C)}
    (h : Recorded S start history) {r : Record C} (hr : r ∈ history)
    {s : Sealing} (hopened : r.opened? = some s) :
    (∃ oscoreOption ciphertext message opt,
        r.event = some (.gotRequest oscoreOption ciphertext message) ∧
          TookRequest start r oscoreOption ciphertext message opt s) ∨
      ∃ call message piv, r.event = some (.gotResponse call message) ∧
        TookResponse start r call message piv s := by
  have hcases := hopened
  unfold Record.opened? at hcases
  split at hcases
  · rename_i oscoreOption ciphertext message hevent
    obtain ⟨opt, s', htook⟩ := h.tookRequest hr hevent
    cases Option.some.inj (hopened.symm.trans htook.opened)
    exact Or.inl ⟨oscoreOption, ciphertext, message, opt, hevent, htook⟩
  · rename_i call message hevent
    obtain ⟨piv, s', htook⟩ := h.tookResponse hr hevent
    cases Option.some.inj (hopened.symm.trans htook.opened)
    exact Or.inr ⟨call, message, piv, hevent, htook⟩
  · cases hcases

theorem Recorded.exists_opened {history : List (Record C)}
    (h : Recorded S start history) {r : Record C} (hr : r ∈ history)
    (haccepts : r.Accepts) : ∃ s, r.opened? = some s := by
  obtain ⟨event, message, hevent, hreceived⟩ := haccepts
  unfold Event.received? at hreceived
  split at hreceived
  · obtain ⟨opt, s, htook⟩ := h.tookRequest hr hevent
    exact ⟨s, htook.opened⟩
  · obtain ⟨piv, s, htook⟩ := h.tookResponse hr hevent
    exact ⟨s, htook.opened⟩
  · cases hreceived

/-- The other side released what this record opened. -/
theorem Recorded.deliveredFrom {history : List (Record C)}
    (h : Recorded S start history)
    (hmirror : ∀ side, (start side).Mirrors (start side.other).toMaterial)
    (hkeys : (start .a).senderKey ≠ (start .b).senderKey) {r sent : Record C}
    (hr : r ∈ history) (hsent : sent ∈ history) {s : Sealing}
    (hopened : r.opened? = some s) (hmade : sent.made? = some s) :
    r.DeliveredFrom start sent := by
  rcases h.took hr hopened with
    ⟨oscoreOption, ciphertext, message, opt, hevent, htook⟩ |
    ⟨call, message, piv, hevent, htook⟩
  · obtain ⟨hside, ⟨-, hreleased⟩ | ⟨hkid, -⟩⟩ :=
      h.origin hmirror hkeys htook.isOpened hsent hmade
    · exact .request oscoreOption ciphertext message opt hevent htook.parsed
        hside hreleased
    · exact absurd hkid.symm (start r.side).ids_ne
  · obtain ⟨hside, ⟨hkid, -⟩ | ⟨-, hreleased⟩⟩ :=
      h.origin hmirror hkeys htook.isOpened hsent hmade
    · exact absurd hkid (start r.side).ids_ne
    · exact .response call message hevent hside hreleased

/-- What the calls of one side completed with. -/
def sideEvents (side : Side) (history : List (Record C)) : List Event :=
  history.filterMap fun r => if r.side = side then r.event else none

/-- Each side remembers in its windows what it accepted, and its log is its
part of the history. -/
structure Ledgered (R : ∀ side, RecipientContract (S side))
    (start : Side → Context C) (sys : Association C σ) : Prop where
  tracks : ∀ side, Receiver.Tracks (R side) (start side).receivedResponse
    (sys.parties side)
  logs : ∀ side, (sys.parties side).log = sideEvents side sys.history

variable {R : ∀ side, RecipientContract (S side)} {sys : Association C σ}

/-- The log of a side grows by what the operation puts on record for it. -/
theorem log_step (sys : Association C σ) (op : Side × Receiver.Op)
    (side : Side) :
    ((step S sys op).parties side).log =
      sideEvents side (record? S sys op.1 op.2).toList ++
        (sys.parties side).log := by
  obtain ⟨actor, op⟩ := op
  by_cases hside : side = actor
  · subst hside
    rw [parties_self]
    cases op with
    | restart =>
        simp only [Receiver.step, record?, Option.toList_none, sideEvents,
          List.filterMap_nil, List.nil_append]
        split
        · exact Receiver.rebuild_log _ _
        · split
          · exact Receiver.rebuild_log _ _
          · rfl
    | act action =>
        simp only [Receiver.step, record?]
        cases hsession : (sys.parties side).session with
        | none => rfl
        | some session =>
            simp only [Option.map_some, Option.toList_some, sideEvents,
              List.filterMap_cons, ↓reduceIte, List.filterMap_nil]
            cases (session.act (S side) (sys.parties side).store
              action).2.2 <;> rfl
  · rw [parties_other sys op hside]
    cases op with
    | restart => rfl
    | act action =>
        cases hsession : (sys.parties actor).session with
        | none =>
            simp only [record?, hsession, Option.map_none, Option.toList_none,
              sideEvents, List.filterMap_nil, List.nil_append]
        | some session =>
            simp only [record?, hsession, Option.map_some, Option.toList_some,
              sideEvents, List.filterMap_cons, Ne.symm hside, ↓reduceIte,
              List.filterMap_nil, List.nil_append]

theorem boot_ledgered (R : ∀ side, RecipientContract (S side))
    (start : Side → Context C) (stores : Side → σ) :
    Ledgered R start (boot start stores) where
  tracks side := Receiver.tracks_run (R side) (start side) (stores side) []
  logs _ := rfl

theorem Ledgered.step (h : Ledgered R start sys) (op : Side × Receiver.Op) :
    Ledgered R start (step S sys op) := by
  constructor
  · intro side
    by_cases hside : side = op.1
    · subst hside
      rw [show op = (op.1, op.2) from rfl, parties_self]
      exact (h.tracks op.1).step op.2
    · rw [show op = (op.1, op.2) from rfl, parties_other sys op.2 hside]
      exact h.tracks side
  · intro side
    rw [log_step, h.logs side]
    exact (List.filterMap_append).symm

/-- What a window tells apart on one side differs between any two records of
that side. -/
theorem Ledgered.ne_of_nodup (h : Ledgered R start sys)
    (tag : Event → Option (Option OscoreSeqNum))
    (hnodup : ∀ side, ((sys.parties side).log.filterMap tag).Nodup) :
    sys.history.Pairwise fun later earlier => later.side = earlier.side →
      ∀ event event' seq, later.event = some event →
        earlier.event = some event' → tag event = some seq →
        tag event' ≠ some seq := by
  rw [List.pairwise_iff_getElem]
  intro i j hi hj hij hside event event' seq hevent hevent' hseq hseq'
  have hdistinct := hnodup sys.history[i].side
  rw [h.logs, sideEvents] at hdistinct
  have hpair := List.pairwise_filterMap.mp (List.pairwise_filterMap.mp hdistinct)
  exact List.pairwise_iff_getElem.mp hpair i j hi hj hij event (by simp [hevent])
    event' (by simp [← hside, hevent']) seq hseq seq hseq' rfl

/-- What the calls so far have opened was made before, also for a response that
is not committed yet. -/
structure Backed (sys : Association C σ) : Prop where
  pending : ∀ side session call response begun,
    (sys.parties side).session = some session →
    session.borrow = .pending call response begun →
    ∃ s, Session.opening? ⟨session.context, .free⟩ (.beginResponse call) =
        some s ∧ ∃ r ∈ sys.history, r.Makes s
  taken : ∀ later r earlier, sys.history = later ++ r :: earlier → ∀ s,
    r.opened? = some s → ∃ sent ∈ earlier, sent.made? = some s

theorem boot_backed (start : Side → Context C) (stores : Side → σ) :
    Backed (boot start stores) where
  pending _ _ _ _ _ h hborrow := by
    cases h
    cases hborrow
  taken later r earlier h := by
    have hnil : later ++ r :: earlier = ([] : List (Record C)) := h.symm
    exact absurd hnil (by simp)

/-- A response stays pending on the context that opened it. -/
theorem context_of_pending {session : Session C} {S : ContextStateStore σ ε}
    {store : σ} {action : Action} {call : ResponseCall}
    {response : PendingResponse} {begun}
    (hborrow : (session.act S store action).1.borrow =
      .pending call response begun) :
    (session.act S store action).1.context = session.context := by
  have heffect := session.act_effect S store action
  revert begun
  generalize session.act S store action = result at heffect
  obtain ⟨session', store', event⟩ := result
  intro begun hborrow
  cases heffect with
  | skipped => rfl
  | began => rfl
  | _ => cases hborrow

/-- What the newest record opened was made by an older one. -/
theorem Backed.made (h : Backed sys) {side : Side} {action : Action}
    (hideal : IdealAead sys (side, .act action)) {session : Session C}
    (hsession : (sys.parties side).session = some session) {s : Sealing}
    (hopened : Record.opened? ⟨side, session, action,
      (session.act (S side) (sys.parties side).store action).2.2⟩ = some s) :
    ∃ sent ∈ sys.history, sent.made? = some s := by
  have heffect := session.act_effect (S side) (sys.parties side).store action
  generalize session.act (S side) (sys.parties side).store action = result
    at heffect hopened
  obtain ⟨session', store', event⟩ := result
  cases heffect with
  | gotRequest oscoreOption ciphertext opt seq plaintext message accepts holds =>
      obtain ⟨context, borrow⟩ := session
      obtain rfl : borrow = .free := holds
      have hopening : Session.opening? ⟨context, .free⟩
          (.unprotectRequest oscoreOption ciphertext) = some s := hopened
      exact hideal s (by simpa [opening?, hsession] using hopening)
  | gotResponse call opt plaintext pending accepts holds =>
      obtain ⟨begun, hborrow⟩ := holds
      obtain ⟨s', hopening, hmade⟩ :=
        h.pending side session call pending begun hsession hborrow
      cases Option.some.inj (hopening.symm.trans hopened)
      exact hmade
  | _ => cases hopened

theorem Backed.act (h : Backed sys) {side : Side} {action : Action}
    (hideal : IdealAead sys (side, .act action)) {session : Session C}
    (hsession : (sys.parties side).session = some session) :
    Backed (step S sys (side, .act action)) := by
  have hhistory : (step S sys (side, .act action)).history =
      ⟨side, session, action, (session.act (S side)
        (sys.parties side).store action).2.2⟩ :: sys.history := by
    simp only [step, record?, hsession, Option.map_some, Option.toList_some,
      List.singleton_append]
  have hgrow : ∀ s, (∃ r ∈ sys.history, r.Makes s) →
      ∃ r ∈ (step S sys (side, .act action)).history, r.Makes s := by
    rintro s ⟨r, hr, hmakes⟩
    exact ⟨r, by rw [hhistory]; exact List.mem_cons_of_mem _ hr, hmakes⟩
  constructor
  · intro other session' call response begun hsession' hborrow
    by_cases hside : other = side
    · subst hside
      rw [parties_self, Receiver.session_act hsession,
        Option.some.injEq] at hsession'
      subst hsession'
      rw [context_of_pending hborrow]
      rcases pending_act hborrow with ⟨begun, hold⟩ |
        ⟨rfl, holds, opt, plaintext, haccepts⟩
      · obtain ⟨s, hopening, hmade⟩ :=
          h.pending other session call response begun hsession hold
        exact ⟨s, hopening, hgrow s hmade⟩
      · obtain ⟨s, hopening, -⟩ := Session.opened_response holds haccepts
        have hmade := hgrow s
          (hideal s (by simp [opening?, hsession, hopening]))
        obtain ⟨context, borrow⟩ := session
        obtain rfl : borrow = .free := holds
        exact ⟨s, hopening, hmade⟩
    · rw [parties_other sys _ hside] at hsession'
      obtain ⟨s, hopening, hmade⟩ :=
        h.pending other session' call response begun hsession' hborrow
      exact ⟨s, hopening, hgrow s hmade⟩
  · intro later r earlier hsplit s hopened
    rw [hhistory] at hsplit
    cases later with
    | nil =>
        obtain ⟨rfl, rfl⟩ := List.cons.inj hsplit
        exact h.made hideal hsession hopened
    | cons _ later =>
        exact h.taken later r earlier (List.cons.inj hsplit).2 s hopened

theorem Backed.restart (h : Backed sys) (side : Side) :
    Backed (step S sys (side, .restart)) where
  pending other session call response begun hsession hborrow := by
    by_cases hside : other = side
    · subst hside
      rw [parties_self] at hsession
      rcases Receiver.session_restart hsession with hold | ⟨-, hfree⟩
      · exact h.pending other session call response begun hold hborrow
      · cases hborrow.symm.trans hfree
    · rw [parties_other sys _ hside] at hsession
      exact h.pending other session call response begun hsession hborrow
  taken := h.taken

theorem Backed.step (h : Backed sys) {op : Side × Receiver.Op}
    (hideal : IdealAead sys op) : Backed (step S sys op) := by
  obtain ⟨side, op⟩ := op
  cases op with
  | restart => exact h.restart side
  | act action =>
      cases hsession : (sys.parties side).session with
      | none =>
          rw [step_act_none action hsession]
          exact h
      | some session => exact h.act hideal hsession

/-- The two sides open under different keys. -/
theorem side_eq_of_recipientKey
    (hmirror : ∀ side, (start side).Mirrors (start side.other).toMaterial)
    (hkeys : (start .a).senderKey ≠ (start .b).senderKey) {side side' : Side}
    (h : (start side).recipientKey = (start side').recipientKey) :
    side = side' := by
  have hother : ∀ side, (start side).recipientKey =
      (start side.other).senderKey := fun side => (hmirror side).senderKey.symm
  rw [hother, hother] at h
  cases side <;> cases side' <;> simp only [Side.other] at h ⊢
  · exact absurd h.symm hkeys
  · exact absurd h hkeys

/-- The nonce of an accepted response determines the PIV that it carries. -/
theorem TookResponse.piv_eq {r r' : Record C} {call call' : ResponseCall}
    {message message' : Message} {piv piv' : Bytes} {s : Sealing}
    (h : TookResponse start r call message piv s)
    (h' : TookResponse start r' call' message' piv' s)
    (hside : r.side = r'.side) : piv = piv' := by
  obtain ⟨seq, hseq⟩ := h.seq
  obtain ⟨seq', hseq'⟩ := h'.seq
  have hnonce := h.nonce.symm.trans h'.nonce
  rw [← hside, responseNonce, responseNonce, hseq, hseq'] at hnonce
  have hids : ∀ piv : Bytes, (if piv ≠ [] then (start r.side).recipientId
      else (start r.side).senderId).length ≤ nonceIdLen := by
    intro piv
    split
    · exact (start r.side).recipientId_le
    · exact (start r.side).senderId_le
  obtain ⟨hid, hsequence⟩ := computeNonce_injective (hids piv) (hids piv')
    hnonce
  subst hsequence
  have hne := (start r.side).ids_ne
  have hpiv := hseq.trans hseq'.symm
  by_cases hnil : piv = [] <;> by_cases hnil' : piv' = [] <;>
    simp only [hnil, hnil', ne_eq, not_true_eq_false, not_false_eq_true,
      ↓reduceIte] at hid hpiv ⊢
  · exact absurd hid hne
  · exact absurd hid.symm hne
  · exact hpiv

/-- No encryption is accepted twice. -/
theorem opened_once
    (hmirror : ∀ side, (start side).Mirrors (start side.other).toMaterial)
    (hkeys : (start .a).senderKey ≠ (start .b).senderKey)
    (hrecorded : Recorded S start sys.history) (h : Ledgered R start sys) :
    sys.history.Pairwise fun later earlier => ∀ s, later.opened? = some s →
      earlier.opened? ≠ some s := by
  have hrequests := h.ne_of_nodup Event.requestSeq?
    fun side => (h.tracks side).remembers.requests.1
  have hordinary := h.ne_of_nodup Event.ordinarySeq?
    fun side => (h.tracks side).remembers.ordinary.1
  have hresponders := h.ne_of_nodup Event.responderSeq?
    fun side => (h.tracks side).remembers.responders.1
  refine (hrequests.and (hordinary.and hresponders)).imp_of_mem ?_
  rintro r r' hr hr' ⟨hrequest, hordinary, hresponder⟩ s hopened hopened'
  rcases hrecorded.took hr hopened with
    ⟨oscoreOption, ciphertext, message, opt, hevent, htook⟩ |
    ⟨call, message, piv, hevent, htook⟩ <;>
  rcases hrecorded.took hr' hopened' with
    ⟨oscoreOption', ciphertext', message', opt', hevent', htook'⟩ |
    ⟨call', message', piv', hevent', htook'⟩
  all_goals
    have hside := side_eq_of_recipientKey hmirror hkeys
      (htook.isOpened.key.symm.trans htook'.isOpened.key)
    have haad := aadBytes_injective htook.isOpened.fits htook'.isOpened.fits
      (htook.isOpened.aad.symm.trans htook'.isOpened.aad)
  · have hseq : optionSeq oscoreOption = optionSeq oscoreOption' := by
      rw [htook.seq, htook'.seq, haad.2]
    exact hrequest hside _ _ (optionSeq oscoreOption) hevent hevent' rfl
      (congrArg some hseq.symm)
  · rw [← hside] at haad
    exact absurd haad.1.symm (start r.side).ids_ne
  · rw [← hside] at haad
    exact absurd haad.1 (start r.side).ids_ne
  · obtain rfl := htook.piv_eq htook' hside
    by_cases hpiv : piv = []
    · refine hordinary hside _ _ (OscoreSeqNum.fromPiv call.requestPiv) hevent
        hevent' ?_ ?_
      · simp [Event.ordinarySeq?, htook.ordinary hpiv]
      · simp [Event.ordinarySeq?, htook'.ordinary hpiv, haad.2]
    · refine hresponder hside _ _ (OscoreSeqNum.fromPiv piv) hevent hevent' ?_
        ?_
      · simp [Event.responderSeq?, htook.explicit, hpiv]
      · simp [Event.responderSeq?, htook'.explicit, hpiv]

/-- In every history under an ideal AEAD, with snapshots that survive restarts,
each accepted message has a call of its own on the other side that released it
earlier, as the same kind of message and for the same request: nothing is
forged, reflected, moved to another request or delivered twice. -/
theorem accepted_match_released (R : ∀ side, RecipientContract (S side))
    (start : Side → Context C) (stores : Side → σ)
    (hmirror : (start .a).Mirrors (start .b).toMaterial)
    (hkeys : (start .a).senderKey ≠ (start .b).senderKey)
    (ops : List (Side × Receiver.Op))
    (hideal : History.Guarded (step S) IdealAead (boot start stores) ops) :
    let history := (History.run (step S) (boot start stores) ops).history
    ∃ origin : Nat → Nat,
      (∀ (i : Nat) (r : Record C), history[i]? = some r → r.Accepts →
        i < origin i ∧ ∃ sent, history[origin i]? = some sent ∧
          r.DeliveredFrom start sent) ∧
      ∀ (i j : Nat) (r r' : Record C), history[i]? = some r →
        history[j]? = some r' → r.Accepts → r'.Accepts →
        origin i = origin j → i = j := by
  intro history
  have hmirrors : ∀ side,
      (start side).Mirrors (start side.other).toMaterial := by
    intro side
    cases side with
    | a => exact hmirror
    | b => exact hmirror.symm
  have hsound : Sound S start (History.run (step S) (boot start stores) ops) :=
    History.invariant_of_guarded (Sound.step hmirrors hkeys) hideal
      (boot_sound start stores)
  have hbacked : Backed (History.run (step S) (boot start stores) ops) :=
    History.invariant_of_guarded (fun _ _ h hop => h.step hop) hideal
      (boot_backed start stores)
  have hledgered :
      Ledgered R start (History.run (step S) (boot start stores) ops) :=
    History.invariant (fun _ op h => h.step op) (boot_ledgered R start stores)
      ops
  obtain ⟨origin, hgiven, hinjective⟩ := History.exists_matching
    (fun later r earlier hsplit s hopened =>
      hbacked.taken later r earlier hsplit s hopened)
    (opened_once hmirrors hkeys hsound.recorded hledgered)
  have hmem : ∀ {i : Nat} {r : Record C}, history[i]? = some r →
      r ∈ history := fun hget => List.mem_of_getElem? hget
  refine ⟨origin, ?_, ?_⟩
  · intro i r hr haccepts
    obtain ⟨s, hopened⟩ := hsound.recorded.exists_opened (hmem hr) haccepts
    obtain ⟨hlt, sent, hsent, hmade⟩ := hgiven i r s hr hopened
    exact ⟨hlt, sent, hsent, hsound.recorded.deliveredFrom hmirrors hkeys
      (hmem hr) (hmem hsent) hopened hmade⟩
  · intro i j r r' hr hr' haccepts haccepts' heq
    obtain ⟨s, hopened⟩ := hsound.recorded.exists_opened (hmem hr) haccepts
    obtain ⟨s', hopened'⟩ := hsound.recorded.exists_opened (hmem hr') haccepts'
    exact hinjective i j r r' hr hr' (by simp [hopened]) (by simp [hopened'])
      heq

theorem accepted_match_released_exchange :
    let history := (History.run (step fun _ => memoryStore)
      (boot sampleStart fun _ => ⟨fun _ => some ⟨0, false⟩, fun _ => none⟩)
      exchange).history
    ∃ origin : Nat → Nat,
      (∀ (i : Nat) (r : Record Crypto.standIn), history[i]? = some r →
        r.Accepts → i < origin i ∧ ∃ sent, history[origin i]? = some sent ∧
          r.DeliveredFrom sampleStart sent) ∧
      ∀ (i j : Nat) (r r' : Record Crypto.standIn), history[i]? = some r →
        history[j]? = some r' → r.Accepts → r'.Accepts →
        origin i = origin j → i = j :=
  accepted_match_released (fun _ => memoryStoreRecipient) sampleStart _
    sampleMaterial.mirrors_mirror (by decide +kernel) exchange
    (by decide +kernel)

end Association

end Oscore
