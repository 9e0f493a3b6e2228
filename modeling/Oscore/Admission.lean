/-
No lock-out.  A receiver marks only what the sender released, and a sender
releases nothing at or above its next ticket; so whatever an attacker delivers,
the request of the current reservation passes the replay window.
-/
import Oscore.Association
import Oscore.Exchange
import Oscore.NonceUse

namespace Oscore

open Rust Rust.Call

/-- Nothing from `bound` on was marked. -/
def ReplayWindow.Behind (w : ReplayWindow) (bound : Nat) : Prop :=
  w = fresh ∨ w.seq.get < bound

namespace ReplayWindow.Behind

variable {w : ReplayWindow} {bound : Nat}

theorem fresh (bound : Nat) : ReplayWindow.fresh.Behind bound := Or.inl rfl

theorem isReplay (h : w.Behind bound) {seq : OscoreSeqNum}
    (hseq : bound ≤ seq.get) : w.isReplay seq = false := by
  rcases h with rfl | hlt
  · exact isReplay_fresh seq
  · simp [ReplayWindow.isReplay, show w.seq.get < seq.get by omega]

theorem mono (h : w.Behind bound) {next : Nat} (hle : bound ≤ next) :
    w.Behind next :=
  h.imp_right fun hlt => Nat.lt_of_lt_of_le hlt hle

theorem update (h : w.Behind bound) {seq : OscoreSeqNum}
    (hseq : seq.get < bound) : (w.updateReplayWindow seq).Behind bound := by
  right
  have hw : w.seq.get < bound := by
    rcases h with rfl | hlt
    · exact Nat.lt_of_le_of_lt (Nat.zero_le _) hseq
    · exact hlt
  unfold updateReplayWindow
  split
  · exact hseq
  · dsimp only
    split <;> exact hw

end ReplayWindow.Behind

/-- A request that a mirrored context protects is handed out as it was written
unless it is a replay. -/
theorem Context.exists_delivered_request {C : Crypto} (haead : C.AeadCorrect)
    {self peer : Context C} (hmirror : self.Mirrors peer.toMaterial)
    (seq : OscoreSeqNum) (code : UInt8) {classEOptions payload : Bytes}
    (h : Deliverable classEOptions payload) :
    ∃ message, self.protectRequestReserved seq code classEOptions payload =
        .ok message ∧
      (peer.replay.isReplay seq = false →
        Delivers (unprotectRequest message.2.toList message.1.toList) peer code
          classEOptions payload) := by
  obtain ⟨message, hprotect⟩ :=
    exists_protectRequestReserved haead self seq code h.required
  refine ⟨message, hprotect, fun hfresh => ?_⟩
  obtain ⟨options, rfl⟩ : ∃ options : HVec outCap,
    options.toList = classEOptions := ⟨⟨_, h.options_le⟩, rfl⟩
  obtain ⟨payload, rfl⟩ : ∃ payload' : HVec outCap,
    payload'.toList = payload := ⟨⟨_, h.payload_le⟩, rfl⟩
  exact (delivers_request_iff haead hmirror hprotect hfresh).mpr
    ⟨h.scans, h.fits⟩

/-- The sequence that the session has reserved. -/
def Session.reservation? {C : Crypto} (session : Session C) : Option Nat :=
  match session.borrow with
  | .reserved sender => some sender.sequence.get
  | _ => none

/-- A response that takes its sequence outside a reservation. -/
def Action.TakesOwn : Action → Prop
  | .protectResponse _ _ _ _ _ true => True
  | _ => False

instance : DecidablePred Action.TakesOwn
  | .protectResponse _ _ _ _ _ true => isTrue trivial
  | .protectResponse _ _ _ _ _ false | .reserve | .protectRequest .. |
    .protectResponseWithPiv .. | .unprotectRequest .. | .beginResponse _ |
    .commit | .release => isFalse id

namespace Receiver

variable {C : Crypto} {σ ε : Type} {S : ContextStateStore σ ε}

/-- The ticket that the sender record of a party stands at. -/
def counter (K : SenderContract S) (r : Receiver C σ) : Nat :=
  ticketCounter (K.record r.store r.material.contextId)

/-- The reserved sequence, or the ticket that is reserved next. -/
def nextTicket (K : SenderContract S) (r : Receiver C σ) : Nat :=
  match r.session with
  | some ⟨_, .reserved sender⟩ => sender.sequence.get
  | _ => r.counter K

/-- A reservation has taken a ticket of the record. -/
structure Orderly (K : SenderContract S) (r : Receiver C σ) : Prop where
  reserved : ∀ context sender, r.session = some ⟨context, .reserved sender⟩ →
    sender.sequence.get < r.counter K
  live : ∀ session, r.session = some session → session.context.Sound ∧
    session.context.contextId = r.material.contextId

variable {K : SenderContract S} {r : Receiver C σ}

theorem nextTicket_reserved {context : Context C} {sender : ReservedSender}
    (h : r.session = some ⟨context, .reserved sender⟩) :
    r.nextTicket K = sender.sequence.get := by
  rw [nextTicket, h]

theorem nextTicket_of_not_reserved
    (h : ∀ context sender, r.session ≠ some ⟨context, .reserved sender⟩) :
    r.nextTicket K = r.counter K := by
  unfold nextTicket
  split
  · rename_i context sender hsession
    exact absurd hsession (h context sender)
  · rfl

theorem Orderly.nextTicket_le (h : Orderly K r) :
    r.nextTicket K ≤ r.counter K := by
  by_cases hreserved :
      ∃ context sender, r.session = some ⟨context, .reserved sender⟩
  · obtain ⟨context, sender, hsession⟩ := hreserved
    rw [nextTicket_reserved hsession]
    exact Nat.le_of_lt (h.reserved context sender hsession)
  · push Not at hreserved
    rw [nextTicket_of_not_reserved hreserved]

theorem counter_of_maySwap {store : σ} {id : ContextId}
    {expected : Option SenderSequenceState} {next : SenderSequenceState}
    (hswap : K.MaySwap r.store store id expected next)
    (hid : id = r.material.contextId)
    (hle : ticketCounter expected ≤ ticketCounter (some next)) :
    r.counter K ≤ ticketCounter (K.record store r.material.contextId) := by
  subst hid
  rcases hswap with hsame | ⟨hexpected, hrecord⟩
  · rw [hsame]
    exact Nat.le_refl _
  · rw [hrecord, Function.update_self, counter, hexpected]
    exact hle

/-- A party after an operation of its context. -/
def acted (r : Receiver C σ) (session : Session C) (store : σ)
    (event : Option Event) : Receiver C σ :=
  { r with
    store
    session := some session
    snapshot :=
      if event.isSome then session.context.recipientReplayState
      else r.snapshot
    log := event.toList ++ r.log }

@[simp]
theorem windows_acted (r : Receiver C σ) (session : Session C) (store : σ)
    (event : Event) :
    (r.acted session store (some event)).snapshot.windows =
      session.context.windows :=
  windows_recipientReplayState _

theorem step_act {session : Session C} (hsession : r.session = some session)
    (action : Action) :
    step S r (.act action) = r.acted (session.act S r.store action).1
      (session.act S r.store action).2.1 (session.act S r.store action).2.2 := by
  simp only [step, hsession, acted]

/-- What the tickets of a party do over an operation: they advance, and what
goes out under a sequence of its own spends one, unless the operation takes the
sequence outside a reservation. -/
structure Advances (K : SenderContract S) (r r' : Receiver C σ)
    (action : Action) (event : Option Event) : Prop where
  orderly : Orderly K r'
  le : r.nextTicket K ≤ r'.nextTicket K
  spent : ∀ message, event = some message → ∀ seq,
    message.ownSeq? = some seq →
      action.TakesOwn ∨ seq.get < r'.nextTicket K

/-- An operation after which nothing is reserved. -/
theorem Orderly.advances_free (h : Orderly K r) {session session' : Session C}
    {store : σ} {action : Action} {event : Option Event}
    (hsession : r.session = some session)
    (heffect : session.Effect S r.store action session' store event)
    (hfree : ∀ sender, session'.borrow ≠ .reserved sender)
    (hcounter : r.counter K ≤ (r.acted session' store event).counter K)
    (hspent : ∀ message, event = some message → ∀ seq,
      message.ownSeq? = some seq → action.TakesOwn ∨
        ∃ sender, session.borrow = .reserved sender ∧
          sender.sequence = seq) :
    Advances K r (r.acted session' store event) action event := by
  obtain ⟨hsound, hid⟩ := h.live session hsession
  have hticket : (r.acted session' store event).nextTicket K =
      (r.acted session' store event).counter K := by
    refine nextTicket_of_not_reserved fun context sender hother => ?_
    cases Option.some.inj hother
    exact hfree sender rfl
  refine ⟨⟨?_, ?_⟩, ?_, ?_⟩
  · intro context sender hother
    cases Option.some.inj hother
    exact absurd rfl (hfree sender)
  · rintro _ ⟨⟩
    exact ⟨heffect.sound hsound,
      (congrArg Material.contextId heffect.toMaterial).trans hid⟩
  · rw [hticket]
    exact Nat.le_trans h.nextTicket_le hcounter
  · intro message hmessage seq hseq
    refine (hspent message hmessage seq hseq).imp_right ?_
    rintro ⟨sender, hborrow, rfl⟩
    obtain ⟨context, borrow⟩ := session
    obtain rfl : borrow = .reserved sender := hborrow
    rw [hticket]
    exact Nat.lt_of_lt_of_le (h.reserved context sender hsession) hcounter

theorem Orderly.act (h : Orderly K r) {session session' : Session C}
    {store : σ} {action : Action} {event : Option Event}
    (hsession : r.session = some session)
    (heffect : session.Effect S r.store action session' store event) :
    Advances K r (r.acted session' store event) action event := by
  obtain ⟨hsound, hid⟩ := h.live session hsession
  have hkept := heffect
  cases heffect with
  | skipped =>
      have hsame : (r.acted session r.store none).nextTicket K =
          r.nextTicket K := by
        simp only [nextTicket, acted, hsession, counter]
      refine ⟨⟨?_, ?_⟩, Nat.le_of_eq hsame.symm, by rintro _ ⟨⟩⟩
      · exact fun context sender hother =>
          h.reserved context sender (hsession.trans hother)
      · exact fun other hother => h.live other (hsession.trans hother)
  | reserved store' hactive hfresh hswapped =>
      obtain ⟨hexpected, hrecord⟩ := K.swap_true _ _ _ _ _ hswapped
      have hcounter : r.counter K = session.context.senderSeq.get := by
        simp [counter, ← hid, hexpected, ticketCounter,
          Context.senderSequenceState, hfresh]
      have hnext : (r.acted ⟨session.context.reserved,
          .reserved ⟨session.context.senderSeq⟩⟩ store
          (some (.reserved session.context.senderSeq))).counter K =
            session.context.senderSeq.get + 1 := by
        simp only [counter, acted, hrecord, ← hid, Function.update_self,
          ticketCounter_nextSenderState]
      refine ⟨⟨?_, ?_⟩, ?_, ?_⟩
      · rintro context sender ⟨⟩
        rw [hnext]
        exact Nat.lt_succ_self _
      · rintro _ ⟨⟩
        exact ⟨hkept.sound hsound,
          (congrArg Material.contextId hkept.toMaterial).trans hid⟩
      · change r.nextTicket K ≤ session.context.senderSeq.get
        exact Nat.le_trans h.nextTicket_le (Nat.le_of_eq hcounter)
      · rintro message ⟨⟩ seq hseq
        cases hseq
  | reserveFailed store' hfailed =>
      refine h.advances_free hsession hkept (by rintro _ ⟨⟩) ?_
        (by rintro _ ⟨⟩)
      refine counter_of_maySwap (K.maySwap_of_failed hfailed) hid ?_
      rw [ticketCounter_nextSenderState]
      by_cases hexhausted : session.context.senderSeqExhausted = true
      · simp [ticketCounter, Context.senderSequenceState, hexhausted,
          hsound hexhausted]
      · simp [ticketCounter, Context.senderSequenceState, hexhausted]
  | sentRequest sender code classEOptions payload message holds ok =>
      refine h.advances_free hsession hkept (by rintro _ ⟨⟩)
        (Nat.le_refl _) ?_
      rintro _ ⟨⟩ seq ⟨⟩
      exact Or.inr ⟨sender, holds, rfl⟩
  | sentResponse sender code classEOptions payload requestKid requestPiv
      message holds ok =>
      refine h.advances_free hsession hkept (by rintro _ ⟨⟩)
        (Nat.le_refl _) ?_
      rintro _ ⟨⟩ seq ⟨⟩
      exact Or.inr ⟨sender, holds, rfl⟩
  | sentOwn | tookOnly =>
      exact h.advances_free hsession hkept (by rintro _ ⟨⟩)
        (Nat.le_refl _) fun _ _ _ _ => Or.inl trivial
  | sentBare | gotRequest | gotResponse =>
      refine h.advances_free hsession hkept (by rintro _ ⟨⟩)
        (Nat.le_refl _) ?_
      rintro _ ⟨⟩ seq ⟨⟩
  | freed | began =>
      exact h.advances_free hsession hkept (by rintro _ ⟨⟩)
        (Nat.le_refl _) (by rintro _ ⟨⟩)

theorem counter_rebuild (K : SenderContract S) (r : Receiver C σ) :
    (rebuild S r).counter K = r.counter K := by
  unfold rebuild
  split
  · rfl
  · rename_i context hnew
    have hkept := K.record_after_restoreExisting context r.store
    split
    · rename_i restored store hrestore
      rw [after_of_ok hrestore] at hkept
      simp only [counter, hkept]
    · rename_i store hrestore
      rw [after_of_error hrestore] at hkept
      simp only [counter, hkept]

theorem counter_restart (K : SenderContract S) (r : Receiver C σ) :
    (step S r .restart).counter K = r.counter K := by
  have hkept := K.saveRecipient_keeps r.material.contextId r.snapshot r.store
  simp only [step]
  split
  · exact counter_rebuild K r
  · split
    · rename_i store hsave
      rw [after_of_ok hsave] at hkept
      rw [counter_rebuild]
      simp only [counter, hkept]
    · rename_i store hsave
      rw [after_of_error hsave] at hkept
      simp only [counter, hkept]

theorem sound_rebuild {session : Session C}
    (h : (rebuild S r).session = some session) :
    r.session = some session ∨ session.context.Sound := by
  unfold rebuild at h
  split at h
  · exact Or.inl h
  · split at h
    · rename_i restored store hrestore
      cases h
      obtain ⟨state, u, -, context', hset, rs, -, rfl⟩ :=
        Context.restoreExisting_eq_ok.mp hrestore
      have hsound := Context.sound_of_setSenderState hset
      exact Or.inr (by cases rs <;> exact hsound)
    · exact Or.inl h

theorem sound_restart {session : Session C}
    (h : (step S r .restart).session = some session) :
    r.session = some session ∨ session.context.Sound := by
  simp only [step] at h
  split at h
  · exact sound_rebuild h
  · split at h
    · exact (sound_rebuild h).imp_left fun hnone => by cases hnone
    · exact Or.inl h

/-- A restart moves no ticket and leaves nothing reserved. -/
theorem Orderly.restart (h : Orderly K r) :
    Orderly K (step S r .restart) ∧
      r.nextTicket K ≤ (step S r .restart).nextTicket K := by
  have hreserved : ∀ {context : Context C} {sender : ReservedSender},
      (step S r .restart).session = some ⟨context, .reserved sender⟩ →
        r.session = some ⟨context, .reserved sender⟩ := by
    intro context sender hsession
    exact (session_restart hsession).resolve_right fun hnew => nomatch hnew.2
  refine ⟨⟨?_, ?_⟩, ?_⟩
  · intro context sender hsession
    rw [counter_restart]
    exact h.reserved context sender (hreserved hsession)
  · intro session hsession
    rcases session_restart hsession with hold | ⟨hmaterial, -⟩
    · rw [material_step]
      exact h.live session hold
    · refine ⟨?_, ?_⟩
      · rcases sound_restart hsession with hold | hsound
        · exact (h.live session hold).1
        · exact hsound
      · rw [material_step]
        exact congrArg Material.contextId hmaterial
  · by_cases hafter : ∃ context sender,
        (step S r .restart).session = some ⟨context, .reserved sender⟩
    · obtain ⟨context, sender, hsession⟩ := hafter
      rw [nextTicket_reserved hsession,
        nextTicket_reserved (hreserved hsession)]
    · push Not at hafter
      rw [nextTicket_of_not_reserved hafter, counter_restart]
      exact h.nextTicket_le

/-! What a step does to the replay window. -/

/-- The step accepts a request under `seq`. -/
structure TakesRequest (S : ContextStateStore σ ε) (r : Receiver C σ) (op : Op)
    (seq : OscoreSeqNum) : Prop where
  accepts : ∃ session action oscoreOption ciphertext message,
    op = .act action ∧ r.session = some session ∧
      (session.act S r.store action).2.2 =
        some (.gotRequest oscoreOption ciphertext message) ∧
      optionSeq oscoreOption = some seq
  fresh : r.snapshot.windows.replay.isReplay seq = false
  marks : (step S r op).snapshot.windows.replay =
    r.snapshot.windows.replay.updateReplayWindow seq
  logged : requests (step S r op).log = some seq :: requests r.log

/-- The step accepts no request. -/
structure LeavesRequests (S : ContextStateStore σ ε) (r : Receiver C σ)
    (op : Op) : Prop where
  replay : (step S r op).snapshot.windows.replay = r.snapshot.windows.replay
  logged : requests (step S r op).log = requests r.log

/-- A restart touches neither the snapshot nor the log. -/
theorem restart_keeps (S : ContextStateStore σ ε) (r : Receiver C σ) :
    (step S r .restart).snapshot = r.snapshot ∧
      (step S r .restart).log = r.log := by
  have hrebuild : ∀ r : Receiver C σ,
      (rebuild S r).snapshot = r.snapshot ∧ (rebuild S r).log = r.log := by
    intro r
    refine ⟨?_, rebuild_log S r⟩
    unfold rebuild
    split
    · rfl
    · split <;> rfl
  simp only [step]
  split
  · exact hrebuild r
  · split
    · exact hrebuild _
    · exact ⟨rfl, rfl⟩

theorem requests_step {R : RecipientContract S} {initial : ReuseWindow}
    (h : Tracks R initial r) (op : Op) :
    LeavesRequests S r op ∨ ∃ seq, TakesRequest S r op seq := by
  cases op with
  | restart =>
      obtain ⟨hsnapshot, hlog⟩ := restart_keeps S r
      exact Or.inl ⟨by rw [hsnapshot], by rw [hlog]⟩
  | act action =>
      cases hsession : r.session with
      | none =>
          have hstep : step S r (.act action) = r := by
            simp only [step, hsession]
          exact Or.inl ⟨by rw [hstep], by rw [hstep]⟩
      | some session =>
          have hreplay := congrArg Windows.replay (h.up session hsession).1
          have heffect := session.act_effect S r.store action
          generalize hresult : session.act S r.store action = result at heffect
          obtain ⟨session', store', event⟩ := result
          have hstep : step S r (.act action) = _ := step_act hsession action
          rw [hresult] at hstep
          cases heffect with
          | gotRequest oscoreOption ciphertext opt seq plaintext message
              accepts holds =>
              have hseq : optionSeq oscoreOption = some seq := by
                simp only [optionSeq, accepts.parsed, accepts.seq_eq]
              refine Or.inr ⟨seq, ⟨⟨session, _, oscoreOption, ciphertext,
                message, rfl, hsession, by rw [hresult], hseq⟩, ?_, ?_, ?_⟩⟩
              · rw [← hreplay]
                exact accepts.fresh
              · rw [hstep, windows_acted, ← hreplay]
                rfl
              · rw [hstep]
                simp only [acted, Option.toList_some, List.singleton_append,
                  requests, List.filterMap_cons, Event.requestSeq?, hseq]
          | skipped | freed | reserveFailed | tookOnly | began =>
              exact Or.inl ⟨by rw [hstep]; rfl, by rw [hstep]; rfl⟩
          | reserved | sentRequest | sentResponse | sentOwn | sentBare
          | gotResponse =>
              refine Or.inl ⟨?_, by rw [hstep]; rfl⟩
              rw [hstep, windows_acted]
              exact hreplay

end Receiver

theorem Session.Effect.not_takesOwn {C : Crypto} {σ ε : Type}
    {S : ContextStateStore σ ε} {session session' : Session C}
    {store store' : σ} {action : Action} {seq : OscoreSeqNum} {code : UInt8}
    {classEOptions payload : Bytes} {message : Protected}
    (h : session.Effect S store action session' store'
      (some (.sentRequest seq code classEOptions payload message))) :
    ¬ action.TakesOwn := by
  cases h
  exact id

theorem Side.other_ne (side : Side) : side.other ≠ side := by
  cases side <;> decide

theorem Side.eq_other_of_ne {side actor : Side} (h : actor ≠ side) :
    actor = side.other := by
  cases side <;> cases actor <;> first | rfl | exact absurd rfl h

theorem Side.other_other (side : Side) : side.other.other = side := by
  cases side <;> rfl

namespace Association

variable {C : Crypto} {σ ε : Type} {S : Side → ContextStateStore σ ε}
  {start : Side → Context C} {side : Side}

/-- The tickets of one side against the requests it has on record and the ones
that the other side marked. -/
structure Ahead (K : SenderContract (S side))
    (R : RecipientContract (S side.other)) (start : Side → Context C)
    (sys : Association C σ) : Prop where
  orderly : Receiver.Orderly K (sys.parties side)
  tracks : Receiver.Tracks R (start side.other).receivedResponse
    (sys.parties side.other)
  sent : ∀ r ∈ sys.history, r.side = side →
    ∀ seq code classEOptions payload message, r.event =
      some (.sentRequest seq code classEOptions payload message) →
      seq.get < (sys.parties side).nextTicket K
  behind : (sys.parties side.other).snapshot.windows.replay.Behind
    ((sys.parties side).nextTicket K)

variable {K : SenderContract (S side)} {R : RecipientContract (S side.other)}
  {sys : Association C σ}

theorem side_of_record? {actor : Side} {op : Receiver.Op} {r : Record C}
    (h : r ∈ (record? S sys actor op).toList) : r.side = actor := by
  cases op with
  | restart => cases h
  | act action =>
      simp only [record?, Option.mem_toList, Option.map_eq_some_iff] at h
      obtain ⟨session, -, rfl⟩ := h
      rfl

/-- The sender takes a step. -/
theorem Ahead.send (h : Ahead K R start sys) (op : Receiver.Op) :
    Ahead K R start (step S sys (side, op)) := by
  have hself : (step S sys (side, op)).parties side = _ :=
    parties_self sys side op
  have hother : (step S sys (side, op)).parties side.other = _ :=
    parties_other sys op side.other_ne
  cases op with
  | restart =>
      obtain ⟨horderly, hle⟩ : Receiver.Orderly K _ ∧ _ := h.orderly.restart
      constructor
      · rw [hself]
        exact horderly
      · rw [hother]
        exact h.tracks
      · intro r hr hside seq code classEOptions payload message hevent
        rw [hself]
        exact Nat.lt_of_lt_of_le
          (h.sent r hr hside seq code classEOptions payload message hevent) hle
      · rw [hself, hother]
        exact h.behind.mono hle
  | act action =>
      cases hsession : (sys.parties side).session with
      | none =>
          rw [step_act_none action hsession]
          exact h
      | some session =>
          have heffect :=
            session.act_effect (S side) (sys.parties side).store action
          have hadvances := h.orderly.act hsession heffect
          rw [Receiver.step_act hsession] at hself
          rw [← hself] at hadvances
          refine ⟨hadvances.orderly, ?_, ?_, ?_⟩
          · rw [hother]
            exact h.tracks
          · intro r hr hside seq code classEOptions payload message hevent
            have hhistory : (step S sys (side, .act action)).history =
                ⟨side, session, action, (session.act (S side)
                  (sys.parties side).store action).2.2⟩ :: sys.history := by
              simp only [step, record?, hsession, Option.map_some,
                Option.toList_some, List.singleton_append]
            rw [hhistory] at hr
            rcases List.mem_cons.mp hr with rfl | hr
            · dsimp only at hevent
              rw [hevent] at heffect
              exact (hadvances.spent _ hevent seq rfl).resolve_left
                heffect.not_takesOwn
            · exact Nat.lt_of_lt_of_le (h.sent r hr hside seq code
                classEOptions payload message hevent) hadvances.le
          · rw [hother]
            exact h.behind.mono hadvances.le

/-- The receiver takes a step: what it accepts was sent. -/
theorem Ahead.receive
    (hmirror : ∀ side, (start side).Mirrors (start side.other).toMaterial)
    (hkeys : (start .a).senderKey ≠ (start .b).senderKey)
    (h : Ahead K R start sys) (hsound : Sound S start sys)
    {op : Receiver.Op} (hideal : IdealAead sys (side.other, op)) :
    Ahead K R start (step S sys (side.other, op)) := by
  have hself : (step S sys (side.other, op)).parties side.other = _ :=
    parties_self sys side.other op
  have hother : (step S sys (side.other, op)).parties side = _ :=
    parties_other sys op (Ne.symm side.other_ne)
  refine ⟨?_, ?_, ?_, ?_⟩
  · rw [hother]
    exact h.orderly
  · rw [hself]
    exact h.tracks.step op
  · intro r hr hside seq code classEOptions payload message hevent
    rw [hother]
    rcases List.mem_append.mp hr with hnew | hr
    · have hactor := side_of_record? hnew
      exact absurd (hactor.symm.trans hside) side.other_ne
    · exact h.sent r hr hside seq code classEOptions payload message hevent
  · rw [hself, hother]
    rcases Receiver.requests_step h.tracks op with hleaves | ⟨seq, htakes⟩
    · rw [hleaves.replay]
      exact h.behind
    · rw [htakes.marks]
      refine h.behind.update ?_
      obtain ⟨session, action, oscoreOption, ciphertext, message, rfl,
        hsession, hevent, hseq⟩ := htakes.accepts
      obtain ⟨opt, s, hparsed, ⟨sent, hsent, hmakes⟩, honly⟩ :=
        (hsound.authentic_record hmirror hkeys hideal hsession
          (sys.parties side.other).store).request _ _ _ hevent
      obtain ⟨hside, sentSeq, code, classEOptions, payload, released, hsent',
        hpiv, -⟩ := honly sent hsent hmakes
      have heq : sentSeq = seq := by
        simp only [optionSeq, hparsed, ← hpiv,
          OscoreSeqNum.fromPiv_encodePiv, Option.some.injEq] at hseq
        exact hseq
      rw [← heq]
      exact h.sent sent hsent (hside.trans side.other_other) sentSeq code
        classEOptions payload released hsent'

theorem Ahead.step
    (hmirror : ∀ side, (start side).Mirrors (start side.other).toMaterial)
    (hkeys : (start .a).senderKey ≠ (start .b).senderKey)
    (sys : Association C σ) (op : Side × Receiver.Op)
    (h : Sound S start sys ∧ Ahead K R start sys) (hideal : IdealAead sys op) :
    Sound S start (step S sys op) ∧ Ahead K R start (step S sys op) := by
  refine ⟨h.1.step hmirror hkeys sys op hideal, ?_⟩
  obtain ⟨actor, op⟩ := op
  by_cases hactor : actor = side
  · subst hactor
    exact h.2.send op
  · obtain rfl := Side.eq_other_of_ne hactor
    exact h.2.receive hmirror hkeys h.1 hideal

theorem boot_ahead (K : SenderContract (S side))
    (R : RecipientContract (S side.other)) (start : Side → Context C)
    (stores : Side → σ) (hsound : (start side).Sound)
    (hbehind : (start side.other).replay.Behind
      (ticketCounter (K.record (stores side) (start side).contextId))) :
    Ahead K R start (boot start stores) where
  orderly := by
    constructor
    · intro context sender hsession
      cases hsession
    · rintro _ ⟨⟩
      exact ⟨hsound, rfl⟩
  tracks := Receiver.tracks_run R (start side.other) (stores side.other) []
  sent := fun _ hr => absurd hr List.not_mem_nil
  behind := by
    have hwindow : ((boot start stores).parties
        side.other).snapshot.windows.replay = (start side.other).replay :=
      congrArg Windows.replay (windows_recipientReplayState _)
    rw [hwindow]
    exact hbehind

/-- Whatever was delivered so far, forged, repeated or reflected, and whatever
restarts lie between: while the sender holds a reservation, it can protect a
request with content that a receiver can hand out, and the other side, if it is
up, hands that request out as it was written.  The AEAD is ideal, and the sides
started mirrored, with keys of their own and no window ahead of the record. -/
theorem reserved_request_is_accepted (haead : C.AeadCorrect) (side : Side)
    (K : SenderContract (S side)) (R : RecipientContract (S side.other))
    (start : Side → Context C) (stores : Side → σ)
    (hmirror : (start .a).Mirrors (start .b).toMaterial)
    (hkeys : (start .a).senderKey ≠ (start .b).senderKey)
    (hsound : (start side).Sound)
    (hbehind : (start side.other).replay.Behind
      (ticketCounter (K.record (stores side) (start side).contextId)))
    (ops : List (Side × Receiver.Op))
    (hideal : History.Guarded (step S) IdealAead (boot start stores) ops)
    {context : Context C} {sender : ReservedSender} {peer : Session C}
    (hsession : ((History.run (step S) (boot start stores) ops).parties
      side).session = some ⟨context, .reserved sender⟩)
    (hpeer : ((History.run (step S) (boot start stores) ops).parties
      side.other).session = some peer)
    (code : UInt8) {classEOptions payload : Bytes}
    (hdeliverable : Context.Deliverable classEOptions payload) :
    ∃ message, sender.protectRequest context code classEOptions payload =
        .ok message ∧
      Context.Delivers (Context.unprotectRequest message.2.toList
        message.1.toList) peer.context code classEOptions payload := by
  have hmirrors : ∀ side,
      (start side).Mirrors (start side.other).toMaterial := by
    intro side
    cases side with
    | a => exact hmirror
    | b => exact hmirror.symm
  obtain ⟨hsoundAll, hahead⟩ :=
    History.invariant_of_guarded (Ahead.step hmirrors hkeys) hideal
      ⟨boot_sound start stores, boot_ahead K R start stores hsound hbehind⟩
  have hpair : context.Mirrors peer.context.toMaterial := by
    rw [hsoundAll.live side _ hsession, hsoundAll.live side.other _ hpeer]
    exact hmirrors side
  have hfresh : peer.context.replay.isReplay sender.sequence = false := by
    have hwindow := congrArg Windows.replay (hahead.tracks.up _ hpeer).1
    have hbehind := hahead.behind
    rw [Receiver.nextTicket_reserved hsession, ← hwindow] at hbehind
    exact hbehind.isReplay (Nat.le_refl _)
  obtain ⟨message, hprotect, hdelivers⟩ := Context.exists_delivered_request
    haead hpair sender.sequence code hdeliverable
  exact ⟨message, hprotect, hdelivers hfresh⟩

/-- The first exchange, its request once more, and the next reservation. -/
def replayed : List (Side × Receiver.Op) :=
  exchange ++
    [(.b, .act (.unprotectRequest [9, 0, 1]
      [1, 255, 97, 11, 110, 113, 63, 250, 235, 134, 48])),
    (.a, .act .reserve)]

theorem reserved_request_is_accepted_replayed :
    ∃ (context : Context Crypto.standIn) (sender : ReservedSender)
      (peer : Session Crypto.standIn) (message : Protected),
      sender.protectRequest context 1 [0xC1, 0xFF] [0x68, 0x69] =
        .ok message ∧
      Context.Delivers (Context.unprotectRequest message.2.toList
        message.1.toList) peer.context 1 [0xC1, 0xFF] [0x68, 0x69] := by
  let sys := History.run (step fun _ => memoryStore) (boot sampleStart
    fun _ => ⟨fun _ => some ⟨0, false⟩, fun _ => none⟩) replayed
  have hreserved : (sys.parties .a).session.bind Session.reservation? =
      some 1 := by
    decide +kernel
  obtain ⟨⟨context, borrow⟩, hsession, hborrow⟩ :=
    Option.bind_eq_some_iff.mp hreserved
  obtain ⟨peer, hpeer⟩ : ∃ peer, (sys.parties .b).session = some peer :=
    Option.isSome_iff_exists.mp (by decide +kernel)
  cases borrow with
  | reserved sender =>
      obtain ⟨message, hmessage⟩ := reserved_request_is_accepted
        Crypto.standIn_aeadCorrect .a memoryStoreSender memoryStoreRecipient
        sampleStart _ sampleMaterial.mirrors_mirror (by decide +kernel)
        (Context.sound_of_fresh rfl) (ReplayWindow.Behind.fresh _) replayed
        (by decide +kernel) hsession hpeer 1 Context.deliverable_sample
      exact ⟨context, sender, peer, message, hmessage⟩
  | free => cases hborrow
  | pending call response begun => cases hborrow

end Association

end Oscore
