/-
Every accepted request can be answered.  Its option yields the identifiers that
a response is bound to; and since a requester marks only PIVs that the responder
has spent, a response under the current reservation passes its windows, whatever
an attacker delivers.
-/
import Oscore.Admission
import Oscore.Matching
import Oscore.NonceSource

namespace Oscore

open Rust Rust.Call

/-! The identifiers of a request. -/

/-- `validate_option` -/
def validateOption (data : Bytes) : Outcome OscoreError Unit := do
  let _ ← parseOption data
  return ()

/-- Request identifiers needed to bind a response to its request. -/
structure RequestIdentifiers where
  kid : Bytes
  piv : Bytes
deriving DecidableEq

/-- `request_identifiers` -/
def requestIdentifiers (data : Bytes) :
    Outcome OscoreError RequestIdentifiers := do
  let option ← parseOption data
  failIf (option.kidPresent = false ∨ option.piv = []) .invalidParam
  return ⟨option.kid, option.piv⟩

theorem requestIdentifiers_eq_ok {data : Bytes} {ids : RequestIdentifiers} :
    requestIdentifiers data = .ok ids ↔ ∃ option,
      parseOption data = .ok option ∧ option.kidPresent = true ∧
        option.piv ≠ [] ∧ ids = ⟨option.kid, option.piv⟩ := by
  simp only [requestIdentifiers, Outcome.bind_eq_ok, failIf_eq_ok, not_or,
    Bool.not_eq_false]
  constructor
  · rintro ⟨option, hparsed, _, ⟨hpresent, hpiv⟩, hids⟩
    exact ⟨option, hparsed, hpresent, hpiv, (Except.ok.inj hids).symm⟩
  · rintro ⟨option, hparsed, hpresent, hpiv, rfl⟩
    exact ⟨option, hparsed, (), ⟨hpresent, hpiv⟩, rfl⟩

namespace Context

variable {C : Crypto}

/-- The option of an accepted request yields its identifiers. -/
theorem AcceptsRequest.requestIdentifiers {self : Context C}
    {oscoreOption ciphertext : Bytes} {opt : OscoreOption} {seq : OscoreSeqNum}
    {plaintext : HVec ptCap} {message : Message}
    (h : self.AcceptsRequest oscoreOption ciphertext opt seq plaintext
      message) :
    Oscore.requestIdentifiers oscoreOption =
      .ok ⟨self.recipientId, opt.piv⟩ :=
  requestIdentifiers_eq_ok.mpr
    ⟨opt, h.parsed, h.kidPresent, h.piv_ne, by rw [h.kid_eq]⟩

end Context

/-! The windows of received responses. -/

/-- Nothing from `bound` on was marked. -/
def ReuseWindow.Behind (w : ReuseWindow) (bound : Nat) : Prop :=
  w.initialized = false ∨ w.seq.get < bound

namespace ReuseWindow.Behind

variable {w : ReuseWindow} {bound : Nat}

theorem isReuse (h : w.Behind bound) {seq : OscoreSeqNum}
    (hseq : bound ≤ seq.get) : w.isReuse seq = false := by
  unfold ReuseWindow.isReuse
  rcases h with h | hlt
  · simp [h]
  · simp [show w.seq.get < seq.get by omega]

theorem mono (h : w.Behind bound) {next : Nat} (hle : bound ≤ next) :
    w.Behind next :=
  h.imp_right fun hlt => Nat.lt_of_lt_of_le hlt hle

theorem mark (h : w.Behind bound) {seq : OscoreSeqNum}
    (hseq : seq.get < bound) : (w.mark seq).Behind bound := by
  right
  unfold ReuseWindow.mark
  split
  · exact hseq
  · rename_i hinitialized
    have hlt : w.seq.get < bound :=
      h.resolve_left (by simpa using hinitialized)
    split
    · exact hseq
    · exact hlt

end ReuseWindow.Behind

/-! What an operation spends. -/

namespace Session

variable {C : Crypto} {σ ε : Type}

/-- Protecting a message under a reservation uses the reservation up. -/
theorem act_reserved (S : ContextStateStore σ ε) {context : Context C}
    {sender : ReservedSender} {action : Action} {s : Sealing} (store : σ)
    (h : sealing? ⟨context, .reserved sender⟩ action = some s) :
    ∃ event, act S ⟨context, .reserved sender⟩ store action =
      (⟨context, .free⟩, store, event) := by
  cases encrypts_of_sealing? h with
  | request | response =>
      simp only [act]
      split
      · exact ⟨_, rfl⟩
      · exact ⟨_, rfl⟩
  | unreserved _ _ _ _ _ _ _ _ _ holds => cases holds

/-- An encryption under the nonce of an own sequence spends a reservation of
that sequence, unless the operation takes it outside a reservation. -/
theorem reserved_of_ownNonce {session : Session C} {action : Action}
    {s : Sealing} (h : session.sealing? action = some s)
    (hown : ¬ action.TakesOwn) {seq : OscoreSeqNum}
    (hnonce : s.nonce = computeNonce session.context.senderId seq.encodePiv
      session.context.commonIv) :
    session.borrow = .reserved ⟨seq⟩ := by
  have hidle := session.context.senderId_le
  cases encrypts_of_sealing? h with
  | request sender code classEOptions payload holds ok =>
      obtain ⟨_, _, _, -, -, rfl⟩ := Context.sealing?_eq_some ok
      obtain ⟨-, rfl⟩ := computeNonce_injective hidle hidle hnonce
      exact holds
  | response sender code classEOptions payload requestKid requestPiv holds
      request ok =>
      obtain ⟨_, _, _, -, -, rfl⟩ := Context.sealing?_eq_some ok
      obtain ⟨-, rfl⟩ := computeNonce_injective hidle hidle hnonce
      exact holds
  | unreserved code classEOptions payload requestKid requestPiv includePiv
      noncePiv respSeq after holds request active allowed piv ok =>
      cases includePiv with
      | true => exact absurd trivial hown
      | false =>
          -- the nonce of a bare response is made from the other identifier
          obtain ⟨seq', hother⟩ := nonce_of_sealing? h
          obtain ⟨hid, -⟩ := computeNonce_injective hidle
            (session.nonceId_le _) (hnonce.symm.trans hother)
          exact absurd hid session.context.ids_ne

end Session

namespace Receiver

variable {C : Crypto} {σ ε : Type} {S : ContextStateStore σ ε}
  {K : SenderContract S} {r : Receiver C σ}

/-- The ticket of a reservation is spent by the encryption under it. -/
theorem Orderly.spends (h : Orderly K r) {context : Context C}
    {sender : ReservedSender} {action : Action} {s : Sealing}
    (hsession : r.session = some ⟨context, .reserved sender⟩)
    (hsealing : Session.sealing? ⟨context, .reserved sender⟩ action = some s) :
    sender.sequence.get < (step S r (.act action)).nextTicket K := by
  obtain ⟨event, hact⟩ := Session.act_reserved S r.store hsealing
  rw [step_act hsession, hact]
  have hticket : (r.acted ⟨context, .free⟩ r.store event).nextTicket K =
      r.counter K := nextTicket_of_not_reserved fun _ _ => nofun
  rw [hticket]
  exact h.reserved context sender hsession

/-- The step accepts a response with a PIV of its own. -/
structure TakesResponder (S : ContextStateStore σ ε) (r : Receiver C σ)
    (session : Session C) (action : Action) (call : ResponseCall)
    (message : Message) (seq : OscoreSeqNum) : Prop where
  holds : r.session = some session
  accepts : (session.act S r.store action).2.2 =
    some (.gotResponse call message)
  explicit : explicitPiv? call.oscoreOption = some seq.encodePiv
  marks : (step S r (.act action)).snapshot.windows.receivedResponsePiv =
    r.snapshot.windows.receivedResponsePiv.mark seq

theorem responders_step {R : RecipientContract S} {initial : ReuseWindow}
    (h : Tracks R initial r) (op : Op) :
    (step S r op).snapshot.windows.receivedResponsePiv =
        r.snapshot.windows.receivedResponsePiv ∨
      ∃ session action call message seq, op = .act action ∧
        TakesResponder S r session action call message seq := by
  cases op with
  | restart => exact Or.inl (by rw [(restart_keeps S r).1])
  | act action =>
      cases hsession : r.session with
      | none =>
          have hstep : step S r (.act action) = r := by
            simp only [step, hsession]
          exact Or.inl (by rw [hstep])
      | some session =>
          have hwindow := congrArg Windows.receivedResponsePiv
            (h.up session hsession).1
          have heffect := session.act_effect S r.store action
          generalize hresult : session.act S r.store action = result at heffect
          obtain ⟨session', store', event⟩ := result
          have hstep : step S r (.act action) = _ := step_act hsession action
          rw [hresult] at hstep
          cases heffect with
          | gotResponse call opt plaintext pending accepts holds =>
              rcases Context.explicitResponseSeq_eq_ok.mp
                accepts.responseSeq_eq with
                ⟨hnil, hnone⟩ | ⟨seq, hne, hseq, -, hsome⟩
              · left
                rw [hstep, windows_acted, ← hwindow]
                simp only [Context.windows, Context.acceptResponse, hnone]
              · refine Or.inr ⟨session, _, call, _, seq, rfl, hsession,
                  by rw [hresult], ?_, ?_⟩
                · simp only [explicitPiv?, accepts.parsed,
                    OscoreSeqNum.fromPiv_eq_some.mp hseq]
                  exact if_neg seq.encodePiv_ne_nil
                · rw [hstep, windows_acted, ← hwindow]
                  simp only [Context.windows, Context.acceptResponse, hsome]
          | skipped | freed | reserveFailed | tookOnly | began =>
              exact Or.inl (by rw [hstep]; rfl)
          | reserved | sentRequest | sentResponse | sentOwn | sentBare
          | gotRequest =>
              left
              rw [hstep, windows_acted]
              exact hwindow

end Receiver

namespace Association

variable {C : Crypto} {σ ε : Type} {S : Side → ContextStateStore σ ε}
  {start : Side → Context C} {side : Side}

/-- The operation takes a sequence of this side outside a reservation. -/
def TakesOwn (side : Side) : Side × Receiver.Op → Prop
  | (actor, .act action) => actor = side ∧ action.TakesOwn
  | (_, .restart) => False

/-- The tickets of one side against the sequences that it has encrypted under
and the ones that the other side marked in responses. -/
structure Spent (K : SenderContract (S side))
    (R : RecipientContract (S side.other)) (start : Side → Context C)
    (sys : Association C σ) : Prop where
  orderly : Receiver.Orderly K (sys.parties side)
  tracks : Receiver.Tracks R (start side.other).receivedResponse
    (sys.parties side.other)
  below : ∀ r ∈ sys.history, r.side = side → ∀ s, r.made? = some s →
    ∀ seq : OscoreSeqNum, s.nonce = computeNonce (start side).senderId
      seq.encodePiv (start side).commonIv →
      seq.get < (sys.parties side).nextTicket K
  behind : (sys.parties side.other).snapshot.windows.receivedResponsePiv.Behind
    ((sys.parties side).nextTicket K)

instance (side : Side) : DecidablePred (TakesOwn side)
  | (actor, .act action) =>
      inferInstanceAs (Decidable (actor = side ∧ action.TakesOwn))
  | (_, .restart) => inferInstanceAs (Decidable False)

variable {K : SenderContract (S side)} {R : RecipientContract (S side.other)}
  {sys : Association C σ}

theorem history_act {actor : Side} (action : Action) {session : Session C}
    (hsession : (sys.parties actor).session = some session) :
    (step S sys (actor, .act action)).history =
      ⟨actor, session, action, (session.act (S actor)
        (sys.parties actor).store action).2.2⟩ :: sys.history := by
  simp only [step, record?, hsession, Option.map_some, Option.toList_some,
    List.singleton_append]

/-- The responder takes a step. -/
theorem Spent.send (h : Spent K R start sys) (hsound : Sound S start sys)
    {op : Receiver.Op} (hown : ¬ TakesOwn side (side, op)) :
    Spent K R start (step S sys (side, op)) := by
  have hself : (step S sys (side, op)).parties side = _ :=
    parties_self sys side op
  have hother : (step S sys (side, op)).parties side.other = _ :=
    parties_other sys op side.other_ne
  have hkeep : Receiver.Orderly K ((sys.parties side).step (S side) op) →
      (sys.parties side).nextTicket K ≤
        ((sys.parties side).step (S side) op).nextTicket K →
      (∀ r ∈ (record? S sys side op).toList, ∀ s, r.made? = some s →
        ∀ seq : OscoreSeqNum, s.nonce = computeNonce (start side).senderId
          seq.encodePiv (start side).commonIv →
          seq.get < ((sys.parties side).step (S side) op).nextTicket K) →
      Spent K R start (step S sys (side, op)) := by
    intro horderly hle hnew
    constructor
    · rw [hself]
      exact horderly
    · rw [hother]
      exact h.tracks
    · intro r hr hside s hmade seq hnonce
      rw [hself]
      rcases List.mem_append.mp hr with hr | hr
      · exact hnew r hr s hmade seq hnonce
      · exact Nat.lt_of_lt_of_le (h.below r hr hside s hmade seq hnonce) hle
    · rw [hself, hother]
      exact h.behind.mono hle
  cases op with
  | restart =>
      obtain ⟨horderly, hle⟩ : Receiver.Orderly K _ ∧ _ := h.orderly.restart
      refine hkeep horderly hle fun r hr => ?_
      simp only [record?, Option.toList_none, List.not_mem_nil] at hr
  | act action =>
      cases hsession : (sys.parties side).session with
      | none =>
          rw [step_act_none action hsession]
          exact h
      | some session =>
          have heffect :=
            session.act_effect (S side) (sys.parties side).store action
          have hadvances := h.orderly.act hsession heffect
          rw [← Receiver.step_act hsession] at hadvances
          refine hkeep hadvances.orderly hadvances.le ?_
          intro r hr s hmade seq hnonce
          simp only [record?, hsession, Option.map_some, Option.toList_some,
            List.mem_singleton] at hr
          subst hr
          have hmaterial := hsound.live side session hsession
          rw [← hmaterial] at hnonce
          have hborrow := Session.reserved_of_ownNonce hmade
            (fun htakes => hown ⟨rfl, htakes⟩) hnonce
          obtain ⟨context, borrow⟩ := session
          obtain rfl : borrow = .reserved ⟨seq⟩ := hborrow
          exact h.orderly.spends hsession hmade

theorem side_of_deliveredFrom {r sent : Record C}
    (h : r.DeliveredFrom start sent) : sent.side = r.side.other := by
  cases h with
  | request _ _ _ _ _ _ side => exact side
  | response _ _ _ side => exact side

/-- The requester takes a step: a PIV that it accepts was encrypted under. -/
theorem Spent.receive
    (hmirror : ∀ side, (start side).Mirrors (start side.other).toMaterial)
    (hkeys : (start .a).senderKey ≠ (start .b).senderKey)
    (h : Spent K R start sys) (hsound : Sound S start sys)
    (hbacked : Backed sys) {op : Receiver.Op}
    (hideal : IdealAead sys (side.other, op)) :
    Spent K R start (step S sys (side.other, op)) := by
  have hself : (step S sys (side.other, op)).parties side.other = _ :=
    parties_self sys side.other op
  have hother : (step S sys (side.other, op)).parties side = _ :=
    parties_other sys op (Ne.symm side.other_ne)
  refine ⟨?_, ?_, ?_, ?_⟩
  · rw [hother]
    exact h.orderly
  · rw [hself]
    exact h.tracks.step op
  · intro r hr hside s hmade seq hnonce
    rw [hother]
    rcases List.mem_append.mp hr with hnew | hr
    · have hactor := side_of_record? hnew
      exact absurd (hactor.symm.trans hside) side.other_ne
    · exact h.below r hr hside s hmade seq hnonce
  · rw [hself, hother]
    rcases Receiver.responders_step h.tracks op with
      hsame | ⟨session, action, call, message, seq, rfl, htakes⟩
    · rw [hsame]
      exact h.behind
    · rw [htakes.marks]
      refine h.behind.mark ?_
      -- the response was opened before, and made before that
      have hnext := hsound.step hmirror hkeys sys _ hideal
      have hhistory := history_act (S := S) action htakes.holds
      obtain ⟨piv, s, htook⟩ := hnext.recorded.tookResponse
        (by rw [hhistory]; exact List.mem_cons_self) htakes.accepts
      obtain ⟨sent, hsent, hmade⟩ :=
        hbacked.made hideal htakes.holds htook.opened
      have hside := side_of_deliveredFrom (hnext.recorded.deliveredFrom hmirror
        hkeys (by rw [hhistory]; exact List.mem_cons_self)
        (by rw [hhistory]; exact List.mem_cons_of_mem _ hsent) htook.opened
        hmade)
      have hexplicit := htook.explicit.symm.trans htakes.explicit
      have hpiv : piv = seq.encodePiv := by
        split at hexplicit
        · cases hexplicit
        · exact Option.some.inj hexplicit
      refine h.below sent hsent (hside.trans side.other_other) s hmade seq ?_
      rw [htook.nonce, hpiv, responseNonce, if_pos seq.encodePiv_ne_nil,
        if_pos seq.encodePiv_ne_nil, ← (hmirror side).recipientId,
        ← (hmirror side).commonIv]

/-- The AEAD is ideal, and this side numbers its responses only under a
reservation. -/
def Reserves (side : Side) (sys : Association C σ) (op : Side × Receiver.Op) :
    Prop :=
  IdealAead sys op ∧ ¬ TakesOwn side op

instance (side : Side) (sys : Association C σ) (op : Side × Receiver.Op) :
    Decidable (Reserves side sys op) :=
  inferInstanceAs (Decidable (_ ∧ _))

theorem Spent.step
    (hmirror : ∀ side, (start side).Mirrors (start side.other).toMaterial)
    (hkeys : (start .a).senderKey ≠ (start .b).senderKey)
    (sys : Association C σ) (op : Side × Receiver.Op)
    (h : Sound S start sys ∧ Backed sys ∧ Spent K R start sys)
    (hop : Reserves side sys op) :
    Sound S start (step S sys op) ∧ Backed (step S sys op) ∧
      Spent K R start (step S sys op) := by
  obtain ⟨hsound, hbacked, hspent⟩ := h
  obtain ⟨hideal, hown⟩ := hop
  refine ⟨hsound.step hmirror hkeys sys op hideal, hbacked.step hideal, ?_⟩
  obtain ⟨actor, op⟩ := op
  by_cases hactor : actor = side
  · subst hactor
    exact hspent.send hsound hown
  · obtain rfl := Side.eq_other_of_ne hactor
    exact hspent.receive hmirror hkeys hsound hbacked hideal

theorem boot_spent (K : SenderContract (S side))
    (R : RecipientContract (S side.other)) (start : Side → Context C)
    (stores : Side → σ) (hsound : (start side).Sound)
    (hbehind : (start side.other).receivedResponsePiv.Behind
      (ticketCounter (K.record (stores side) (start side).contextId))) :
    Spent K R start (boot start stores) where
  orderly := by
    constructor
    · intro context sender hsession
      cases hsession
    · rintro _ ⟨⟩
      exact ⟨hsound, rfl⟩
  tracks := Receiver.tracks_run R (start side.other) (stores side.other) []
  below := fun _ hr => absurd hr List.not_mem_nil
  behind := by
    have hwindow : ((boot start stores).parties
        side.other).snapshot.windows.receivedResponsePiv =
          (start side.other).receivedResponsePiv :=
      congrArg Windows.receivedResponsePiv (windows_recipientReplayState _)
    rw [hwindow]
    exact hbehind

/-- An accepted request yields the identifiers of its sender and the PIV that
it was protected under. -/
theorem Sound.identifiers (h : Sound S start sys) {r : Record C}
    (hr : r ∈ sys.history) {oscoreOption ciphertext : Bytes} {message : Message}
    (hevent : r.event = some (.gotRequest oscoreOption ciphertext message)) :
    ∃ piv seq, requestIdentifiers oscoreOption =
        .ok ⟨(start r.side).recipientId, piv⟩ ∧
      OscoreSeqNum.fromPiv piv = some seq ∧
      ∃ sent ∈ sys.history, sent.side = r.side.other ∧
        sent.SentRequest piv ciphertext (plaintextOf message) := by
  have hmaterial := (h.recorded r hr).1
  obtain ⟨store, session', store', heffect⟩ := h.recorded.effect hr hevent
  obtain ⟨later, earlier, hsplit⟩ := List.append_of_mem hr
  obtain ⟨opt, s, hparsed, ⟨sent, hsent, hmakes⟩, honly⟩ :=
    (h.authentic later r earlier hsplit).request _ _ _ hevent
  generalize r.action = action at heffect
  cases heffect with
  | gotRequest _ _ opt' seq plaintext _ accepts holds =>
      cases Except.ok.inj (hparsed.symm.trans accepts.parsed)
      have hids := accepts.requestIdentifiers
      rw [congrArg Material.recipientId hmaterial] at hids
      refine ⟨opt.piv, seq, hids, accepts.seq_eq, sent, ?_,
        honly sent hsent hmakes⟩
      rw [hsplit]
      exact List.mem_append_right _ (List.mem_cons_of_mem _ hsent)

/-- The first exchange, and a reservation of its responder. -/
def answering : List (Side × Receiver.Op) :=
  exchange ++ [(.b, .act .reserve)]

end Association

end Oscore
