/-
Dialogues.  Two ends that are in step exchange requests, responses and
notifications that a receiver can hand out for as long as their sequence numbers
last, and each message is handed out as it was written.
-/
import Oscore.Answering
import Oscore.InStep
import Oscore.Lib.Metered

namespace Oscore

open Rust Rust.Call Metered

/-- A message before it is protected. -/
structure Content where
  code : UInt8
  classEOptions : Bytes
  payload : Bytes
deriving DecidableEq

def Content.of (message : Message) : Content :=
  ⟨message.1, message.2.1.toList, message.2.2.toList⟩

/-- The receiver can hand this out. -/
def Content.Deliverable (content : Content) : Prop :=
  Context.Deliverable content.classEOptions content.payload

instance (content : Content) : Decidable content.Deliverable :=
  decidable_of_iff
    (parseInnerBody content.classEOptions = .ok (content.classEOptions, []) ∧
      content.classEOptions.length ≤ outCap ∧
      content.payload.length ≤ outCap ∧
      1 + content.classEOptions.length +
        (if content.payload = [] then 0 else 1 + content.payload.length) ≤
          ptCap)
    ⟨fun ⟨h, hoptions, hpayload, hplaintext⟩ =>
      ⟨h, hoptions, hpayload, hplaintext⟩,
      fun h => ⟨h.options, h.options_le, h.payload_le, h.plaintext_le⟩⟩

/-- A response without a PIV, a response under a reservation, or a notification,
which is under a reservation too. -/
inductive Reply where
  | bare (content : Content)
  | numbered (content : Content)
  | notification (content : Content)

namespace Reply

def content : Reply → Content
  | .bare content | .numbered content | .notification content => content

/-- The one answer that the requester waits for. -/
def ordinary : Reply → Bool
  | .bare _ | .numbered _ => true
  | .notification _ => false

/-- What the reply takes from the sequences of requester and responder. -/
def charge (reply : Reply) : Side → Nat
  | .a => 0
  | .b => match reply with
    | .bare _ => 0
    | .numbered _ | .notification _ => 1

structure Lawful (reply : Reply) : Prop where
  deliverable : reply.content.Deliverable
  code : isResponseCode reply.content.code = true

instance (reply : Reply) : Decidable reply.Lawful :=
  decidable_of_iff (reply.content.Deliverable ∧
    isResponseCode reply.content.code = true)
    ⟨fun ⟨h, hcode⟩ => ⟨h, hcode⟩, fun h => ⟨h.deliverable, h.code⟩⟩

end Reply

/-- A request and what comes back for it. -/
structure Turn where
  requester : Side
  request : Content
  replies : List Reply

namespace Turn

/-- What a turn hands out: the request at one end, the replies at the other. -/
def contents (turn : Turn) : Content × List Content :=
  (turn.request, turn.replies.map Reply.content)

/-- What the turn takes from the sequences of a side. -/
def charge (turn : Turn) (side : Side) : Nat :=
  if side = turn.requester then 1 else total Reply.charge turn.replies .b

/-- Receivers can hand out the messages, and at most one reply is not a
notification. -/
structure Lawful (turn : Turn) : Prop where
  request : turn.request.Deliverable
  replies : ∀ reply ∈ turn.replies, reply.Lawful
  once : turn.replies.countP Reply.ordinary ≤ 1

instance (turn : Turn) : Decidable turn.Lawful :=
  decidable_of_iff (turn.request.Deliverable ∧
    (∀ reply ∈ turn.replies, reply.Lawful) ∧
    turn.replies.countP Reply.ordinary ≤ 1)
    ⟨fun ⟨h, hreplies, honce⟩ => ⟨h, hreplies, honce⟩,
      fun h => ⟨h.request, h.replies, h.once⟩⟩

end Turn

/-! The calls of a dialogue.  An error ends it. -/

namespace Dialogue

variable {S T ε α : Type}

def attempt (call : EStateM ε S α) : StateT S Option α := fun s =>
  match call.run s with
  | .ok value t => some (value, t)
  | .error _ _ => none

def onFirst (action : StateT S Option α) : StateT (S × T) Option α :=
  fun (s, t) => (action.run s).map fun (value, s) => (value, s, t)

def onSecond (action : StateT T Option α) : StateT (S × T) Option α :=
  fun (s, t) => (action.run t).map fun (value, t) => (value, s, t)

/-- The action with its two states exchanged. -/
def swapped (action : StateT (T × S) Option α) : StateT (S × T) Option α :=
  fun (s, t) => (action.run (t, s)).map fun (value, t, s) => (value, s, t)

theorem attempt_of_ok {call : EStateM ε S α} {s t : S} {value : α}
    (h : call.run s = .ok value t) : (attempt call).run s = some (value, t) := by
  simp only [attempt, StateT.run, h]

theorem attempt_of_error {call : EStateM ε S α} {s t : S} {error : ε}
    (h : call.run s = .error error t) : (attempt call).run s = none := by
  simp only [attempt, StateT.run, h]

@[simp]
theorem onFirst_run (action : StateT S Option α) (s : S) (t : T) :
    (onFirst action).run (s, t) =
      (action.run s).map fun (value, s) => (value, s, t) := rfl

@[simp]
theorem onSecond_run (action : StateT T Option α) (s : S) (t : T) :
    (onSecond action).run (s, t) =
      (action.run t).map fun (value, t) => (value, s, t) := rfl

@[simp]
theorem swapped_run (action : StateT (T × S) Option α) (s : S) (t : T) :
    (swapped action).run (s, t) =
      (action.run (t, s)).map fun (value, t, s) => (value, s, t) := rfl

end Dialogue

/-- A context with its store. -/
abbrev Party (C : Crypto) (σ : Type) := Context C × σ

namespace Dialogue

open Context

variable {C : Crypto} {σ τ ε : Type}

/-- Reserve a sequence and protect a request under it. -/
def sendRequest (S : ContextStateStore σ ε) (content : Content) :
    StateT (Party C σ) Option Protected := do
  let sender ← attempt (reserveSender S)
  let (context, _) ← get
  (sender.protectRequest context content.code content.classEOptions
    content.payload).toOption

/-- Reserve a sequence and protect a response under it. -/
def sendReserved (S : ContextStateStore σ ε) (ids : RequestIdentifiers)
    (content : Content) : StateT (Party C σ) Option Protected := do
  let sender ← attempt (reserveSender S)
  let (context, _) ← get
  (sender.protectResponseWithPiv context content.code content.classEOptions
    content.payload ids.kid ids.piv).toOption

def receive (call : Call (Context C) OscoreError Message) :
    StateT (Party C σ) Option Content :=
  onFirst (Content.of <$> attempt call)

/-- The request of a turn: the requester sends, the responder receives. -/
def request (S : ContextStateStore σ ε) (content : Content) :
    StateT (Party C σ × Party C τ) Option (Content × RequestIdentifiers) := do
  let message ← onFirst (sendRequest S content)
  let received ← onSecond
    (receive (unprotectRequest message.2.toList message.1.toList))
  let ids ← (requestIdentifiers message.2.toList).toOption
  return (received, ids)

def replyBare (ids : RequestIdentifiers) (content : Content) :
    StateT (Party C σ × Party C τ) Option Content := do
  let message ← onSecond (onFirst (attempt (protectResponse content.code
    content.classEOptions content.payload ids.kid ids.piv false)))
  onFirst (receive (receiveResponse message.2.toList message.1.toList ids.piv
    false))

def replyReserved (S : ContextStateStore τ ε) (ids : RequestIdentifiers)
    (observe : Bool) (content : Content) :
    StateT (Party C σ × Party C τ) Option Content := do
  let message ← onSecond (sendReserved S ids content)
  onFirst (receive (receiveResponse message.2.toList message.1.toList ids.piv
    observe))

/-- A reply of a turn: the responder sends, the requester receives. -/
def reply (S : ContextStateStore τ ε) (ids : RequestIdentifiers) :
    Reply → StateT (Party C σ × Party C τ) Option Content
  | .bare content => replyBare ids content
  | .numbered content => replyReserved S ids false content
  | .notification content => replyReserved S ids true content

/-- A turn whose requester is the first party. -/
def exchange (S : ContextStateStore σ ε) (T : ContextStateStore τ ε)
    (content : Content) (replies : List Reply) :
    StateT (Party C σ × Party C τ) Option (Content × List Content) := do
  let (received, ids) ← request S content
  let answers ← replies.mapM (reply T ids)
  return (received, answers)

def turn (S : ContextStateStore σ ε) (T : ContextStateStore τ ε)
    (turn : Turn) :
    StateT (Party C σ × Party C τ) Option (Content × List Content) :=
  match turn.requester with
  | .a => exchange S T turn.request turn.replies
  | .b => swapped (exchange T S turn.request turn.replies)

/-- The turns of a dialogue, with what they hand out. -/
def run (S : ContextStateStore σ ε) (T : ContextStateStore τ ε)
    (turns : List Turn) :
    StateT (Party C σ × Party C τ) Option (List (Content × List Content)) :=
  turns.mapM (turn S T)

/-! Parties in step. -/

end Dialogue

namespace Context

variable {C : Crypto}

/-- The ticket that the context reserves next. -/
def ticket (self : Context C) : Nat :=
  ticketCounter (some self.senderSequenceState)

theorem ticket_of_open {self : Context C}
    (h : self.senderSeqExhausted = false) :
    self.ticket = self.senderSeq.get := by
  simp [ticket, ticketCounter, senderSequenceState, h]

theorem ticket_of_exhausted {self : Context C}
    (h : self.senderSeqExhausted = true) : self.ticket = seqMax + 1 := by
  simp [ticket, ticketCounter, senderSequenceState, h]

theorem ticket_le (self : Context C) : self.ticket ≤ seqMax + 1 := by
  cases h : self.senderSeqExhausted with
  | false =>
      rw [ticket_of_open h]
      exact Nat.le_succ_of_le self.senderSeq.le_max
  | true => rw [ticket_of_exhausted h]

theorem ticket_reserved (self : Context C) :
    self.reserved.ticket = self.senderSeq.get + 1 := by
  rw [ticket, senderSequenceState_reserved, ticketCounter_nextSenderState]

/-- A ticket is left exactly if the context is not exhausted. -/
theorem ticket_lt_iff {self : Context C} :
    self.ticket + 1 ≤ seqMax + 1 ↔ self.senderSeqExhausted = false := by
  cases h : self.senderSeqExhausted with
  | false =>
      rw [ticket_of_open h]
      exact iff_of_true (Nat.succ_le_succ self.senderSeq.le_max) rfl
  | true =>
      rw [ticket_of_exhausted h]
      exact iff_of_false (by omega) (by decide)

end Context

namespace Dialogue

open Context

variable {C : Crypto} {σ τ ε : Type} {S : ContextStateStore σ ε}
  {T : ContextStateStore τ ε} {K : SenderContract S} {L : SenderContract T}

/-- The party is active, and its record says what it has in memory. -/
structure Standing (K : SenderContract S) (party : Party C σ) : Prop where
  active : party.1.active = true
  allowed : party.1.allowNoPivResponse = true
  recorded : K.record party.2 party.1.contextId =
    some party.1.senderSequenceState

/-- Nothing is marked at or above the ticket of the party: of its requests by
the peer, which accepts and answers them, and by itself, when it is answered;
nor of its responses by the peer. -/
structure Heading (K : SenderContract S) (party : Party C σ)
    (peer : Context C) : Prop extends Standing K party where
  requests : peer.replay.Behind party.1.ticket
  answers : peer.response.Behind party.1.ticket
  answered : party.1.receivedResponse.Behind party.1.ticket
  responses : peer.receivedResponsePiv.Behind party.1.ticket

/-- The two parties can talk. -/
structure Ready (K : SenderContract S) (L : SenderContract T)
    (s : Party C σ × Party C τ) : Prop where
  mirrors : s.1.1.Mirrors s.2.1.toMaterial
  out : Heading K s.1 s.2.1
  back : Heading L s.2 s.1.1

theorem Ready.swap {s : Party C σ} {t : Party C τ} (h : Ready K L (s, t)) :
    Ready L K (t, s) :=
  ⟨h.mirrors.symm, h.back, h.out⟩

def tickets (s : Party C σ × Party C τ) : Side → Nat
  | .a => s.1.1.ticket
  | .b => s.2.1.ticket

theorem tickets_le (s : Party C σ × Party C τ) (side : Side) :
    tickets s side ≤ seqMax + 1 := by
  cases side with
  | a => exact s.1.1.ticket_le
  | b => exact s.2.1.ticket_le

/-- A party that is not exhausted reserves its ticket. -/
theorem Standing.reserve (hnever : K.NeverFails) {self : Context C} {s : σ}
    (h : Standing K (self, s)) (hopen : self.senderSeqExhausted = false) :
    ∃ t, (attempt (reserveSender S)).run (self, s) =
        some (⟨self.senderSeq⟩, self.reserved, t) ∧
      Standing K (self.reserved, t) := by
  obtain ⟨swapped, t, hswap, htrue⟩ := hnever self.contextId
    (some self.senderSequenceState) (nextSenderState self.senderSeq) s
  rw [htrue h.recorded] at hswap
  refine ⟨t, attempt_of_ok (reserveSender_eq_ok.mpr
    ⟨h.active, hopen, hswap, rfl, rfl⟩), h.active, h.allowed, ?_⟩
  obtain ⟨-, hrecord⟩ := K.swap_true _ _ _ _ _ hswap
  rw [hrecord, senderSequenceState_reserved]
  exact Function.update_self ..

theorem reserve_exhausted {self : Context C} {s : σ}
    (h : self.senderSeqExhausted = true) :
    (attempt (reserveSender S)).run (self, s) = none := by
  cases hrun : (reserveSender S).run (self, s) with
  | ok sender after =>
      obtain ⟨context, t⟩ := after
      obtain ⟨-, hopen, -⟩ := reserveSender_eq_ok.mp hrun
      rw [h] at hopen
      cases hopen
  | error fault after => exact attempt_of_error hrun

/-! What the calls leave. -/

theorem Ready.reserved {x : Context C} {s t : σ} {q : Party C τ}
    (h : Ready K L ((x, s), q)) (hopen : x.senderSeqExhausted = false)
    (hstanding : Standing K (x.reserved, t)) :
    Ready K L ((x.reserved, t), q) := by
  have hle : x.ticket ≤ x.reserved.ticket := by
    rw [ticket_of_open hopen, ticket_reserved]
    exact Nat.le_succ _
  exact ⟨h.mirrors, ⟨hstanding, h.out.requests.mono hle, h.out.answers.mono hle,
    h.out.answered.mono hle, h.out.responses.mono hle⟩, ⟨h.back.toStanding,
    h.back.requests, h.back.answers, h.back.answered, h.back.responses⟩⟩

theorem Ready.acceptRequest {p : Party C σ} {y : Context C} {t : τ}
    (h : Ready K L (p, y, t)) {seq : OscoreSeqNum}
    (hseq : seq.get < p.1.ticket) :
    Ready K L (p, y.acceptRequest seq, t) :=
  ⟨h.mirrors, ⟨h.out.toStanding, h.out.requests.update hseq, h.out.answers,
    h.out.answered, h.out.responses⟩, ⟨⟨h.back.active, h.back.allowed,
    h.back.recorded⟩, h.back.requests, h.back.answers, h.back.answered,
    h.back.responses⟩⟩

theorem Ready.answered {p : Party C σ} {y : Context C} {t : τ}
    (h : Ready K L (p, y, t)) {seq : OscoreSeqNum}
    (hseq : seq.get < p.1.ticket) : Ready K L (p, y.answered seq, t) :=
  ⟨h.mirrors, ⟨h.out.toStanding, h.out.requests, h.out.answers.mark hseq,
    h.out.answered, h.out.responses⟩, ⟨⟨h.back.active, h.back.allowed,
    h.back.recorded⟩, h.back.requests, h.back.answers, h.back.answered,
    h.back.responses⟩⟩

theorem Ready.acceptResponse {x : Context C} {s : σ} {q : Party C τ}
    (h : Ready K L ((x, s), q)) {pending : PendingResponse}
    (hrequest : pending.requestSeq.get < x.ticket)
    (hresponse : ∀ seq, pending.responseSeq = some seq →
      seq.get < q.1.ticket) :
    Ready K L ((x.acceptResponse pending, s), q) := by
  have hanswered : (x.acceptResponse pending).receivedResponse.Behind
      x.ticket := by
    simp only [Context.acceptResponse]
    split
    · exact h.out.answered.mark hrequest
    · exact h.out.answered
  have hnumbers : (x.acceptResponse pending).receivedResponsePiv.Behind
      q.1.ticket := by
    simp only [Context.acceptResponse]
    cases hseq : pending.responseSeq with
    | none => exact h.back.responses
    | some seq => exact h.back.responses.mark (hresponse seq hseq)
  exact ⟨h.mirrors, ⟨⟨h.out.active, h.out.allowed, h.out.recorded⟩,
    h.out.requests, h.out.answers, hanswered, h.out.responses⟩,
    ⟨h.back.toStanding, h.back.requests, h.back.answers, h.back.answered,
      hnumbers⟩⟩

/-- A request with this sequence was accepted, and these replies to it are still
to come. -/
structure Awaits (K : SenderContract S) (L : SenderContract T) (kid : Bytes)
    (seq : OscoreSeqNum) (replies : List Reply)
    (s : Party C σ × Party C τ) : Prop extends Ready K L s where
  kid_eq : kid = s.2.1.recipientId
  sent : seq.get < s.1.1.ticket
  lawful : ∀ reply ∈ replies, reply.Lawful
  once : replies.countP Reply.ordinary ≤ 1
  unanswered : 0 < replies.countP Reply.ordinary →
    s.1.1.receivedResponse.isReuse seq = false ∧
      s.2.1.response.isReuse seq = false

theorem content_of_delivers {received : Message} {content : Content}
    (h : received.1 = content.code ∧
      received.2.1.toList = content.classEOptions ∧
      received.2.2.toList = content.payload) :
    Content.of received = content := by
  obtain ⟨hcode, hoptions, hpayload⟩ := h
  rw [Content.of, hcode, hoptions, hpayload]

theorem receive_run {call : Call (Context C) OscoreError Message}
    {x after : Context C} {received : Message} (s : σ)
    (h : call.run x = .ok received after) :
    (receive call).run (x, s) = some (Content.of received, after, s) := by
  simp only [receive, onFirst_run, StateT.run_map, attempt_of_ok h,
    Option.map_eq_map, Option.map_some]

theorem sendRequest_run {x after : Context C} {s t : σ} {content : Content}
    {sender : ReservedSender} {message : Protected}
    (hreserve : (attempt (reserveSender S)).run (x, s) =
      some (sender, after, t))
    (hprotect : sender.protectRequest after content.code content.classEOptions
      content.payload = .ok message) :
    (sendRequest S content).run (x, s) = some (message, after, t) := by
  simp only [sendRequest, StateT.run_bind, hreserve, Option.bind_eq_bind,
    Option.bind_some, StateT.run_get, Option.pure_def, hprotect]
  rfl

theorem sendReserved_run (ids : RequestIdentifiers) (content : Content)
    {x after : Context C} {s t : σ} {sender : ReservedSender}
    {message : Protected} (hreserve : (attempt (reserveSender S)).run (x, s) =
      some (sender, after, t))
    (hprotect : sender.protectResponseWithPiv after content.code
      content.classEOptions content.payload ids.kid ids.piv = .ok message) :
    (sendReserved S ids content).run (x, s) = some (message, after, t) := by
  simp only [sendReserved, StateT.run_bind, hreserve, Option.bind_eq_bind,
    Option.bind_some, StateT.run_get, Option.pure_def, hprotect]
  rfl

theorem sendRequest_exhausted {x : Context C} (s : σ) (content : Content)
    (h : x.senderSeqExhausted = true) :
    (sendRequest S content).run (x, s) = none := by
  simp only [sendRequest, StateT.run_bind, reserve_exhausted h,
    Option.bind_eq_bind, Option.bind_none]

theorem sendReserved_exhausted {x : Context C} (s : σ)
    (ids : RequestIdentifiers) (content : Content)
    (h : x.senderSeqExhausted = true) :
    (sendReserved S ids content).run (x, s) = none := by
  simp only [sendReserved, StateT.run_bind, reserve_exhausted h,
    Option.bind_eq_bind, Option.bind_none]

/-! The calls of a turn. -/

/-- What the receiver of an honest request has read from it. -/
theorem accepted_request {x y after : Context C} {seq : OscoreSeqNum}
    {content : Content} {message : Protected} {received : Message}
    (hprotect : x.protectRequestReserved seq content.code
      content.classEOptions content.payload = .ok message)
    (hrun : (unprotectRequest message.2.toList message.1.toList).run y =
      .ok received after) :
    after = y.acceptRequest seq ∧ requestIdentifiers message.2.toList =
      .ok ⟨y.recipientId, seq.encodePiv⟩ := by
  obtain ⟨-, hoption⟩ := protectRequestReserved_eq_ok.mp hprotect
  have hparsed := parseOption_request seq x.idContext_le x.senderId_le
  rw [← requestOption_eq_ok.mp hoption] at hparsed
  obtain ⟨opt, seq', plaintext, haccepts, rfl⟩ :=
    unprotectRequest_eq_ok.mp hrun
  have hids := haccepts.requestIdentifiers
  have hseq := haccepts.seq_eq
  rw [← Except.ok.inj (hparsed.symm.trans haccepts.parsed)] at hids hseq
  rw [OscoreSeqNum.fromPiv_encodePiv] at hseq
  exact ⟨by rw [Option.some.inj hseq], hids⟩

def requestCharge : Side → Nat
  | .a => 1
  | .b => 0

/-- A request gets through as long as its sender has a ticket. -/
theorem request_charged (hnever : K.NeverFails) (haead : C.AeadCorrect)
    {turn : Turn} (hlawful : turn.Lawful) {s : Party C σ × Party C τ}
    (h : Ready K L s) :
    Charged (seqMax + 1) tickets requestCharge
      (turn.request, ⟨s.2.1.recipientId, s.1.1.senderSeq.encodePiv⟩) (· = s)
      (Awaits K L s.2.1.recipientId s.1.1.senderSeq turn.replies)
      (request S turn.request) := by
  obtain ⟨⟨x, s⟩, y, t⟩ := s
  constructor
  · rintro _ rfl hfits
    have hopen := ticket_lt_iff.mp (hfits .a)
    have hticket : x.ticket = x.senderSeq.get := ticket_of_open hopen
    obtain ⟨u, hreserve, hstanding⟩ :=
      (show Standing K (x, s) from h.out.toStanding).reserve hnever hopen
    have hready := h.reserved hopen hstanding
    obtain ⟨message, hprotect, hdelivers⟩ := exists_delivered_request haead
      hready.mirrors x.senderSeq turn.request.code hlawful.request
    obtain ⟨received, after, hrun, hcontent⟩ :=
      hdelivers (h.out.requests.isReplay (Nat.le_of_eq hticket))
    obtain ⟨rfl, hids⟩ := accepted_request hprotect hrun
    have hsent : x.senderSeq.get < x.reserved.ticket := by
      rw [ticket_reserved]
      exact Nat.lt_succ_self _
    refine ⟨((x.reserved, u), y.acceptRequest x.senderSeq, t), ?_, ?_, ?_⟩
    · simp only [request, StateT.run_bind, onFirst_run,
        sendRequest_run hreserve hprotect, Option.map_some,
        Option.bind_eq_bind, Option.bind_some, onSecond_run,
        receive_run t hrun, hids, content_of_delivers hcontent]
      rfl
    · refine ⟨hready.acceptRequest hsent, rfl, hsent, hlawful.replies,
        hlawful.once, fun _ => ⟨h.out.answered.isReuse ?_,
          h.out.answers.isReuse ?_⟩⟩
      · exact Nat.le_of_eq hticket
      · exact Nat.le_of_eq hticket
    · intro side
      cases side with
      | a => exact (ticket_reserved x).trans (congrArg (· + 1) hticket.symm)
      | b => rfl
  · rintro _ rfl hfits
    have hexhausted : x.senderSeqExhausted = true := by
      by_contra hopen
      refine hfits fun side => ?_
      cases side with
      | a => exact ticket_lt_iff.mpr (Bool.not_eq_true _ ▸ hopen)
      | b => exact y.ticket_le
    simp only [request, StateT.run_bind, onFirst_run,
      sendRequest_exhausted s turn.request hexhausted, Option.map_none,
      Option.bind_eq_bind, Option.bind_none]

/-- What the receiver of a response has read from it. -/
theorem accepted_response {x after : Context C} {seq : OscoreSeqNum}
    {oscoreOption ciphertext : Bytes} {observe : Bool} {opt : OscoreOption}
    {received : Message} (hparsed : parseOption oscoreOption = .ok opt)
    (hrun : (receiveResponse oscoreOption ciphertext seq.encodePiv
      observe).run x = .ok received after) :
    ∃ pending, after = x.acceptResponse pending ∧ pending.requestSeq = seq ∧
      pending.markRequestUsed = !observe ∧
      x.explicitResponseSeq opt.piv = .ok pending.responseSeq := by
  have hbind : ∃ pending between, (beginUnprotectResponseMode oscoreOption
      ciphertext seq.encodePiv observe).run x = .ok pending between ∧
        pending.commit.run between = .ok received after := by
    cases observe with
    | false => exact Call.bind_eq_ok.mp hrun
    | true => exact Call.bind_eq_ok.mp hrun
  obtain ⟨pending, between, hbegin, hcommit⟩ := hbind
  obtain ⟨opt', plaintext, haccepts, rfl⟩ :=
    beginUnprotectResponseMode_eq_ok.mp hbegin
  obtain ⟨-, -, rfl⟩ := commit_eq_ok.mp hcommit
  have hseq := haccepts.requestSeq_eq
  rw [OscoreSeqNum.fromPiv_encodePiv] at hseq
  have hresponse := haccepts.responseSeq_eq
  rw [Except.ok.inj (haccepts.parsed.symm.trans hparsed)] at hresponse
  exact ⟨pending, rfl, (Option.some.inj hseq).symm, haccepts.marks, hresponse⟩

/-- After an ordinary reply no other is to come. -/
theorem Awaits.tail {kid : Bytes} {seq : OscoreSeqNum} {op : Reply}
    {replies : List Reply} {s t : Party C σ × Party C τ}
    (h : Awaits K L kid seq (op :: replies) s) (hready : Ready K L t)
    (hkid : t.2.1.recipientId = s.2.1.recipientId)
    (hsent : s.1.1.ticket ≤ t.1.1.ticket)
    (hkept : op.ordinary = false →
      t.1.1.receivedResponse = s.1.1.receivedResponse ∧
        t.2.1.response = s.2.1.response) :
    Awaits K L kid seq replies t := by
  have hcount : (op :: replies).countP Reply.ordinary =
      replies.countP Reply.ordinary + if op.ordinary = true then 1 else 0 :=
    List.countP_cons
  have honce := h.once
  rw [hcount] at honce
  refine ⟨hready, h.kid_eq.trans hkid.symm, Nat.lt_of_lt_of_le h.sent hsent,
    fun reply hreply => h.lawful reply (List.mem_cons_of_mem _ hreply),
    by omega, fun hmore => ?_⟩
  have hother : op.ordinary = false := by
    by_contra hordinary
    rw [if_pos (Bool.not_eq_false _ ▸ hordinary)] at honce
    omega
  obtain ⟨hreceived, hresponse⟩ := hkept hother
  rw [hreceived, hresponse]
  exact h.unanswered (by rw [hcount]; omega)

/-- A reply under a reservation gets through as long as the responder has a
ticket. -/
theorem replyReserved_charged (hnever : L.NeverFails) (haead : C.AeadCorrect)
    {kid : Bytes} {seq : OscoreSeqNum} {op : Reply} {replies : List Reply}
    {observe : Bool} (hcharge : op.charge .b = 1)
    (hordinary : op.ordinary = !observe) :
    Charged (seqMax + 1) tickets op.charge op.content
      (Awaits K L kid seq (op :: replies)) (Awaits K L kid seq replies)
      (replyReserved (C := C) T ⟨kid, seq.encodePiv⟩ observe op.content) := by
  constructor
  · rintro ⟨⟨x, s⟩, y, t⟩ h hfits
    obtain rfl : kid = y.recipientId := h.kid_eq
    have hopen : y.senderSeqExhausted = false := by
      have hleft := hfits .b
      rw [hcharge] at hleft
      exact ticket_lt_iff.mp hleft
    have hticket : y.ticket = y.senderSeq.get := ticket_of_open hopen
    have hlawful := h.lawful op List.mem_cons_self
    obtain ⟨u, hreserve, hstanding⟩ :=
      (show Standing L (y, t) from h.back.toStanding).reserve hnever hopen
    have hready : Ready K L ((x, s), y.reserved, u) :=
      (h.toReady.swap.reserved hopen hstanding).swap
    have hmatches : ¬ y.reserved.badRequest y.recipientId seq.encodePiv :=
      not_badRequest seq.fromPiv_encodePiv
    obtain ⟨message, hprotect⟩ := exists_protectResponseWithReservedPiv haead
      y.senderSeq op.content.code hmatches hlawful.deliverable.required
    obtain ⟨-, hseal, hoption⟩ :=
      protectResponseWithReservedPiv_eq_ok.mp hprotect
    have hfresh : observe = false →
        x.receivedResponse.isReuse seq = false := by
      rintro rfl
      refine (h.unanswered ?_).1
      rw [List.countP_cons_of_pos hordinary]
      exact Nat.succ_pos _
    obtain ⟨received, after, hrun, hcontent⟩ := delivers_own_piv haead
      hready.mirrors.symm observe hlawful.deliverable hseal hoption
      hlawful.code seq.fromPiv_encodePiv hfresh
      (h.back.responses.isReuse (Nat.le_of_eq hticket))
    have hparsed := parseOption_response y.senderSeq
    rw [← responseOption_eq_ok.mp hoption] at hparsed
    obtain ⟨pending, rfl, rfl, hmarks, hresponse⟩ :=
      accepted_response hparsed hrun
    have hnumber : ∀ number, pending.responseSeq = some number →
        number.get < y.reserved.ticket := by
      intro number hsome
      rcases explicitResponseSeq_eq_ok.mp hresponse with
        ⟨hnil, -⟩ | ⟨number', -, hseq, -, hsome'⟩
      · exact absurd hnil y.senderSeq.encodePiv_ne_nil
      · rw [OscoreSeqNum.fromPiv_encodePiv] at hseq
        cases hsome.symm.trans hsome'
        rw [← Option.some.inj hseq, ticket_reserved]
        exact Nat.lt_succ_self _
    refine ⟨((x.acceptResponse pending, s), y.reserved, u), ?_, ?_, ?_⟩
    · have hsent := sendReserved_run
        ⟨y.recipientId, pending.requestSeq.encodePiv⟩ op.content hreserve
        hprotect
      simp only [replyReserved, StateT.run_bind, onSecond_run, hsent,
        Option.map_some,
        Option.bind_eq_bind, Option.bind_some, onFirst_run,
        receive_run s hrun, content_of_delivers hcontent]
    · refine h.tail (hready.acceptResponse h.sent hnumber) rfl (Nat.le_refl _)
        fun hother => ⟨?_, rfl⟩
      rw [hother] at hordinary
      simp only [Context.acceptResponse, hmarks, ← hordinary,
        Bool.false_eq_true, ↓reduceIte]
    · intro side
      cases side with
      | a => rfl
      | b =>
          rw [hcharge]
          exact (ticket_reserved y).trans (congrArg (· + 1) hticket.symm)
  · rintro ⟨⟨x, s⟩, y, t⟩ h hfits
    have hexhausted : y.senderSeqExhausted = true := by
      by_contra hopen
      refine hfits fun side => ?_
      cases side with
      | a => exact x.ticket_le
      | b =>
          rw [hcharge]
          exact ticket_lt_iff.mpr (Bool.not_eq_true _ ▸ hopen)
    simp only [replyReserved, StateT.run_bind, onSecond_run,
      sendReserved_exhausted t _ op.content hexhausted, Option.map_none,
      Option.bind_eq_bind, Option.bind_none]

/-- A reply without a PIV gets through. -/
theorem replyBare_charged (haead : C.AeadCorrect) {kid : Bytes}
    {seq : OscoreSeqNum} {content : Content} {replies : List Reply} :
    Charged (seqMax + 1) tickets (Reply.bare content).charge content
      (Awaits K L kid seq (.bare content :: replies))
      (Awaits K L kid seq replies)
      (replyBare (C := C) ⟨kid, seq.encodePiv⟩ content) := by
  refine charged_of_free (fun side => by cases side <;> rfl)
    (fun s _ => tickets_le s) ?_
  rintro ⟨⟨x, s⟩, y, t⟩ h
  obtain rfl : kid = y.recipientId := h.kid_eq
  obtain ⟨hdeliverable, hcode⟩ : content.Deliverable ∧
      isResponseCode content.code = true :=
    ⟨(h.lawful _ List.mem_cons_self).deliverable,
      (h.lawful _ List.mem_cons_self).code⟩
  obtain ⟨hreceived, hanswers⟩ : x.receivedResponse.isReuse seq = false ∧
      y.response.isReuse seq = false :=
    h.unanswered (by
      rw [List.countP_cons_of_pos rfl]
      exact Nat.succ_pos _)
  obtain ⟨⟨ctOut, opt⟩, hseal⟩ := exists_sealResponse haead y
    seq.fromPiv_encodePiv seq content.code false nofun hdeliverable.required
  have hrun : (protectResponse content.code content.classEOptions
      content.payload y.recipientId seq.encodePiv false).run y =
        .ok (ctOut, opt) (y.answered seq) :=
    protectResponse_eq_ok.mpr ⟨h.back.active,
      not_badRequest seq.fromPiv_encodePiv, Or.inr ⟨rfl, seq,
        ⟨h.back.allowed, seq.fromPiv_encodePiv, hanswers⟩, hseal, rfl⟩⟩
  obtain ⟨hseal, hoption⟩ := sealResponse_eq_ok.mp hseal
  obtain rfl : HVec.empty = opt := Except.ok.inj hoption
  obtain ⟨received, after, hreceive, hcontent⟩ := delivers_bare haead
    h.mirrors.symm hdeliverable hseal hcode seq.fromPiv_encodePiv hreceived
  replace hreceive : (receiveResponse [] ctOut.toList seq.encodePiv false).run
      x = .ok received after := hreceive
  have hparsed : parseOption [] = .ok ⟨[], [], false, [], false⟩ := rfl
  obtain ⟨pending, rfl, hrequest, -, hresponse⟩ :=
    accepted_response hparsed hreceive
  have hnone : pending.responseSeq = none :=
    (explicitResponseSeq_eq_ok.mp hresponse).elim And.right
      fun ⟨_, hne, _⟩ => absurd rfl hne
  have hready : Ready K L ((x.acceptResponse pending, s), y.answered seq, t) :=
    (h.toReady.answered h.sent).acceptResponse (hrequest ▸ h.sent)
      fun number hsome => by
        rw [hnone] at hsome
        cases hsome
  refine ⟨_, ?_, h.tail hready rfl (Nat.le_refl _) nofun, ?_⟩
  · simp only [replyBare, StateT.run_bind, onSecond_run, onFirst_run,
      attempt_of_ok hrun, Option.map_some, Option.bind_eq_bind,
      Option.bind_some, HVec.toList_empty, receive_run s hreceive,
      content_of_delivers hcontent]
  · funext side
    cases side <;> rfl

theorem reply_charged (hnever : L.NeverFails) (haead : C.AeadCorrect)
    (kid : Bytes) (seq : OscoreSeqNum) (op : Reply) (replies : List Reply) :
    Charged (seqMax + 1) tickets op.charge op.content
      (Awaits K L kid seq (op :: replies)) (Awaits K L kid seq replies)
      (reply (C := C) T ⟨kid, seq.encodePiv⟩ op) := by
  cases op with
  | bare content => exact replyBare_charged haead
  | numbered content => exact replyReserved_charged hnever haead rfl rfl
  | notification content => exact replyReserved_charged hnever haead rfl rfl

/-- What a turn takes from its requester and its responder. -/
def exchangeCharge (replies : List Reply) (side : Side) : Nat :=
  requestCharge side + total Reply.charge replies side

/-- A turn gets through as long as both parties have tickets for it. -/
theorem exchange_charged (hfirst : K.NeverFails) (hsecond : L.NeverFails)
    (haead : C.AeadCorrect) {turn : Turn} (hlawful : turn.Lawful) :
    Charged (seqMax + 1) tickets (exchangeCharge turn.replies) turn.contents
      (Ready K L) (Ready (C := C) K L)
      (exchange S T turn.request turn.replies) := by
  refine charged_of_each fun s h => ?_
  have hrequest := request_charged hfirst haead hlawful h
  have hreplies := charged_mapM (fun s _ => tickets_le s)
    (reply_charged (K := K) hsecond haead s.2.1.recipientId s.1.1.senderSeq)
    turn.replies
  exact (hrequest.bind (hreplies.map _)).mono (fun _ => id) fun _ h => h.toReady

theorem tickets_swap (p : Party C σ) (q : Party C τ) (side : Side) :
    tickets (p, q) side = tickets (q, p) side.other := by
  cases side <;> rfl

/-- What holds of a turn holds of it with the parties exchanged. -/
theorem swapped_charged {α : Type} {charge : Side → Nat} {out : α}
    {action : StateT (Party C τ × Party C σ) Option α}
    (h : Charged (seqMax + 1) tickets charge out (Ready L K) (Ready L K)
      action) :
    Charged (seqMax + 1) tickets (fun side => charge side.other) out
      (Ready K L) (Ready K L) (swapped action) := by
  have hfits (p : Party C σ) (q : Party C τ) :
      (∀ side, tickets (p, q) side + charge side.other ≤ seqMax + 1) ↔
        ∀ side, tickets (q, p) side + charge side ≤ seqMax + 1 := by
    refine ⟨fun h side => ?_, fun h side => ?_⟩
    · have := h side.other
      rwa [tickets_swap, side.other_other] at this
    · rw [tickets_swap]
      exact h side.other
  constructor
  · rintro ⟨p, q⟩ hready hleft
    obtain ⟨⟨q', p'⟩, hrun, hready', htickets⟩ :=
      h.enough (q, p) hready.swap ((hfits p q).mp hleft)
    refine ⟨(p', q'), ?_, hready'.swap, fun side => ?_⟩
    · rw [swapped_run, hrun, Option.map_some]
    · rw [tickets_swap, htickets, ← tickets_swap]
  · rintro ⟨p, q⟩ hready hleft
    rw [swapped_run, h.short (q, p) hready.swap fun hleft' =>
      hleft ((hfits p q).mpr hleft'), Option.map_none]

theorem total_charge_requester (replies : List Reply) :
    total Reply.charge replies .a = 0 := by
  induction replies with
  | nil => rfl
  | cons op replies ih => rw [total_cons, ih, Reply.charge]

theorem turn_charged (hfirst : K.NeverFails) (hsecond : L.NeverFails)
    (haead : C.AeadCorrect) {turn : Turn} (hlawful : turn.Lawful) :
    Charged (seqMax + 1) tickets turn.charge turn.contents (Ready K L)
      (Ready (C := C) K L) (Dialogue.turn S T turn) := by
  obtain ⟨requester, content, replies⟩ := turn
  cases requester with
  | a =>
      have hcharge : Turn.charge ⟨.a, content, replies⟩ =
          exchangeCharge replies := by
        funext side
        cases side with
        | a => simp [Turn.charge, exchangeCharge, requestCharge,
            total_charge_requester]
        | b => simp [Turn.charge, exchangeCharge, requestCharge]
      rw [hcharge]
      exact exchange_charged hfirst hsecond haead hlawful
  | b =>
      have hcharge : Turn.charge ⟨.b, content, replies⟩ =
          fun side => exchangeCharge replies side.other := by
        funext side
        cases side with
        | a => simp [Turn.charge, exchangeCharge, requestCharge, Side.other]
        | b => simp [Turn.charge, exchangeCharge, requestCharge, Side.other,
            total_charge_requester]
      rw [hcharge]
      exact swapped_charged (exchange_charged hsecond hfirst haead hlawful)

/-- The parties can talk, and these turns are still to come. -/
structure Talks (K : SenderContract S) (L : SenderContract T)
    (turns : List Turn) (s : Party C σ × Party C τ) : Prop
    extends Ready K L s where
  lawful : ∀ turn ∈ turns, turn.Lawful

theorem talks_charged (hfirst : K.NeverFails) (hsecond : L.NeverFails)
    (haead : C.AeadCorrect) (op : Turn) (turns : List Turn) :
    Charged (seqMax + 1) tickets op.charge op.contents (Talks K L (op :: turns))
      (Talks (C := C) K L turns) (Dialogue.turn S T op) := by
  refine charged_of_each fun s h => ?_
  have hturn := turn_charged (K := K) (L := L) hfirst hsecond haead
    (h.lawful op List.mem_cons_self)
  exact hturn.mono (fun t ht => ht ▸ h.toReady) fun t ht =>
    ⟨ht, fun turn hmem => h.lawful turn (List.mem_cons_of_mem _ hmem)⟩

/-- A dialogue gets through as long as both parties have tickets for it. -/
theorem run_charged (hfirst : K.NeverFails) (hsecond : L.NeverFails)
    (haead : C.AeadCorrect) (turns : List Turn) :
    Charged (seqMax + 1) tickets (total Turn.charge turns)
      (turns.map Turn.contents) (Talks K L turns) (Talks (C := C) K L [])
      (run S T turns) :=
  charged_mapM (fun s _ => tickets_le s) (talks_charged hfirst hsecond haead)
    turns

theorem covered_iff {s : Party C σ × Party C τ} {turns : List Turn} :
    (s.1.1.ticket + total Turn.charge turns .a ≤ seqMax + 1 ∧
        s.2.1.ticket + total Turn.charge turns .b ≤ seqMax + 1) ↔
      ∀ side, tickets s side + total Turn.charge turns side ≤ seqMax + 1 := by
  constructor
  · rintro ⟨ha, hb⟩ side
    cases side with
    | a => exact ha
    | b => exact hb
  · exact fun h => ⟨h .a, h .b⟩

/-- A store without a record of it registers a fresh context. -/
theorem exists_standing (hnever : K.NeverFails) (material : Material C)
    (allowed : Bool) {s : σ} (h : K.record s material.contextId = none) :
    ∃ t, (registerFresh S { Context.initial material with
        allowNoPivResponse := allowed }).run s =
          .ok (Context.initial material).registered t ∧
      Standing K ((Context.initial material).registered, t) := by
  let fresh : Context C :=
    { Context.initial material with allowNoPivResponse := allowed }
  obtain ⟨swapped, t, hswap, htrue⟩ := hnever material.contextId none
    fresh.senderSequenceState s
  rw [htrue h] at hswap
  have hrun : (registerFresh S fresh).run s = .ok fresh.registered t :=
    registerFresh_eq_ok.mpr ⟨rfl, rfl, hswap, rfl⟩
  refine ⟨t, hrun, rfl, rfl, ?_⟩
  obtain ⟨-, hrecord⟩ := K.swap_true _ _ _ _ _ hswap
  rw [hrecord]
  exact Function.update_self ..

/-- Two mirrored contexts that were just registered can talk. -/
theorem ready_registered {own peer : Material C} (h : own.Mirrors peer)
    {s : σ} {t : τ} (hown : Standing K ((Context.initial own).registered, s))
    (hpeer : Standing L ((Context.initial peer).registered, t)) :
    Ready K L (((Context.initial own).registered, s),
      (Context.initial peer).registered, t) :=
  ⟨h, ⟨hown, .fresh _, Or.inl rfl, Or.inl rfl, Or.inl rfl⟩,
    ⟨hpeer, .fresh _, Or.inl rfl, Or.inl rfl, Or.inl rfl⟩⟩

/-- Two ends that are ready exchange lawful turns, message by message, exactly
if each has a sequence left for every message of its own that takes one.  Ready
are mirrored ends in step with their records, without a mark at or above the
next sequence.  Lawful are messages that a receiver can hand out, replies with a
response code, and at most one reply to a request that is no notification. -/
theorem delivers_while_tickets_last (hfirst : K.NeverFails)
    (hsecond : L.NeverFails) (haead : C.AeadCorrect)
    {s : Party C σ × Party C τ} (hready : Ready K L s) {turns : List Turn}
    (hlawful : ∀ turn ∈ turns, turn.Lawful) :
    ((run S T turns).run s).map Prod.fst =
      if s.1.1.ticket + total Turn.charge turns .a ≤ seqMax + 1 ∧
          s.2.1.ticket + total Turn.charge turns .b ≤ seqMax + 1 then
        some (turns.map Turn.contents)
      else none :=
  (run_charged hfirst hsecond haead turns).map_fst ⟨hready, hlawful⟩
    covered_iff

/-- An observed request with two notifications and its answer, and a request
the other way. -/
def sampleTurns : List Turn :=
  [⟨.a, ⟨1, [0x60], []⟩, [.notification ⟨69, [0x60], [98]⟩,
      .notification ⟨69, [0x61, 1], [99]⟩, .bare ⟨69, [], [100]⟩]⟩,
    ⟨.b, ⟨2, [0xC1, 0xFF], [97]⟩, [.numbered ⟨68, [], []⟩]⟩]

theorem delivers_while_tickets_last_sample :
    ∃ s : Party Crypto.standIn MemoryState × Party Crypto.standIn MemoryState,
      Ready memoryStoreSender memoryStoreSender s ∧
      ((run memoryStore memoryStore sampleTurns).run s).map Prod.fst =
        some (sampleTurns.map Turn.contents) := by
  obtain ⟨s, -, hs⟩ := exists_standing (s := MemoryState.empty)
    memoryStoreSender_neverFails Association.sampleMaterial false rfl
  obtain ⟨t, -, ht⟩ := exists_standing (s := MemoryState.empty)
    memoryStoreSender_neverFails Association.sampleMaterial.mirror false rfl
  have hready :=
    ready_registered Association.sampleMaterial.mirrors_mirror hs ht
  have hlawful : ∀ turn ∈ sampleTurns, turn.Lawful := by decide +kernel
  refine ⟨_, hready, ?_⟩
  rw [delivers_while_tickets_last memoryStoreSender_neverFails
    memoryStoreSender_neverFails Crypto.standIn_aeadCorrect hready hlawful]
  exact if_pos (show 0 + total Turn.charge sampleTurns .a ≤ seqMax + 1 ∧
    0 + total Turn.charge sampleTurns .b ≤ seqMax + 1 by decide)

end Dialogue

end Oscore
