/-
Reordering, repetition and loss between two mirrored ends.  Whatever a receiver
has been given before, a message of its peer is handed out exactly where its
number is new and less than a window behind the newest; elsewhere it is refused
as a replay, and the context stays as it was.
-/
import Oscore.Admission
import Oscore.SetWindow

namespace Oscore

open Rust Rust.Call SlidingWindow

/-- The windows of a context that has accepted nothing. -/
def Windows.unmarked : Windows := ⟨.fresh, .fresh, .fresh, .fresh⟩

/-! The windows of a receiver stand for its log. -/

namespace Receiver

/-- What the log shows as accepted under a kind of number, oldest first. -/
def accepted (number? : Event → Option (Option OscoreSeqNum))
    (log : List Event) : List Nat :=
  (log.reverse.filterMap fun event => (number? event).join).map (·.get)

theorem accepted_cons (number? : Event → Option (Option OscoreSeqNum))
    (event : Event) (log : List Event) :
    accepted number? (event :: log) =
      accepted number? log ++ ((number? event).join.map (·.get)).toList := by
  unfold accepted
  rw [List.reverse_cons, List.filterMap_append, List.map_append]
  cases hnumber : (number? event).join <;> simp [hnumber]

theorem accepted_of_none {number? : Event → Option (Option OscoreSeqNum)}
    {event : Event} (h : number? event = none) (log : List Event) :
    accepted number? (event :: log) = accepted number? log := by
  rw [accepted_cons, h]
  exact List.append_nil _

theorem accepted_of_some {number? : Event → Option (Option OscoreSeqNum)}
    {event : Event} {seq : OscoreSeqNum} (h : number? event = some (some seq))
    (log : List Event) :
    accepted number? (event :: log) = accepted number? log ++ [seq.get] := by
  rw [accepted_cons, h]
  rfl

/-- The receive windows stand for what the log shows as accepted. -/
structure Shows (windows : Windows) (log : List Event) : Prop where
  requests : windows.replay.Holds (accepted Event.requestSeq? log)
  ordinary :
    windows.receivedResponse.Holds (accepted Event.ordinarySeq? log)
  responders :
    windows.receivedResponsePiv.Holds (accepted Event.responderSeq? log)

variable {C : Crypto} {σ ε : Type} {S : ContextStateStore σ ε}

/-- An event that no receive window takes note of. -/
theorem Shows.ignore {windows windows' : Windows} {log : List Event}
    (h : Shows windows log) {event : Event}
    (hrequest : event.requestSeq? = none)
    (hordinary : event.ordinarySeq? = none)
    (hresponder : event.responderSeq? = none)
    (hreplay : windows'.replay = windows.replay)
    (hreceived : windows'.receivedResponse = windows.receivedResponse)
    (hpiv : windows'.receivedResponsePiv = windows.receivedResponsePiv) :
    Shows windows' (event :: log) := by
  constructor
  · rw [accepted_of_none hrequest, hreplay]
    exact h.requests
  · rw [accepted_of_none hordinary, hreceived]
    exact h.ordinary
  · rw [accepted_of_none hresponder, hpiv]
    exact h.responders

theorem Shows.gotRequest {context : Context C} {log : List Event}
    (h : Shows context.windows log) {oscoreOption ciphertext : Bytes}
    {opt : OscoreOption} {seq : OscoreSeqNum} {plaintext : HVec ptCap}
    {message : Message}
    (haccepts : context.AcceptsRequest oscoreOption ciphertext opt seq plaintext
      message) :
    Shows (context.acceptRequest seq).windows
      (.gotRequest oscoreOption ciphertext message :: log) := by
  have hseq : (Event.gotRequest oscoreOption ciphertext message).requestSeq? =
      some (some seq) := by
    simp only [Event.requestSeq?, optionSeq, haccepts.parsed, haccepts.seq_eq]
  refine ⟨?_, ?_, ?_⟩
  · rw [accepted_of_some hseq]
    exact h.requests.update haccepts.fresh
  · rw [accepted_of_none rfl]
    exact h.ordinary
  · rw [accepted_of_none rfl]
    exact h.responders

theorem Shows.gotResponse {context : Context C} {log : List Event}
    (h : Shows context.windows log) {call : ResponseCall} {opt : OscoreOption}
    {plaintext : HVec ptCap} {pending : PendingResponse} {message : Message}
    (haccepts : context.Authenticates call opt plaintext pending) :
    Shows (context.acceptResponse pending).windows
      (.gotResponse call message :: log) := by
  refine ⟨?_, ?_, ?_⟩
  · rw [accepted_of_none rfl]
    exact h.requests
  · have hmarks := haccepts.marks
    cases hobserve : call.observe with
    | true =>
        rw [accepted_of_none (by simp [Event.ordinarySeq?, hobserve])]
        simp only [hobserve, Bool.not_true] at hmarks
        simp only [Context.acceptResponse, Context.windows, hmarks,
          Bool.false_eq_true, ↓reduceIte]
        exact h.ordinary
    | false =>
        have hseq : (Event.gotResponse call message).ordinarySeq? =
            some (some pending.requestSeq) := by
          simp [Event.ordinarySeq?, hobserve, haccepts.requestSeq_eq]
        rw [accepted_of_some hseq]
        simp only [hobserve, Bool.not_false] at hmarks
        simp only [Context.acceptResponse, Context.windows, hmarks, ↓reduceIte]
        exact ReuseWindow.Holds.mark h.ordinary (haccepts.fresh hobserve)
  · have hparsed := haccepts.parsed
    rcases Context.explicitResponseSeq_eq_ok.mp haccepts.responseSeq_eq with
      ⟨hnil, hnone⟩ | ⟨seq, hne, hseq, hfresh, hsome⟩
    · rw [accepted_of_none (by
        simp [Event.responderSeq?, explicitPiv?, hparsed, hnil])]
      simp only [Context.acceptResponse, Context.windows, hnone]
      exact h.responders
    · have hnumber : (Event.gotResponse call message).responderSeq? =
          some (some seq) := by
        simp [Event.responderSeq?, explicitPiv?, hparsed, hne, hseq]
      rw [accepted_of_some hnumber]
      simp only [Context.acceptResponse, Context.windows, hsome]
      exact ReuseWindow.Holds.mark h.responders hfresh

theorem Shows.acted {session session' : Session C} {store store' : σ}
    {action : Action} {event : Option Event} {log : List Event}
    (h : Shows session.context.windows log)
    (heffect : session.Effect S store action session' store' event) :
    Shows session'.context.windows (event.toList ++ log) := by
  cases heffect with
  | gotRequest oscoreOption ciphertext opt seq plaintext message haccepts =>
      exact h.gotRequest haccepts
  | gotResponse call opt plaintext pending haccepts =>
      exact h.gotResponse haccepts
  | reserved | sentRequest | sentResponse | sentOwn | sentBare =>
      exact h.ignore rfl rfl rfl rfl rfl rfl
  | _ => exact h

theorem Shows.step {R : RecipientContract S} {initial : ReuseWindow}
    {r : Receiver C σ} (h : Shows r.snapshot.windows r.log)
    (htracks : Tracks R initial r) (op : Op) :
    Shows (Receiver.step S r op).snapshot.windows
      (Receiver.step S r op).log := by
  cases op with
  | restart =>
      obtain ⟨hsnapshot, hlog⟩ := restart_keeps S r
      rw [hsnapshot, hlog]
      exact h
  | act action =>
      cases hsession : r.session with
      | none =>
          have hstep : Receiver.step S r (.act action) = r := by
            simp only [Receiver.step, hsession]
          rw [hstep]
          exact h
      | some session =>
          rw [← (htracks.up session hsession).1] at h
          have hafter := h.acted (session.act_effect S r.store action)
          rw [step_act hsession]
          cases hevent : (session.act S r.store action).2.2 with
          | none =>
              rw [(htracks.up session hsession).1] at h
              exact h
          | some event =>
              rw [hevent] at hafter
              rw [windows_acted]
              exact hafter

theorem shows_unmarked : Shows .unmarked [] :=
  ⟨ReplayWindow.holds_fresh, ReuseWindow.holds_fresh, ReuseWindow.holds_fresh⟩

theorem shows_run (R : RecipientContract S) {context : Context C}
    (hunmarked : context.windows = .unmarked) (store : σ) (ops : List Op) :
    Shows (History.run (Receiver.step S) (start context store)
        ops).snapshot.windows
      (History.run (Receiver.step S) (start context store) ops).log := by
  have hstart : Shows context.recipientReplayState.windows [] := by
    rw [windows_recipientReplayState, hunmarked]
    exact shows_unmarked
  exact (@History.invariant _ _ (Receiver.step S)
    (fun r => Tracks R context.receivedResponse r ∧
      Shows r.snapshot.windows r.log)
    (fun r op h => ⟨h.1.step op, h.2.step h.1 op⟩) (start context store)
    ⟨tracks_run R context store [], hstart⟩ ops).2

end Receiver

/-! What the windows decide of an honest message. -/

namespace Context

variable {C : Crypto}

/-- A request under a number that the replay window rejects. -/
theorem unprotectRequest_replayed {self : Context C}
    {oscoreOption ciphertext : Bytes} {opt : OscoreOption} {seq : OscoreSeqNum}
    (hlength : tagLen + 1 ≤ ciphertext.length)
    (hparsed : parseOption oscoreOption = .ok opt) (hpiv : opt.piv ≠ [])
    (hpresent : opt.kidPresent = true) (hkid : opt.kid = self.recipientId)
    (hcontext : ¬ self.foreignKidContext opt)
    (hseq : OscoreSeqNum.fromPiv opt.piv = some seq)
    (hreplay : self.replay.isReplay seq = true) :
    (unprotectRequest oscoreOption ciphertext).run self =
      .error (.err .replay) self := by
  have haddressed : ¬ (opt.piv = [] ∨ opt.kidPresent = false) := by
    simp [hpiv, hpresent]
  unfold unprotectRequest
  rw [run_get_bind,
    run_check_bind_ok (failIf_of_not _ (Nat.not_lt.mpr hlength)),
    run_check_bind_ok hparsed, run_check_bind_ok (failIf_of_not _ haddressed),
    run_check_bind_ok (failIf_of_not _ (not_not.mpr hkid)),
    run_check_bind_ok (failIf_of_not _ hcontext),
    run_check_bind_ok (okOr_eq_ok.mpr hseq),
    run_check_bind_error (failIf_eq_error.mpr ⟨hreplay, rfl⟩)]

/-- A response that one of the two received-response windows rejects. -/
theorem beginUnprotectResponseMode_replayed {self : Context C}
    {oscoreOption ciphertext requestPiv : Bytes} {observe : Bool}
    {opt : OscoreOption} {requestSeq : OscoreSeqNum}
    (hlength : tagLen + 1 ≤ ciphertext.length)
    (hparsed : parseOption oscoreOption = .ok opt)
    (hcontext : ¬ self.foreignKidContext opt)
    (hkid : opt.kidPresent = true → opt.kid = self.recipientId)
    (hrequest : OscoreSeqNum.fromPiv requestPiv = some requestSeq)
    (hobserve : observe = true → opt.piv ≠ [])
    (hreplay : (observe = false ∧
        self.receivedResponse.isReuse requestSeq = true) ∨
      ∃ seq, OscoreSeqNum.fromPiv opt.piv = some seq ∧
        self.receivedResponsePiv.isReuse seq = true) :
    (beginUnprotectResponseMode oscoreOption ciphertext requestPiv
      observe).run self = .error (.err .replay) self := by
  have hown : ¬ (opt.kidPresent = true ∧ opt.kid ≠ self.recipientId) :=
    fun h => h.2 (hkid h.1)
  have hplain : ¬ (observe = true ∧ opt.piv = []) :=
    fun h => hobserve h.1 h.2
  unfold beginUnprotectResponseMode
  rw [run_get_bind,
    run_check_bind_ok (failIf_of_not _ (Nat.not_lt.mpr hlength)),
    run_check_bind_ok hparsed, run_check_bind_ok (failIf_of_not _ hcontext),
    run_check_bind_ok (failIf_of_not _ hown),
    run_check_bind_ok (okOr_eq_ok.mpr hrequest)]
  by_cases hused : observe = false ∧
      self.receivedResponse.isReuse requestSeq = true
  · rw [run_check_bind_error (failIf_eq_error.mpr ⟨hused, rfl⟩)]
  · obtain ⟨seq, hseq, hreuse⟩ := hreplay.resolve_left hused
    have hpiv : opt.piv ≠ [] := by
      intro hnil
      rw [hnil] at hseq
      exact absurd (OscoreSeqNum.length_of_fromPiv hseq).1 (by simp)
    have hexplicit : self.explicitResponseSeq opt.piv =
        .error (.err .replay) := by
      rw [explicitResponseSeq, if_pos hpiv, hseq, okOr_some, Outcome.ok_bind]
      exact Outcome.bind_eq_error.mpr
        (Or.inl (failIf_eq_error.mpr ⟨hreuse, rfl⟩))
    rw [run_check_bind_ok (failIf_of_not _ hused),
      run_check_bind_ok (failIf_of_not _ hplain),
      run_check_bind_error hexplicit]

/-- An honest message: handed out as it was written if `admitted`, and refused
as a replay, with the context untouched, if not. -/
structure Settles (received : Call (Context C) OscoreError Message)
    (peer : Context C) (code : UInt8) (classEOptions payload : Bytes)
    (admitted : Prop) : Prop where
  handsOut : admitted → Delivers received peer code classEOptions payload
  refuses : ¬ admitted → received.run peer = .error (.err .replay) peer

theorem settles_request (haead : C.AeadCorrect) {self peer : Context C}
    (hmirror : self.Mirrors peer.toMaterial) {seq : OscoreSeqNum}
    {code : UInt8} {classEOptions payload : Bytes} {message : Protected}
    (hdeliverable : Deliverable classEOptions payload)
    (hprotect : self.protectRequestReserved seq code classEOptions payload =
      .ok message) :
    Settles (unprotectRequest message.2.toList message.1.toList) peer code
      classEOptions payload (peer.replay.isReplay seq = false) where
  handsOut hfresh := by
    obtain ⟨message', hprotect', hdelivers⟩ :=
      exists_delivered_request haead hmirror seq code hdeliverable
    cases Except.ok.inj (hprotect.symm.trans hprotect')
    exact hdelivers hfresh
  refuses hreplay := by
    obtain ⟨hseal, hoption⟩ := protectRequestReserved_eq_ok.mp hprotect
    have hparsed := parseOption_request seq self.idContext_le self.senderId_le
    rw [← requestOption_eq_ok.mp hoption] at hparsed
    refine unprotectRequest_replayed ?_ hparsed seq.encodePiv_ne_nil rfl
      hmirror.recipientId.symm ?_ seq.fromPiv_encodePiv
      (Bool.not_eq_false _ ▸ hreplay)
    · rw [length_of_sealMessage hseal]
      exact le_ctRequired _ _
    · rintro ⟨hpresent, habsent | hother⟩
      · rw [hmirror.idContext] at habsent
        exact absurd (hpresent.symm.trans habsent) (by decide)
      · exact hother (by rw [hmirror.idContext])

theorem receiveResponse_replayed {peer : Context C}
    {oscoreOption ciphertext requestPiv : Bytes} {observe : Bool}
    (h : (beginUnprotectResponseMode oscoreOption ciphertext requestPiv
      observe).run peer = .error (.err .replay) peer) :
    (receiveResponse oscoreOption ciphertext requestPiv observe).run peer =
      .error (.err .replay) peer := by
  cases observe with
  | false => exact Call.bind_eq_error.mpr (Or.inl h)
  | true => exact Call.bind_eq_error.mpr (Or.inl h)

/-- A response sealed under the responder's own PIV. -/
theorem settles_own_piv (haead : C.AeadCorrect) {self peer : Context C}
    (hmirror : self.Mirrors peer.toMaterial) {seq requestSeq : OscoreSeqNum}
    {code : UInt8} {classEOptions payload requestPiv : Bytes}
    {message : Protected} (observe : Bool)
    (hdeliverable : Deliverable classEOptions payload)
    (hseal : sealMessage C self.senderKey
      (computeNonce self.senderId seq.encodePiv self.commonIv)
      self.recipientId requestPiv code classEOptions payload = .ok message.1)
    (hoption : responseOption seq.encodePiv = .ok message.2)
    (hcode : isResponseCode code = true)
    (hrequest : OscoreSeqNum.fromPiv requestPiv = some requestSeq) :
    Settles (receiveResponse message.2.toList message.1.toList requestPiv
      observe) peer code classEOptions payload
      (peer.receivedResponsePiv.isReuse seq = false ∧
        (observe = false →
          peer.receivedResponse.isReuse requestSeq = false)) where
  handsOut h := delivers_own_piv haead hmirror observe hdeliverable hseal
    hoption hcode hrequest h.2 h.1
  refuses h := by
    have hparsed := parseOption_response seq
    rw [← responseOption_eq_ok.mp hoption] at hparsed
    refine receiveResponse_replayed (beginUnprotectResponseMode_replayed ?_
      hparsed (by simp [foreignKidContext]) nofun hrequest
      (fun _ => seq.encodePiv_ne_nil) ?_)
    · rw [length_of_sealMessage hseal]
      exact le_ctRequired _ _
    · by_cases hused : peer.receivedResponsePiv.isReuse seq = true
      · exact Or.inr ⟨seq, seq.fromPiv_encodePiv, hused⟩
      · left
        by_contra hfresh
        refine h ⟨Bool.not_eq_true _ ▸ hused, fun hobserve => ?_⟩
        by_contra hreuse
        exact hfresh ⟨hobserve, Bool.not_eq_false _ ▸ hreuse⟩

/-- A response sealed under the PIV of its request, with an empty option. -/
theorem settles_bare (haead : C.AeadCorrect) {self peer : Context C}
    (hmirror : self.Mirrors peer.toMaterial) {requestSeq : OscoreSeqNum}
    {code : UInt8} {classEOptions payload requestPiv : Bytes}
    {ctOut : HVec ctCap} (hdeliverable : Deliverable classEOptions payload)
    (hseal : sealMessage C self.senderKey
      (computeNonce self.recipientId requestPiv self.commonIv)
      self.recipientId requestPiv code classEOptions payload = .ok ctOut)
    (hcode : isResponseCode code = true)
    (hrequest : OscoreSeqNum.fromPiv requestPiv = some requestSeq) :
    Settles (unprotectResponse [] ctOut.toList requestPiv) peer code
      classEOptions payload
      (peer.receivedResponse.isReuse requestSeq = false) where
  handsOut hfresh :=
    delivers_bare haead hmirror hdeliverable hseal hcode hrequest hfresh
  refuses hreuse := by
    have hparsed : parseOption [] = .ok ⟨[], [], false, [], false⟩ := rfl
    have hbegin := @beginUnprotectResponseMode_replayed C peer []
      ctOut.toList requestPiv false _ requestSeq (by
        rw [length_of_sealMessage hseal]
        exact le_ctRequired _ _) hparsed (by simp [foreignKidContext]) nofun
      hrequest nofun (Or.inl ⟨rfl, Bool.not_eq_false _ ▸ hreuse⟩)
    exact receiveResponse_replayed hbegin

/-- What becomes of any message of a mirrored peer that this context can
represent, after what `log` shows as accepted: a request by its own number, a
response by its own number if it has one, and by the number of the request
unless it is a notification. -/
structure Reorders (peer : Context C) (log : List Event) : Prop where
  request : ∀ (self : Context C) (sender : ReservedSender) code classEOptions
    payload message, self.Mirrors peer.toMaterial →
    Deliverable classEOptions payload →
    sender.protectRequest self code classEOptions payload = .ok message →
    Settles (unprotectRequest message.2.toList message.1.toList) peer code
      classEOptions payload (Passes windowSize
        (Receiver.accepted Event.requestSeq? log) sender.sequence.get)
  reserved : ∀ (self : Context C) (sender : ReservedSender) code classEOptions
    payload requestKid requestPiv requestSeq message observe,
    self.Mirrors peer.toMaterial → Deliverable classEOptions payload →
    isResponseCode code = true →
    OscoreSeqNum.fromPiv requestPiv = some requestSeq →
    sender.protectResponseWithPiv self code classEOptions payload requestKid
      requestPiv = .ok message →
    Settles (receiveResponse message.2.toList message.1.toList requestPiv
      observe) peer code classEOptions payload
      (Passes windowSize (Receiver.accepted Event.responderSeq? log)
          sender.sequence.get ∧
        (observe = false → Passes windowSize
          (Receiver.accepted Event.ordinarySeq? log) requestSeq.get))
  own : ∀ (self after : Context C) code classEOptions payload requestKid
    requestPiv requestSeq message observe,
    self.Mirrors peer.toMaterial → Deliverable classEOptions payload →
    isResponseCode code = true →
    OscoreSeqNum.fromPiv requestPiv = some requestSeq →
    (protectResponse code classEOptions payload requestKid requestPiv
      true).run self = .ok message after →
    Settles (receiveResponse message.2.toList message.1.toList requestPiv
      observe) peer code classEOptions payload
      (Passes windowSize (Receiver.accepted Event.responderSeq? log)
          self.senderSeq.get ∧
        (observe = false → Passes windowSize
          (Receiver.accepted Event.ordinarySeq? log) requestSeq.get))
  bare : ∀ (self after : Context C) code classEOptions payload requestKid
    requestPiv requestSeq message, self.Mirrors peer.toMaterial →
    Deliverable classEOptions payload → isResponseCode code = true →
    OscoreSeqNum.fromPiv requestPiv = some requestSeq →
    (protectResponse code classEOptions payload requestKid requestPiv
      false).run self = .ok message after →
    Settles (unprotectResponse message.2.toList message.1.toList requestPiv)
      peer code classEOptions payload (Passes windowSize
        (Receiver.accepted Event.ordinarySeq? log) requestSeq.get)

theorem passes_iff_of_rejects {rejected : Bool} {marked : List Nat} {s : Nat}
    (h : rejected = true ↔ Refuses windowSize marked s) :
    rejected = false ↔ Passes windowSize marked s := by
  rw [passes_iff_not_refuses (by decide), ← h, Bool.not_eq_true]

theorem reorders_of_shows (haead : C.AeadCorrect) {peer : Context C}
    {log : List Event} (h : Receiver.Shows peer.windows log) :
    peer.Reorders log := by
  have hrequests (seq : OscoreSeqNum) :=
    passes_iff_of_rejects (h.requests.isReplay_iff seq)
  have hordinary (seq : OscoreSeqNum) :=
    passes_iff_of_rejects (h.ordinary.isReuse_iff seq)
  have hresponders (seq : OscoreSeqNum) :=
    passes_iff_of_rejects (h.responders.isReuse_iff seq)
  constructor
  · intro self sender code classEOptions payload message hmirror hdeliverable
      hprotect
    rw [← hrequests]
    exact settles_request haead hmirror hdeliverable hprotect
  · intro self sender code classEOptions payload requestKid requestPiv
      requestSeq message observe hmirror hdeliverable hcode hrequest hprotect
    obtain ⟨hbad, hseal, hoption⟩ :=
      protectResponseWithReservedPiv_eq_ok.mp hprotect
    cases kid_of_not_badRequest hbad
    rw [← hresponders, ← hordinary]
    exact settles_own_piv haead hmirror observe hdeliverable hseal hoption
      hcode hrequest
  · intro self after code classEOptions payload requestKid requestPiv
      requestSeq message observe hmirror hdeliverable hcode hrequest hrun
    obtain ⟨-, hbad, ⟨-, -, hseal, -⟩ | ⟨hflag, -⟩⟩ :=
      protectResponse_eq_ok.mp hrun
    · obtain ⟨hseal, hoption⟩ := sealResponse_eq_ok.mp hseal
      cases kid_of_not_badRequest hbad
      rw [← hresponders, ← hordinary]
      exact settles_own_piv haead hmirror observe hdeliverable hseal hoption
        hcode hrequest
    · cases hflag
  · intro self after code classEOptions payload requestKid requestPiv
      requestSeq message hmirror hdeliverable hcode hrequest hrun
    obtain ⟨-, hbad, ⟨hflag, -⟩ | ⟨-, seq, -, hseal, -⟩⟩ :=
      protectResponse_eq_ok.mp hrun
    · cases hflag
    · obtain ⟨hseal, hoption⟩ := sealResponse_eq_ok.mp hseal
      cases kid_of_not_badRequest hbad
      have hempty : HVec.empty = message.2 := Except.ok.inj hoption
      rw [← hordinary, ← hempty]
      exact settles_bare haead hmirror hdeliverable hseal hcode hrequest

end Context

/-- Over every history of a receiver that started with unmarked windows,
restarts and whatever it was given included: each message of a mirrored peer is
handed out as it was written or refused as a replay, by nothing but its numbers
and what was accepted before.  Its content is such as a receiver can hand out;
a response has a code of class 2 to 5, answers a request with a minimal PIV and
is taken as a notification only if it has a PIV of its own. -/
theorem Receiver.reorders_within_window {C : Crypto} {σ ε : Type}
    {S : ContextStateStore σ ε} (haead : C.AeadCorrect)
    (R : RecipientContract S) {context : Context C}
    (hunmarked : context.windows = .unmarked) (store : σ) (ops : List Op)
    {session : Session C}
    (hsession : (History.run (step S) (start context store) ops).session =
      some session) :
    session.context.Reorders
      (History.run (step S) (start context store) ops).log := by
  refine Context.reorders_of_shows haead ?_
  rw [((tracks_run R context store ops).up session hsession).1]
  exact shows_run R hunmarked store ops

theorem Receiver.reorders_within_window_replayed :
    ∃ session : Session Crypto.standIn,
      (History.run (step memoryStore)
        (start (Association.sampleStart .b) MemoryState.empty)
        [.act (.unprotectRequest [9, 0, 1]
          [1, 255, 97, 11, 110, 113, 63, 250, 235, 134, 48])]).session =
            some session ∧
      session.context.Reorders (History.run (step memoryStore)
        (start (Association.sampleStart .b) MemoryState.empty)
        [.act (.unprotectRequest [9, 0, 1]
          [1, 255, 97, 11, 110, 113, 63, 250, 235, 134, 48])]).log := by
  obtain ⟨session, hsession⟩ : ∃ session, (History.run (step memoryStore)
      (start (Association.sampleStart .b) MemoryState.empty)
      [.act (.unprotectRequest [9, 0, 1]
        [1, 255, 97, 11, 110, 113, 63, 250, 235, 134, 48])]).session =
          some session :=
    Option.isSome_iff_exists.mp (by decide +kernel)
  exact ⟨session, hsession, reorders_within_window Crypto.standIn_aeadCorrect
    memoryStoreRecipient rfl MemoryState.empty _ hsession⟩

end Oscore
