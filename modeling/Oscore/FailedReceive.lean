/-
What a receiving call may write.  A call that fails, and a pending response
that is dropped, leave the context as it was; an accepted message writes its
own windows and nothing else.
-/
import Oscore.Unprotect

namespace Oscore

open Rust Rust.Call

namespace Context

variable {C : Crypto}

/-- No field but `recipient_seq` and `replay_window` differs. -/
def SameButReplay (before after : Context C) : Prop :=
  after = { before with replay := after.replay }

/-- No field but the windows of received responses differs. -/
def SameButReceived (before after : Context C) : Prop :=
  after = { before with
    receivedResponse := after.receivedResponse
    receivedResponsePiv := after.receivedResponsePiv }

theorem sameButReplay_acceptRequest (self : Context C) (seq : OscoreSeqNum) :
    self.SameButReplay (self.acceptRequest seq) := rfl

theorem sameButReceived_acceptResponse (self : Context C)
    (pending : PendingResponse) :
    self.SameButReceived (self.acceptResponse pending) := rfl

theorem receivedResponse_acceptResponse {self : Context C}
    {pending : PendingResponse} (hkeeps : pending.markRequestUsed = false) :
    (self.acceptResponse pending).receivedResponse = self.receivedResponse := by
  simp [acceptResponse, hkeeps]

/-- A pending notification never marks its request as answered. -/
theorem marks_of_begin {self after : Context C}
    {oscoreOption ciphertext requestPiv : Bytes} {observe : Bool}
    {pending : PendingResponse}
    (h : (beginUnprotectResponseMode oscoreOption ciphertext requestPiv
      observe).run self = .ok pending after) :
    pending.markRequestUsed = !observe := by
  obtain ⟨opt, plaintext, haccepts, -⟩ := beginUnprotectResponseMode_eq_ok.mp h
  exact haccepts.marks

/-- What a committed response, of either kind, has written. -/
theorem commit_writes {self opened after : Context C}
    {oscoreOption ciphertext requestPiv : Bytes} {observe : Bool}
    {pending : PendingResponse} {message : Message}
    (hbegin : (beginUnprotectResponseMode oscoreOption ciphertext requestPiv
      observe).run self = .ok pending opened)
    (hcommit : pending.commit.run opened = .ok message after) :
    self.SameButReceived after ∧
      (observe = true → after.receivedResponse = self.receivedResponse) := by
  have hopened : opened = self :=
    (readOnly_beginUnprotectResponseMode _ _ _ _).1 _ _ _ hbegin
  have hmarks := marks_of_begin hbegin
  obtain ⟨-, -, hafter⟩ := commit_eq_ok.mp hcommit
  subst hopened hafter
  constructor
  · exact sameButReceived_acceptResponse opened pending
  · intro hobserve
    apply receivedResponse_acceptResponse
    rw [hmarks, hobserve]
    rfl

/-- `begin_unprotect_response_mode(..)?.commit()` -/
theorem transactional_beginCommit
    (oscoreOption ciphertext requestPiv : Bytes) (observe : Bool) :
    Transactional (do
      let pending ← beginUnprotectResponseMode (C := C) oscoreOption ciphertext
        requestPiv observe
      pending.commit) :=
  (readOnly_beginUnprotectResponseMode _ _ _ _).bind fun pending =>
    transactional_commit pending

/-- The receiving calls of a context and what each of them may write. -/
structure ReceivesCleanly (C : Crypto) : Prop where
  request_failed : ∀ oscoreOption ciphertext,
    Transactional (unprotectRequest (C := C) oscoreOption ciphertext)
  request_accepted : ∀ (self after : Context C) oscoreOption ciphertext message,
    (unprotectRequest oscoreOption ciphertext).run self = .ok message after →
      self.SameButReplay after
  /-- A response that is begun, whether or not that fails, and dropped. -/
  response_begun : ∀ oscoreOption ciphertext requestPiv,
    ReadOnly (beginUnprotectResponse (C := C) oscoreOption ciphertext
      requestPiv)
  notification_begun : ∀ oscoreOption ciphertext requestPiv,
    ReadOnly (beginUnprotectObserveResponse (C := C) oscoreOption ciphertext
      requestPiv)
  response_failed : ∀ oscoreOption ciphertext requestPiv,
    Transactional (unprotectResponse (C := C) oscoreOption ciphertext
      requestPiv)
  notification_failed : ∀ oscoreOption ciphertext requestPiv,
    Transactional (unprotectObserveResponse (C := C) oscoreOption ciphertext
      requestPiv)
  commit_failed : ∀ pending : PendingResponse,
    Transactional (pending.commit (C := C))
  response_committed : ∀ (self opened after : Context C) oscoreOption ciphertext
      requestPiv pending message,
    (beginUnprotectResponse oscoreOption ciphertext requestPiv).run self =
      .ok pending opened →
    pending.commit.run opened = .ok message after →
      self.SameButReceived after
  notification_committed : ∀ (self opened after : Context C) oscoreOption
      ciphertext requestPiv pending message,
    (beginUnprotectObserveResponse oscoreOption ciphertext requestPiv).run
      self = .ok pending opened →
    pending.commit.run opened = .ok message after →
      self.SameButReceived after ∧
        after.receivedResponse = self.receivedResponse
  response_accepted : ∀ (self after : Context C) oscoreOption ciphertext
      requestPiv message,
    (unprotectResponse oscoreOption ciphertext requestPiv).run self =
      .ok message after →
      self.SameButReceived after
  notification_accepted : ∀ (self after : Context C) oscoreOption ciphertext
      requestPiv message,
    (unprotectObserveResponse oscoreOption ciphertext requestPiv).run self =
      .ok message after →
      self.SameButReceived after ∧
        after.receivedResponse = self.receivedResponse

/-- No failed receive changes a context. -/
theorem receivesCleanly (C : Crypto) : ReceivesCleanly C where
  request_failed := transactional_unprotectRequest
  request_accepted := by
    intro self after oscoreOption ciphertext message h
    obtain ⟨opt, seq, plaintext, -, hafter⟩ := unprotectRequest_eq_ok.mp h
    rw [hafter]
    exact sameButReplay_acceptRequest self seq
  response_begun oscoreOption ciphertext requestPiv :=
    readOnly_beginUnprotectResponseMode oscoreOption ciphertext requestPiv false
  notification_begun oscoreOption ciphertext requestPiv :=
    readOnly_beginUnprotectResponseMode oscoreOption ciphertext requestPiv true
  response_failed oscoreOption ciphertext requestPiv :=
    transactional_beginCommit oscoreOption ciphertext requestPiv false
  notification_failed oscoreOption ciphertext requestPiv :=
    transactional_beginCommit oscoreOption ciphertext requestPiv true
  commit_failed := transactional_commit
  response_committed := by
    intro self opened after oscoreOption ciphertext requestPiv pending message
      hbegin hcommit
    exact (commit_writes hbegin hcommit).1
  notification_committed := by
    intro self opened after oscoreOption ciphertext requestPiv pending message
      hbegin hcommit
    obtain ⟨hsame, hkeeps⟩ := commit_writes hbegin hcommit
    exact ⟨hsame, hkeeps rfl⟩
  response_accepted := by
    intro self after oscoreOption ciphertext requestPiv message h
    obtain ⟨pending, opened, hbegin, hcommit⟩ := Call.bind_eq_ok.mp h
    exact (commit_writes hbegin hcommit).1
  notification_accepted := by
    intro self after oscoreOption ciphertext requestPiv message h
    obtain ⟨pending, opened, hbegin, hcommit⟩ := Call.bind_eq_ok.mp h
    obtain ⟨hsame, hkeeps⟩ := commit_writes hbegin hcommit
    exact ⟨hsame, hkeeps rfl⟩

end Context

end Oscore
