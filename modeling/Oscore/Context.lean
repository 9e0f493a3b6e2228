/-
The OSCORE security context: its immutable key material, which carries the
checks of `Context::new` as proofs, its mutable counters and windows, and the
durable store that activates it.
-/
import Oscore.Derive
import Oscore.Window

namespace Oscore

open Rust Rust.Call

/-- The fields of a context that no operation changes.  Every value satisfies
what `Context::new` checked and derived. -/
structure Material (C : Crypto) where
  masterSecret : Key
  masterSalt : Bytes
  idContext : Option Bytes
  senderId : Bytes
  recipientId : Bytes
  senderKey : Key
  recipientKey : Key
  commonIv : Nonce
  contextId : ContextId
  masterSalt_le : masterSalt.length ≤ saltMaxLen
  idContext_le : (idContext.getD []).length ≤ idContextCapacity
  senderId_le : senderId.length ≤ nonceIdLen
  recipientId_le : recipientId.length ≤ nonceIdLen
  ids_ne : senderId ≠ recipientId
  senderKey_eq :
    deriveKey C masterSecret masterSalt senderId idContext = .ok senderKey
  recipientKey_eq :
    deriveKey C masterSecret masterSalt recipientId idContext =
      .ok recipientKey
  commonIv_eq : deriveIv C masterSecret masterSalt idContext = .ok commonIv
  contextId_eq :
    contextId = deriveContextId C masterSecret masterSalt idContext senderId

structure SenderSequenceState where
  nextSequence : Nat
  exhausted : Bool
deriving Repr, DecidableEq

/-- All recipient-side windows as persisted; the sequence fields are raw `u64`
values that need not be sequence numbers. -/
structure RecipientReplayState where
  recipientSeq : Nat
  replayWindow : UInt32
  responseSeq : Nat
  responseWindow : UInt32
  responseWindowInitialized : Bool
  receivedResponseSeq : Nat
  receivedResponseWindow : UInt32
  receivedResponseWindowInitialized : Bool
  receivedResponsePivSeq : Nat
  receivedResponsePivWindow : UInt32
  receivedResponsePivWindowInitialized : Bool
deriving DecidableEq

structure Context (C : Crypto) extends Material C where
  senderSeq : OscoreSeqNum
  senderSeqExhausted : Bool
  restored : Bool
  active : Bool
  /-- `recipient_seq` and `replay_window` -/
  replay : ReplayWindow
  /-- Requests for which a response without a fresh PIV was protected. -/
  response : ReuseWindow
  receivedResponse : ReuseWindow
  receivedResponsePiv : ReuseWindow
  allowNoPivResponse : Bool

inductive ContextStoreError (ε : Type) where
  | oscore (error : OscoreError)
  | storage (error : ε)
  | missing
  | conflict
deriving Repr, DecidableEq

inductive ReservationError (ε : Type) where
  | sequenceExhausted
  | conflict
  | storage (error : ε)
deriving Repr, DecidableEq

/-- Durable storage for context state; `σ` is the state of the store, which a
method may change whether or not it succeeds. -/
structure ContextStateStore (σ ε : Type) where
  loadSender : ContextId → EStateM ε σ (Option SenderSequenceState)
  compareExchangeSender : ContextId → Option SenderSequenceState →
    SenderSequenceState → EStateM ε σ Bool
  loadRecipient : ContextId → EStateM ε σ (Option RecipientReplayState)
  saveRecipient : ContextId → RecipientReplayState → EStateM ε σ Unit

/-- One-use capability for sender-sequence encryption; it borrows its context. -/
structure ReservedSender where
  sequence : OscoreSeqNum
deriving DecidableEq

namespace Material

variable {C : Crypto}

/-- The checks of `Context::new` and what it derives. -/
def build (C : Crypto) (masterSecret : Key)
    (masterSalt idContext : Option Bytes) (senderId recipientId : Bytes) :
    Outcome OscoreError (Material C) :=
  if hlen : senderId.length > nonceIdLen ∨ recipientId.length > nonceIdLen then
    throw (.err .invalidParam)
  else if senderId = [] ∧ recipientId = [] then
    throw (.err .invalidParam)
  else if hids : senderId = recipientId then
    throw (.err .invalidParam)
  else
    let salt := masterSalt.getD []
    if hsalt : salt.length > saltMaxLen then
      throw (.err .invalidParam)
    else if hcontext : (idContext.getD []).length > idContextCapacity then
      throw (.err .invalidParam)
    else
      match hsender : deriveKey C masterSecret salt senderId idContext with
      | .error fault => .error fault
      | .ok senderKey =>
      match hrecipient :
          deriveKey C masterSecret salt recipientId idContext with
      | .error fault => .error fault
      | .ok recipientKey =>
      match hiv : deriveIv C masterSecret salt idContext with
      | .error fault => .error fault
      | .ok commonIv => .ok
        { masterSecret
          masterSalt := salt
          idContext
          senderId
          recipientId
          senderKey
          recipientKey
          commonIv
          contextId := deriveContextId C masterSecret salt idContext senderId
          masterSalt_le := Nat.not_lt.mp hsalt
          idContext_le := Nat.not_lt.mp hcontext
          senderId_le := Nat.not_lt.mp fun h => hlen (Or.inl h)
          recipientId_le := Nat.not_lt.mp fun h => hlen (Or.inr h)
          ids_ne := hids
          senderKey_eq := hsender
          recipientKey_eq := hrecipient
          commonIv_eq := hiv
          contextId_eq := rfl }

/-- A context keeps the arguments it was built from. -/
theorem of_build {masterSecret : Key} {masterSalt idContext : Option Bytes}
    {senderId recipientId : Bytes} {material : Material C}
    (h : build C masterSecret masterSalt idContext senderId recipientId =
      .ok material) :
    material.masterSecret = masterSecret ∧
      material.masterSalt = masterSalt.getD [] ∧
      material.idContext = idContext ∧ material.senderId = senderId ∧
      material.recipientId = recipientId := by
  simp only [build, Outcome.throw_eq_error] at h
  repeat' split at h
  all_goals cases h
  exact ⟨rfl, rfl, rfl, rfl, rfl⟩

end Material

namespace Context

variable {C : Crypto} {σ ε : Type}

/-- The defaults of a new context. -/
def initial (material : Material C) : Context C where
  toMaterial := material
  senderSeq := .default
  senderSeqExhausted := false
  restored := false
  active := false
  replay := .fresh
  response := .fresh
  receivedResponse := .fresh
  receivedResponsePiv := .fresh
  allowNoPivResponse := false

/-- Create a context from master material, optional ID context and peer IDs. -/
def new (C : Crypto) (masterSecret : Key)
    (masterSalt idContext : Option Bytes) (senderId recipientId : Bytes) :
    Outcome OscoreError (Context C) := do
  let material ←
    Material.build C masterSecret masterSalt idContext senderId recipientId
  return initial material

/-- Fresh context for EDHOC export; it starts inactive. -/
def newFresh (C : Crypto) (masterSecret : Key)
    (masterSalt idContext : Option Bytes) (senderId recipientId : Bytes) :
    Outcome OscoreError (Context C) := do
  let ctx ← new C masterSecret masterSalt idContext senderId recipientId
  return { ctx with
    restored := false, active := false, allowNoPivResponse := true }

/-- The sender reservation that must be durable before transmission. -/
def senderSequenceState (self : Context C) : SenderSequenceState :=
  ⟨self.senderSeq.get, self.senderSeqExhausted⟩

theorem new_eq_ok {masterSecret : Key} {masterSalt idContext : Option Bytes}
    {senderId recipientId : Bytes} {context : Context C} :
    new C masterSecret masterSalt idContext senderId recipientId =
        .ok context ↔
      ∃ material, Material.build C masterSecret masterSalt idContext senderId
          recipientId = .ok material ∧ context = initial material := by
  simp only [new, Outcome.bind_eq_ok, Outcome.pure_eq_ok, Except.ok.injEq]
  exact exists_congr fun _ => and_congr_right fun _ => eq_comm

theorem newFresh_eq_ok {masterSecret : Key}
    {masterSalt idContext : Option Bytes} {senderId recipientId : Bytes}
    {context : Context C} :
    newFresh C masterSecret masterSalt idContext senderId recipientId =
        .ok context ↔
      ∃ material, Material.build C masterSecret masterSalt idContext senderId
          recipientId = .ok material ∧
        context = { initial material with allowNoPivResponse := true } := by
  simp only [newFresh, Outcome.bind_eq_ok, new_eq_ok, Outcome.pure_eq_ok,
    Except.ok.injEq]
  constructor
  · rintro ⟨_, ⟨material, hbuild, rfl⟩, rfl⟩
    exact ⟨material, hbuild, rfl⟩
  · rintro ⟨material, hbuild, rfl⟩
    exact ⟨_, ⟨material, hbuild, rfl⟩, rfl⟩

def setSenderState (self : Context C) (state : SenderSequenceState) :
    Outcome OscoreError (Context C) := do
  let sequence ← okOr (OscoreSeqNum.new state.nextSequence) .invalidParam
  failIf (state.exhausted = true ∧ state.nextSequence ≠ seqMax) .invalidParam
  return { self with
    senderSeq := sequence, senderSeqExhausted := state.exhausted }

/-- Snapshot of all recipient-side replay windows for persistence. -/
def recipientReplayState (self : Context C) : RecipientReplayState where
  recipientSeq := self.replay.seq.get
  replayWindow := self.replay.window
  responseSeq := self.response.seq.get
  responseWindow := self.response.window
  responseWindowInitialized := self.response.initialized
  receivedResponseSeq := self.receivedResponse.seq.get
  receivedResponseWindow := self.receivedResponse.window
  receivedResponseWindowInitialized := self.receivedResponse.initialized
  receivedResponsePivSeq := self.receivedResponsePiv.seq.get
  receivedResponsePivWindow := self.receivedResponsePiv.window
  receivedResponsePivWindowInitialized := self.receivedResponsePiv.initialized

/-- `OscoreSeqNum::new(value).unwrap_or_default()` -/
def seqOrDefault (value : Nat) : OscoreSeqNum :=
  (OscoreSeqNum.new value).getD .default

def setRecipientReplayState (self : Context C) (s : RecipientReplayState) :
    Context C :=
  { self with
    replay := ⟨seqOrDefault s.recipientSeq, s.replayWindow⟩
    response := ⟨seqOrDefault s.responseSeq, s.responseWindow,
      s.responseWindowInitialized⟩
    receivedResponse := ⟨seqOrDefault s.receivedResponseSeq,
      s.receivedResponseWindow, s.receivedResponseWindowInitialized⟩
    receivedResponsePiv := ⟨seqOrDefault s.receivedResponsePivSeq,
      s.receivedResponsePivWindow, s.receivedResponsePivWindowInitialized⟩ }

/-! The windows of responses, under the names of the three pairs of methods. -/

/-- A response without a fresh PIV was protected for this request. -/
abbrev isResponseReuse (self : Context C) (seq : OscoreSeqNum) : Bool :=
  self.response.isReuse seq

abbrev markResponseUsed (self : Context C) (seq : OscoreSeqNum) : Context C :=
  { self with response := self.response.mark seq }

abbrev isReceivedResponseReuse (self : Context C) (seq : OscoreSeqNum) : Bool :=
  self.receivedResponse.isReuse seq

abbrev markReceivedResponse (self : Context C) (seq : OscoreSeqNum) :
    Context C :=
  { self with receivedResponse := self.receivedResponse.mark seq }

abbrev isReceivedResponsePivReuse (self : Context C) (seq : OscoreSeqNum) :
    Bool :=
  self.receivedResponsePiv.isReuse seq

abbrev markReceivedResponsePiv (self : Context C) (seq : OscoreSeqNum) :
    Context C :=
  { self with receivedResponsePiv := self.receivedResponsePiv.mark seq }

/-- Run a store method, wrapping its error. -/
def onStore {ε' α : Type} (wrap : ε → ε') (method : EStateM ε σ α) :
    Call σ ε' α :=
  method.adaptExcept fun error => .err (wrap error)

/-- Atomically activate a newly established context in its store. -/
def registerFresh (S : ContextStateStore σ ε) (self : Context C) :
    Call σ (ContextStoreError ε) (Context C) := do
  check (failIf (self.restored = true ∨ self.active = true)
    (.oscore .invalidParam))
  let swapped ← onStore .storage
    (S.compareExchangeSender self.contextId none self.senderSequenceState)
  check (failIf (swapped = false) .conflict)
  return { self with active := true, allowNoPivResponse := true }

/-- The tail of `restore_existing` behind the two loads. -/
def activateRestored (self : Context C) (rs : Option RecipientReplayState) :
    Context C :=
  let self := match rs with
    | some rs => self.setRecipientReplayState rs
    | none => self
  { self with restored := true, active := true, allowNoPivResponse := false }

/-- `map_err(ContextStoreError::Oscore)` -/
def wrapOscore {α : Type} (outcome : Outcome OscoreError α) :
    Outcome (ContextStoreError ε) α :=
  outcome.mapError fun
    | .err error => .err (.oscore error)
    | .panic => .panic

/-- Activate a context using state already present in its store. -/
def restoreExisting (S : ContextStateStore σ ε) (self : Context C) :
    Call σ (ContextStoreError ε) (Context C) := do
  let loaded ← onStore .storage (S.loadSender self.contextId)
  let state ← check (okOr loaded .missing)
  let self ← check (wrapOscore (self.setSenderState state))
  let rs ← onStore .storage (S.loadRecipient self.contextId)
  return self.activateRestored rs

/-- The durable state a reservation of `sequence` writes. -/
def nextSenderState (sequence : OscoreSeqNum) : SenderSequenceState :=
  match sequence.increment with
  | some next => ⟨next.get, false⟩
  | none => ⟨seqMax, true⟩

/-- A store method run by a method of the context. -/
def zoomStore {α : Type} (method : EStateM ε σ α) :
    Call (Context C × σ) (ReservationError ε) α :=
  fun (self, store) =>
    match method store with
    | .ok value store => .ok value (self, store)
    | .error error store => .error (.err (.storage error)) (self, store)

/-- Atomically reserve the next sender sequence in durable storage. -/
def reserveSender (S : ContextStateStore σ ε) :
    Call (Context C × σ) (ReservationError ε) ReservedSender := do
  let (self, _) ← get
  check (failIf (self.active = false) .conflict)
  check (failIf (self.senderSeqExhausted = true) .sequenceExhausted)
  let sequence := self.senderSeq
  let expected := self.senderSequenceState
  let next := nextSenderState sequence
  let swapped ← zoomStore
    (S.compareExchangeSender self.contextId (some expected) next)
  check (failIf (swapped = false) .conflict)
  let senderSeq ← check (expect (OscoreSeqNum.new next.nextSequence))
  modify fun (self, store) =>
    ({ self with senderSeq, senderSeqExhausted := next.exhausted }, store)
  return ⟨sequence⟩

end Context

end Oscore
