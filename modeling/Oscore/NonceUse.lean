/-
Which sequence numbers, and hence which nonces, released messages carry.  A
reservation is spent on one message; the one operation that takes a number the
store does not know of is a response with a PIV outside the reservation path.
-/
import Oscore.Reservation
import Oscore.Encoding

namespace Oscore

open Rust Rust.Call

/-- The sender sequence a released message carries as a PIV of its own. -/
def Event.ownSeq? : Event → Option OscoreSeqNum
  | .sentRequest seq .. => some seq
  | .sentResponse ownSeq .. => ownSeq
  | _ => none

/-- The sequence of a release, under the identifier of its sender context. -/
def Entry.release? {C : Crypto} (entry : Entry C) :
    Option (ContextId × OscoreSeqNum) :=
  entry.event.ownSeq?.map (entry.material.contextId, ·)

namespace Material

variable {C : Crypto}

/-- Built from the same master secret, salt, ID context and sender ID. -/
structure SameSender (material other : Material C) : Prop where
  masterSecret : material.masterSecret = other.masterSecret
  masterSalt : material.masterSalt = other.masterSalt
  idContext : material.idContext = other.idContext
  senderId : material.senderId = other.senderId

/-- The nonce of a message with a PIV of its own. -/
def ownNonce (material : Material C) (seq : OscoreSeqNum) : Nonce :=
  computeNonce material.senderId seq.encodePiv material.commonIv

namespace SameSender

variable {material other : Material C}

theorem contextId (h : SameSender material other) :
    material.contextId = other.contextId := by
  rw [material.contextId_eq, other.contextId_eq, h.masterSecret, h.masterSalt,
    h.idContext, h.senderId]

theorem commonIv (h : SameSender material other) :
    material.commonIv = other.commonIv := by
  have hiv := other.commonIv_eq
  rw [← h.masterSecret, ← h.masterSalt, ← h.idContext,
    material.commonIv_eq] at hiv
  exact Except.ok.inj hiv

theorem senderKey (h : SameSender material other) :
    material.senderKey = other.senderKey := by
  have hkey := other.senderKey_eq
  rw [← h.masterSecret, ← h.masterSalt, ← h.idContext, ← h.senderId,
    material.senderKey_eq] at hkey
  exact Except.ok.inj hkey

theorem ownNonce_injective (h : SameSender material other)
    {seq seq' : OscoreSeqNum}
    (hnonce : material.ownNonce seq = other.ownNonce seq') : seq = seq' := by
  unfold ownNonce at hnonce
  rw [h.commonIv] at hnonce
  exact (computeNonce_injective material.senderId_le other.senderId_le
    hnonce).2

end SameSender

end Material

namespace Deployment

variable {C : Crypto} {σ ε : Type} {S : ContextStateStore σ ε}

/-- The sequence numbers released so far, latest first. -/
def releases (sys : Deployment C σ) : List (ContextId × OscoreSeqNum) :=
  sys.log.filterMap Entry.release?

/-- The operation is a `protect_response` with a PIV that passes its checks, on
a message that fits: it takes a sequence that is not reserved. -/
def TakesUnreserved (sys : Deployment C σ) : Op → Prop
  | .act handle (.protectResponse _ classEOptions payload requestKid requestPiv
      true) =>
      ∃ session, sys.Live handle session ∧ session.borrow = .free ∧
        session.context.active = true ∧
        ¬ session.context.badRequest requestKid requestPiv ∧
        session.context.senderSeq.get < seqMax ∧
        ctRequired classEOptions payload ≤ ctCap
  | _ => False

/-- Any two messages released with a PIV of their own under one sender context
carry different sequence numbers and different nonces. -/
def NoReuse (sys : Deployment C σ) : Prop :=
  sys.log.Pairwise fun later earlier =>
    ∀ seq seq', later.event.ownSeq? = some seq →
      earlier.event.ownSeq? = some seq' →
      later.material.SameSender earlier.material →
      seq ≠ seq' ∧
        later.material.ownNonce seq ≠ earlier.material.ownNonce seq'

/-- A reservation is spent once: what is released was reserved, and what is
still held was not released. -/
structure SpentOnce (K : SenderContract S) (sys : Deployment C σ) : Prop where
  orderly : Orderly K sys
  nodup : sys.releases.Nodup
  reserved : ∀ id seq, (id, seq) ∈ sys.releases → seq.get ∈ sys.tickets id
  held : ∀ handle session sender, sys.Live handle session →
    session.borrow = .reserved sender →
    sender.sequence.get ∈ sys.tickets session.context.contextId ∧
      (session.context.contextId, sender.sequence) ∉ sys.releases
  exclusive : ∀ handle handle' session session' sender,
    sys.Live handle session → sys.Live handle' session' →
    session.borrow = .reserved sender → session'.borrow = .reserved sender →
    session.context.contextId = session'.context.contextId → handle = handle'

variable {K : SenderContract S} {sys sys' : Deployment C σ}

/-- The reservations held after the step were held before it. -/
def HoldsNoMore (sys sys' : Deployment C σ) : Prop :=
  ∀ handle session sender, sys'.Live handle session →
    session.borrow = .reserved sender →
    ∃ session₀, sys.Live handle session₀ ∧
      session₀.borrow = .reserved sender ∧
      session₀.context.contextId = session.context.contextId

theorem SpentOnce.keep (h : SpentOnce K sys) (horderly : Orderly K sys')
    (hreleases : sys'.releases = sys.releases)
    (htickets : ∀ id, sys'.tickets id = sys.tickets id)
    (hholds : HoldsNoMore sys sys') : SpentOnce K sys' where
  orderly := horderly
  nodup := hreleases ▸ h.nodup
  reserved id seq hmem := htickets id ▸ h.reserved id seq (hreleases ▸ hmem)
  held handle session sender hlive hborrow := by
    obtain ⟨session₀, hlive₀, hborrow₀, hid⟩ :=
      hholds handle session sender hlive hborrow
    rw [htickets, hreleases, ← hid]
    exact h.held handle session₀ sender hlive₀ hborrow₀
  exclusive handle handle' session session' sender hlive hlive' hborrow
      hborrow' hid := by
    obtain ⟨session₀, hlive₀, hborrow₀, hid₀⟩ :=
      hholds handle session sender hlive hborrow
    obtain ⟨session₁, hlive₁, hborrow₁, hid₁⟩ :=
      hholds handle' session' sender hlive' hborrow'
    exact h.exclusive handle handle' session₀ session₁ sender hlive₀ hlive₁
      hborrow₀ hborrow₁ (by rw [hid₀, hid₁, hid])

theorem holdsNoMore_set {handle : Nat} {slot : Option (Session C)}
    (hset : sys'.sessions = sys.sessions.set handle slot)
    (hslot : ∀ session sender, slot = some session →
      session.borrow = .reserved sender →
      ∃ session₀, sys.Live handle session₀ ∧
        session₀.borrow = .reserved sender ∧
        session₀.context.contextId = session.context.contextId) :
    HoldsNoMore sys sys' := by
  intro other session sender hlive hborrow
  rcases live_set hset hlive with ⟨rfl, hsome⟩ | ⟨-, hold⟩
  · exact hslot session sender hsome hborrow
  · exact ⟨session, hold, hborrow, rfl⟩

theorem tickets_of_log {entry : Entry C} (hlog : sys'.log = entry :: sys.log)
    (id : ContextId) :
    sys'.tickets id = (entry.ticket? id).toList ++ sys.tickets id := by
  rw [tickets, hlog, List.filterMap_cons]
  cases entry.ticket? id <;> rfl

theorem releases_of_log {entry : Entry C}
    (hlog : sys'.log = entry :: sys.log) :
    sys'.releases = entry.release?.toList ++ sys.releases := by
  rw [releases, hlog, List.filterMap_cons]
  cases entry.release? <;> rfl

/-- A successful reservation takes a ticket nobody has. -/
theorem SpentOnce.reserve (h : SpentOnce K sys) (horderly : Orderly K sys')
    {handle : Nat} {session : Session C} (hlive : sys.Live handle session)
    (hfresh : session.context.senderSeqExhausted = false)
    (hexpected : K.record sys.store session.context.contextId =
      some session.context.senderSequenceState)
    (hsessions : sys'.sessions = sys.sessions.set handle
      (some ⟨session.context.reserved,
        .reserved ⟨session.context.senderSeq⟩⟩))
    (hlog : sys'.log = ⟨handle, session.context.toMaterial,
      .reserved session.context.senderSeq⟩ :: sys.log) :
    SpentOnce K sys' := by
  have hcounter : ticketCounter
      (K.record sys.store session.context.contextId) =
        session.context.senderSeq.get := by
    simp [hexpected, ticketCounter, Context.senderSequenceState, hfresh]
  have hnew : session.context.senderSeq.get ∉
      sys.tickets session.context.contextId := by
    intro hmem
    have hlt := (h.orderly.issued _).2 _ hmem
    omega
  have hreleases : sys'.releases = sys.releases := releases_of_log hlog
  have htickets : ∀ {id ticket}, ticket ∈ sys.tickets id →
      ticket ∈ sys'.tickets id := by
    intro id ticket hmem
    rw [tickets_of_log hlog]
    exact List.mem_append_right _ hmem
  have hheld : ∀ other session' sender, other ≠ handle →
      sys.Live other session' → session'.borrow = .reserved sender →
      session'.context.contextId = session.context.contextId →
      sender ≠ ⟨session.context.senderSeq⟩ := by
    rintro other session' sender - hother hborrow hid rfl
    exact hnew (hid ▸ (h.held other session' _ hother hborrow).1)
  refine ⟨horderly, hreleases ▸ h.nodup, fun id seq hmem =>
    htickets (h.reserved id seq (hreleases ▸ hmem)), ?_, ?_⟩
  · intro other session' sender hlive' hborrow
    rw [hreleases]
    rcases live_set hsessions hlive' with ⟨rfl, hsome⟩ | ⟨-, hold⟩
    · cases hsome
      cases hborrow
      refine ⟨?_, fun hmem => hnew (h.reserved _ _ hmem)⟩
      rw [tickets_of_log hlog]
      simp [Entry.ticket?, Context.reserved]
    · obtain ⟨hticket, hunspent⟩ := h.held other session' sender hold hborrow
      exact ⟨htickets hticket, hunspent⟩
  · intro one two session₁ session₂ sender hone htwo hborrow₁ hborrow₂ hid
    rcases live_set hsessions hone with ⟨rfl, hsome₁⟩ | ⟨hne₁, hold₁⟩ <;>
      rcases live_set hsessions htwo with ⟨rfl, hsome₂⟩ | ⟨hne₂, hold₂⟩
    · rfl
    · cases hsome₁
      cases hborrow₁
      exact absurd rfl (hheld two session₂ _ hne₂ hold₂ hborrow₂ hid.symm)
    · cases hsome₂
      cases hborrow₂
      exact absurd rfl (hheld one session₁ _ hne₁ hold₁ hborrow₁ hid)
    · exact h.exclusive one two session₁ session₂ sender hold₁ hold₂ hborrow₁
        hborrow₂ hid

/-- A release spends the reservation its session held. -/
theorem SpentOnce.release (h : SpentOnce K sys) (horderly : Orderly K sys')
    {handle : Nat} {session : Session C} {sender : ReservedSender}
    {event : Event} (hlive : sys.Live handle session)
    (hholds : session.borrow = .reserved sender)
    (hevent : event.ownSeq? = some sender.sequence)
    (hticket : ∀ id, (Entry.mk handle session.context.toMaterial
      event).ticket? id = none)
    (hsessions : sys'.sessions =
      sys.sessions.set handle (some ⟨session.context, .free⟩))
    (hlog : sys'.log =
      ⟨handle, session.context.toMaterial, event⟩ :: sys.log) :
    SpentOnce K sys' := by
  have hreleases : sys'.releases =
      (session.context.contextId, sender.sequence) :: sys.releases := by
    rw [releases_of_log hlog]
    simp [Entry.release?, hevent]
  have htickets : ∀ id, sys'.tickets id = sys.tickets id := by
    intro id
    rw [tickets_of_log hlog, hticket]
    rfl
  obtain ⟨hreserved, hunspent⟩ := h.held handle session sender hlive hholds
  have hold : ∀ other session' sender', sys'.Live other session' →
      session'.borrow = .reserved sender' →
      other ≠ handle ∧ sys.Live other session' := by
    intro other session' sender' hlive' hborrow
    rcases live_set hsessions hlive' with ⟨-, hsome⟩ | hold
    · cases hsome
      cases hborrow
    · exact hold
  refine ⟨horderly, ?_, ?_, ?_, ?_⟩
  · rw [hreleases]
    exact List.nodup_cons.mpr ⟨hunspent, h.nodup⟩
  · intro id seq hmem
    rw [htickets]
    rcases List.mem_cons.mp (hreleases ▸ hmem) with heq | hmem
    · cases heq
      exact hreserved
    · exact h.reserved id seq hmem
  · intro other session' sender' hlive' hborrow
    obtain ⟨hne, hlive₀⟩ := hold other session' sender' hlive' hborrow
    obtain ⟨hticket', hunspent'⟩ :=
      h.held other session' sender' hlive₀ hborrow
    rw [htickets, hreleases]
    refine ⟨hticket', fun hmem => ?_⟩
    rcases List.mem_cons.mp hmem with heq | hmem
    · simp only [Prod.mk.injEq] at heq
      have hsame : sender' = sender := by
        cases sender
        cases sender'
        exact congrArg _ heq.2
      exact hne (h.exclusive other handle session' session sender hlive₀ hlive
        (hsame ▸ hborrow) hholds heq.1)
    · exact hunspent' hmem
  · intro one two session₁ session₂ sender' hone htwo hborrow₁ hborrow₂ hid
    exact h.exclusive one two session₁ session₂ sender'
      (hold one session₁ sender' hone hborrow₁).2
      (hold two session₂ sender' htwo hborrow₂).2 hborrow₁ hborrow₂ hid

/-- A slot that holds no reservation, or what its session held already. -/
theorem holdsNoMore_of_effect {handle : Nat} {session session' : Session C}
    (hlive : sys.Live handle session)
    (hset : sys'.sessions = sys.sessions.set handle (some session'))
    (hslot : session' = session ∨
      ∀ sender, session'.borrow ≠ .reserved sender) : HoldsNoMore sys sys' := by
  refine holdsNoMore_set hset fun other sender hsome hborrow => ?_
  cases hsome
  rcases hslot with rfl | hnone
  · exact ⟨session', hlive, hborrow, rfl⟩
  · exact absurd hborrow (hnone sender)

theorem SpentOnce.acted (h : SpentOnce K sys) {handle : Nat} {action : Action}
    {session session' : Session C} {store : σ} {event : Option Event}
    (hguard : ¬ sys.TakesUnreserved (.act handle action))
    (hlive : sys.Live handle session)
    (heffect : session.Effect S sys.store action session' store event) :
    SpentOnce K
      { store
        sessions := sys.sessions.set handle (some session')
        log := (event.map
          (Entry.mk handle session.context.toMaterial)).toList ++ sys.log } := by
  have horderly := h.orderly.acted hlive heffect
  cases heffect with
  | skipped =>
      exact h.keep horderly rfl (fun _ => rfl)
        (holdsNoMore_of_effect hlive rfl (Or.inl rfl))
  | reserved store' hactive hfresh hswap =>
      exact h.reserve horderly hlive hfresh (K.swap_true _ _ _ _ _ hswap).1 rfl
        rfl
  | sentRequest sender code classEOptions payload message hholds hok =>
      exact h.release horderly hlive hholds rfl (fun _ => rfl) rfl rfl
  | sentResponse sender code classEOptions payload requestKid requestPiv message
      hholds hok =>
      exact h.release horderly hlive hholds rfl (fun _ => rfl) rfl rfl
  | sentOwn code classEOptions payload requestKid requestPiv message hholds
      hactive hrequest hbelow hok =>
      obtain ⟨ctOut, hseal, -⟩ := Outcome.bind_eq_ok.mp hok
      exact absurd ⟨session, hlive, hholds, hactive, hrequest, hbelow,
        ctRequired_of_sealMessage hseal⟩ hguard
  | _ =>
      exact h.keep horderly rfl (fun _ => rfl)
        (holdsNoMore_of_effect hlive rfl (Or.inr (by simp)))

theorem SpentOnce.change (h : SpentOnce K sys) {op : Op}
    (hguard : ¬ sys.TakesUnreserved op) (hchange : Change K sys op sys') :
    SpentOnce K sys' := by
  have horderly := h.orderly.change hchange
  cases hchange with
  | none => exact h
  | spawned context hidle =>
      refine h.keep horderly rfl (fun _ => rfl) ?_
      intro handle session sender hlive hborrow
      rcases live_spawn.mp hlive with hold | ⟨-, rfl⟩
      · exact ⟨session, hold, hborrow, rfl⟩
      · cases hborrow
  | crashed handle store hkept =>
      exact h.keep horderly rfl (fun _ => rfl)
        (holdsNoMore_set rfl fun _ _ hnone => nomatch hnone)
  | saved store hkept =>
      exact h.keep horderly rfl (fun _ => rfl)
        fun _ session _ hlive hborrow => ⟨session, hlive, hborrow, rfl⟩
  | registered handle context store hlive =>
      exact h.keep horderly rfl (fun _ => rfl)
        (holdsNoMore_of_effect hlive rfl (Or.inr (by simp)))
  | registerFailed handle context store hlive hswap =>
      exact h.keep horderly rfl (fun _ => rfl)
        (holdsNoMore_set rfl fun _ _ hnone => nomatch hnone)
  | restored handle context context' store state rs hlive =>
      exact h.keep horderly rfl (fun _ => rfl)
        (holdsNoMore_of_effect hlive rfl (Or.inr (by simp)))
  | acted handle action session session' store event hlive heffect =>
      exact h.acted hguard hlive heffect

theorem spentOnce_run (K : SenderContract S) (store : σ) {ops : List Op}
    (hguard : History.Guarded (step S) (fun sys op => ¬ sys.TakesUnreserved op)
      (boot C store) ops) :
    SpentOnce K (History.run (step S) (boot C store) ops) := by
  refine History.invariant_of_guarded
    (fun sys op h hop => h.change hop (step_change K sys op)) hguard ?_
  refine ⟨orderly_run K store [], List.nodup_nil, ?_, ?_, ?_⟩ <;>
    simp [releases, Live, boot]

theorem noReuse_of_nodup (h : sys.releases.Nodup) : NoReuse sys := by
  have hpairs := List.pairwise_filterMap.mp h
  refine hpairs.imp fun {later earlier} hne seq seq' hlater hearlier hsame => ?_
  have hseq : seq ≠ seq' := by
    rintro rfl
    exact hne (later.material.contextId, seq) (by simp [Entry.release?, hlater])
      (earlier.material.contextId, seq) (by simp [Entry.release?, hearlier])
      (by rw [hsame.contextId])
  exact ⟨hseq, fun hnonce => hseq (hsame.ownNonce_injective hnonce)⟩

/-- As long as no response takes an unreserved sequence, no sequence number
and no nonce is used for two messages. -/
theorem noReuse_of_reserved (K : SenderContract S) (store : σ)
    (ops : List Op)
    (hguard : History.Guarded (step S) (fun sys op => ¬ sys.TakesUnreserved op)
      (boot C store) ops) :
    NoReuse (History.run (step S) (boot C store) ops) :=
  noReuse_of_nodup (spentOnce_run K store hguard).nodup

/-- Two contexts over one store, a crash between them, and every message under
a reservation. -/
def reservedRun : List Op :=
  [.newFresh Crypto.sampleKey none none [1] [2], .registerFresh 0,
    .act 0 .reserve, .act 0 (.protectRequest 1 [] []),
    .act 0 (.protectResponse 0x45 [] [] [2] [5] false), .crash 0,
    .newFresh Crypto.sampleKey none none [1] [2], .restoreExisting 1,
    .act 1 .reserve, .act 1 (.protectRequest 1 [] [])]

theorem noReuse_of_reserved_reservedRun :
    History.Guarded (step memoryStore)
        (fun sys op => ¬ sys.TakesUnreserved op)
        (boot Crypto.standIn MemoryState.empty) reservedRun ∧
      NoReuse (History.run (step memoryStore)
        (boot Crypto.standIn MemoryState.empty) reservedRun) := by
  have hguard : History.Guarded (step memoryStore)
      (fun sys op => ¬ sys.TakesUnreserved op)
      (boot Crypto.standIn MemoryState.empty) reservedRun := by
    simp [History.Guarded, reservedRun, TakesUnreserved]
  exact ⟨hguard, noReuse_of_reserved memoryStoreSender MemoryState.empty
    reservedRun hguard⟩

/-- A response with a PIV outside the reservation path, then a crash. -/
def unreservedRun : List Op :=
  [.newFresh Crypto.sampleKey none none [1] [2], .registerFresh 0,
    .act 0 (.protectResponse 0x45 [] [] [2] [5] true), .crash 0,
    .newFresh Crypto.sampleKey none none [1] [2], .restoreExisting 1,
    .act 1 .reserve, .act 1 (.protectRequest 1 [] [])]

/-- The store never learns of the sequence such a response takes, and hands it
out again. -/
theorem unreserved_response_reuses_sequence :
    ¬ NoReuse (History.run (step memoryStore)
      (boot Crypto.standIn MemoryState.empty) unreservedRun) := by
  intro h
  have hpair := List.pairwise_iff_getElem.mp h 0 2 (by decide +kernel)
    (by decide +kernel) (by decide) .default .default (by decide +kernel)
    (by decide +kernel) ⟨by decide +kernel, by decide +kernel,
      by decide +kernel, by decide +kernel⟩
  exact hpair.1 rfl

end Deployment

end Oscore
