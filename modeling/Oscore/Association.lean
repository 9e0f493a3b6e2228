/-
Two mirrored contexts and an attacker who decides what each of them is given.
An accepted message was protected by the other side, as the same kind of
message and for the same request: only the other side encrypts under the key,
and the AAD names the request.
-/
import Oscore.Receiver
import Oscore.Sealing

namespace Oscore

open Rust Rust.Call

inductive Side where
  | a
  | b
deriving DecidableEq

def Side.other : Side → Side
  | .a => .b
  | .b => .a

/-- A completed call: the session it ran on and the event it ended with. -/
structure Record (C : Crypto) where
  side : Side
  session : Session C
  action : Action
  event : Option Event

/-- The two ends with all calls so far, latest first. -/
structure Association (C : Crypto) (σ : Type) where
  parties : Side → Receiver C σ
  history : List (Record C)

namespace Record

variable {C : Crypto}

/-- The call performed the encryption `s`. -/
def Makes (r : Record C) (s : Sealing) : Prop :=
  r.session.sealing? r.action = some s

instance (r : Record C) (s : Sealing) : Decidable (r.Makes s) :=
  inferInstanceAs (Decidable (_ = _))

/-- The call released a request under this PIV. -/
def SentRequest (r : Record C) (piv ciphertext plaintext : Bytes) : Prop :=
  ∃ seq code classEOptions payload message,
    r.event = some (.sentRequest seq code classEOptions payload message) ∧
      seq.encodePiv = piv ∧ message.1.toList = ciphertext ∧
      innerPlaintext code classEOptions payload = plaintext

/-- The call released a response to this request. -/
def SentResponse (r : Record C)
    (requestKid requestPiv ciphertext plaintext : Bytes) : Prop :=
  ∃ ownSeq code classEOptions payload message,
    r.event = some (.sentResponse ownSeq code classEOptions payload requestKid
        requestPiv message) ∧
      message.1.toList = ciphertext ∧
      innerPlaintext code classEOptions payload = plaintext

end Record

namespace Association

variable {C : Crypto} {σ ε : Type}

def boot (start : Side → Context C) (stores : Side → σ) : Association C σ :=
  ⟨fun side => Receiver.start (start side) (stores side), []⟩

/-- The record of an operation; restarts and calls without a context leave
none. -/
def record? (S : Side → ContextStateStore σ ε) (sys : Association C σ)
    (side : Side) : Receiver.Op → Option (Record C)
  | .restart => none
  | .act action =>
      (sys.parties side).session.map fun session =>
        ⟨side, session, action,
          (session.act (S side) (sys.parties side).store action).2.2⟩

def step (S : Side → ContextStateStore σ ε) (sys : Association C σ)
    (op : Side × Receiver.Op) : Association C σ where
  parties := Function.update sys.parties op.1
    ((sys.parties op.1).step (S op.1) op.2)
  history := (record? S sys op.1 op.2).toList ++ sys.history

/-- The encryption that the decryption of an operation undoes, if it
succeeds. -/
def opening? (sys : Association C σ) (side : Side) :
    Receiver.Op → Option Sealing
  | .restart => none
  | .act action =>
      (sys.parties side).session.bind fun session => session.opening? action

/-- An ideal AEAD: the decryption of an operation succeeds only on what an
earlier call encrypted, key, nonce, AAD and all. -/
def IdealAead (sys : Association C σ) (op : Side × Receiver.Op) : Prop :=
  ∀ s ∈ sys.opening? op.1 op.2, ∃ r ∈ sys.history, r.Makes s

instance (sys : Association C σ) (op : Side × Receiver.Op) :
    Decidable (sys.IdealAead op) :=
  inferInstanceAs (Decidable (∀ s ∈ _, ∃ r ∈ _, _))

/-- Some call of `earlier` encrypted `s`, and every one that did is as
`P` says. -/
def MadeOnlyBy (earlier : List (Record C)) (s : Sealing)
    (P : Record C → Prop) : Prop :=
  (∃ r ∈ earlier, r.Makes s) ∧ ∀ r ∈ earlier, r.Makes s → P r

/-- What the acceptance `r` says about the calls before it. -/
structure Authentic (start : Side → Context C) (r : Record C)
    (earlier : List (Record C)) : Prop where
  request : ∀ oscoreOption ciphertext message,
    r.event = some (.gotRequest oscoreOption ciphertext message) →
    ∃ opt s, parseOption oscoreOption = .ok opt ∧
      MadeOnlyBy earlier s fun sent => sent.side = r.side.other ∧
        sent.SentRequest opt.piv ciphertext (plaintextOf message)
  response : ∀ call message, r.event = some (.gotResponse call message) →
    ∃ s, MadeOnlyBy earlier s fun sent => sent.side = r.side.other ∧
      sent.SentResponse (start r.side).senderId call.requestPiv
        call.ciphertext (plaintextOf message)

/-! The two ends keep their keys, and who encrypted what is on record. -/

variable {S : Side → ContextStateStore σ ε}

/-- Every call on record ran on a context of its side. -/
def Recorded (S : Side → ContextStateStore σ ε) (start : Side → Context C)
    (history : List (Record C)) : Prop :=
  ∀ r ∈ history, r.session.context.toMaterial = (start r.side).toMaterial ∧
    ∃ store, r.event = (r.session.act (S r.side) store r.action).2.2

/-- What a side opened, it did not encrypt itself, and the other side encrypted
it for the same exchange. -/
theorem Recorded.origin {start : Side → Context C}
    {history : List (Record C)} (h : Recorded S start history)
    (hmirror : ∀ side, (start side).Mirrors (start side.other).toMaterial)
    (hkeys : (start .a).senderKey ≠ (start .b).senderKey) {side : Side}
    {requestKid requestPiv ciphertext plaintext : Bytes} {s : Sealing}
    (hopened : Session.Opened (start side).toMaterial requestKid requestPiv
      ciphertext plaintext s)
    {sent : Record C} (hsent : sent ∈ history) (hmakes : sent.Makes s) :
    sent.side = side.other ∧
      ((requestKid = (start side).recipientId ∧
          sent.SentRequest requestPiv ciphertext plaintext) ∨
        (requestKid = (start side).senderId ∧
          sent.SentResponse requestKid requestPiv ciphertext plaintext)) := by
  obtain ⟨hmaterial, store, hevent⟩ := h sent hsent
  have hkey := Session.key_of_sealing? hmakes
  rw [hopened.key, congrArg Material.senderKey hmaterial,
    ← (hmirror side).senderKey] at hkey
  have hside : sent.side = side.other := by
    cases hcase : sent.side <;> cases side <;>
      simp only [hcase, Side.other] at hkey ⊢
    · exact absurd hkey.symm hkeys
    · exact absurd hkey hkeys
  have hsender : sent.session.context.senderId = (start side).recipientId := by
    rw [congrArg Material.senderId hmaterial, hside, (hmirror side).senderId]
  have hrecipient : sent.session.context.recipientId =
      (start side).senderId := by
    rw [congrArg Material.recipientId hmaterial, hside,
      (hmirror side).recipientId]
  refine ⟨hside, ?_⟩
  rcases Session.sends_of_sealing? (S sent.side) store hmakes hopened.short with
    ⟨seq, code, classEOptions, payload, message, hact, haad, hout, hplain⟩ |
    ⟨ownSeq, code, classEOptions, payload, piv, message, hact, hpiv, haad,
      hout, hplain⟩
  · rw [hopened.aad] at haad
    obtain ⟨hkid, hpiv⟩ := aadBytes_injective hopened.fits
      ⟨sent.session.context.senderId_le, seq.length_encodePiv_le⟩ haad
    exact Or.inl ⟨hkid.trans hsender, seq, code, classEOptions, payload,
      message, hevent.trans hact, hpiv.symm, hout.trans hopened.ciphertext,
      hplain.trans hopened.plaintext⟩
  · rw [hopened.aad] at haad
    obtain ⟨hkid, rfl⟩ := aadBytes_injective hopened.fits
      ⟨sent.session.context.recipientId_le, hpiv⟩ haad
    rw [← hkid] at hact
    exact Or.inr ⟨hkid.trans hrecipient, ownSeq, code, classEOptions, payload,
      message, hevent.trans hact, hout.trans hopened.ciphertext,
      hplain.trans hopened.plaintext⟩

/-- The invariant: the ends keep their material, and a pending response was
encrypted by a call on record. -/
structure Sound (S : Side → ContextStateStore σ ε) (start : Side → Context C)
    (sys : Association C σ) : Prop where
  root : ∀ side, (sys.parties side).material = (start side).toMaterial
  live : ∀ side session, (sys.parties side).session = some session →
    session.context.toMaterial = (start side).toMaterial
  recorded : Recorded S start sys.history
  pending : ∀ side session call response begun,
    (sys.parties side).session = some session →
    session.borrow = .pending call response begun →
    ∃ s, Session.Opened (start side).toMaterial (start side).senderId
        call.requestPiv call.ciphertext
        (plaintextOf (response.code, response.options, response.payload)) s ∧
      ∃ r ∈ sys.history, r.Makes s
  authentic : ∀ later r earlier, sys.history = later ++ r :: earlier →
    Authentic start r earlier

theorem boot_sound (start : Side → Context C) (stores : Side → σ) :
    Sound S start (boot start stores) where
  root _ := rfl
  live _ _ h := by
    cases h
    rfl
  recorded _ h := absurd h List.not_mem_nil
  pending _ _ _ _ _ h hborrow := by
    cases h
    cases hborrow
  authentic later r earlier h := by
    have hmem : r ∈ ([] : List (Record C)) := by
      rw [show ([] : List (Record C)) = later ++ r :: earlier from h]
      simp
    exact absurd hmem List.not_mem_nil

/-- What an acceptance says, given that an ideal AEAD opened its ciphertext. -/
theorem Sound.authentic_record {start : Side → Context C}
    (hmirror : ∀ side, (start side).Mirrors (start side.other).toMaterial)
    (hkeys : (start .a).senderKey ≠ (start .b).senderKey)
    {sys : Association C σ} (h : Sound S start sys) {side : Side}
    {action : Action} (hideal : IdealAead sys (side, .act action))
    {session : Session C} (hsession : (sys.parties side).session = some session)
    (store : σ) :
    Authentic start ⟨side, session, action,
      (session.act (S side) store action).2.2⟩ sys.history := by
  have hmaterial := h.live side session hsession
  have heffect := session.act_effect (S side) store action
  generalize session.act (S side) store action = result at heffect
  obtain ⟨session', store', event⟩ := result
  constructor
  · rintro oscoreOption ciphertext message ⟨⟩
    cases heffect with
    | gotRequest _ _ opt seq plaintext _ accepts holds =>
      obtain ⟨s, hopening, hopened⟩ := Session.opened_request holds accepts
      rw [hmaterial] at hopened
      refine ⟨opt, s, accepts.parsed,
        hideal s (by simp [opening?, hsession, hopening]),
        fun sent hsent hmakes => ?_⟩
      obtain ⟨hside, ⟨-, hrequest⟩ | ⟨hkid, -⟩⟩ :=
        h.recorded.origin hmirror hkeys hopened hsent hmakes
      · exact ⟨hside, hrequest⟩
      · exact absurd hkid.symm (start side).ids_ne
  · rintro call message ⟨⟩
    cases heffect with
    | gotResponse _ opt plaintext pending accepts holds =>
      obtain ⟨begun, holds⟩ := holds
      obtain ⟨s, hopened, hmade⟩ :=
        h.pending side session call pending begun hsession holds
      refine ⟨s, hmade, fun sent hsent hmakes => ?_⟩
      obtain ⟨hside, ⟨hkid, -⟩ | ⟨-, hresponse⟩⟩ :=
        h.recorded.origin hmirror hkeys hopened hsent hmakes
      · exact absurd hkid (start side).ids_ne
      · exact ⟨hside, hresponse⟩

theorem parties_self (sys : Association C σ) (side : Side)
    (op : Receiver.Op) :
    (step S sys (side, op)).parties side =
      (sys.parties side).step (S side) op :=
  Function.update_self ..

theorem parties_other (sys : Association C σ) {side other : Side}
    (op : Receiver.Op) (hne : other ≠ side) :
    (step S sys (side, op)).parties other = sys.parties other :=
  Function.update_of_ne hne ..

theorem root_step {start : Side → Context C} {sys : Association C σ}
    (h : Sound S start sys) (side : Side) (op : Receiver.Op) (other : Side) :
    ((step S sys (side, op)).parties other).material =
      (start other).toMaterial := by
  by_cases hside : other = side
  · subst hside
    rw [parties_self, Receiver.material_step]
    exact h.root other
  · rw [parties_other sys op hside]
    exact h.root other

/-- A restart adds no record and leaves no borrow that was not there. -/
theorem Sound.restart {start : Side → Context C} {sys : Association C σ}
    (h : Sound S start sys) (side : Side) :
    Sound S start (step S sys (side, .restart)) where
  root := root_step h side .restart
  live other session hsession := by
    by_cases hside : other = side
    · subst hside
      rw [parties_self] at hsession
      rcases Receiver.session_restart hsession with hold | ⟨hmaterial, -⟩
      · exact h.live other session hold
      · exact hmaterial.trans (h.root other)
    · rw [parties_other sys _ hside] at hsession
      exact h.live other session hsession
  recorded := h.recorded
  pending other session call response begun hsession hborrow := by
    by_cases hside : other = side
    · subst hside
      rw [parties_self] at hsession
      rcases Receiver.session_restart hsession with hold | ⟨-, hfree⟩
      · exact h.pending other session call response begun hold hborrow
      · cases hborrow.symm.trans hfree
    · rw [parties_other sys _ hside] at hsession
      exact h.pending other session call response begun hsession hborrow
  authentic := h.authentic

theorem step_act_none {sys : Association C σ} {side : Side} (action : Action)
    (hsession : (sys.parties side).session = none) :
    step S sys (side, .act action) = sys := by
  have hparty : (sys.parties side).step (S side) (.act action) =
      sys.parties side := by
    simp only [Receiver.step, hsession]
  simp only [step, record?, hparty, hsession, Option.map_none,
    Option.toList_none, List.nil_append, Function.update_eq_self]

/-- The pending response of a session after a call was pending before it, or
the call opened it. -/
theorem pending_act {session : Session C} {S : ContextStateStore σ ε}
    {store : σ} {action : Action} {call : ResponseCall}
    {response : PendingResponse} {begun}
    (hborrow : (session.act S store action).1.borrow =
      .pending call response begun) :
    (∃ begun, session.borrow = .pending call response begun) ∨
      (action = .beginResponse call ∧ session.borrow = .free ∧
        ∃ opt plaintext,
          session.context.Authenticates call opt plaintext response) := by
  have heffect := session.act_effect S store action
  revert begun
  generalize session.act S store action = result at heffect
  obtain ⟨session', store', event⟩ := result
  intro begun hborrow
  cases heffect with
  | skipped => exact Or.inl ⟨begun, hborrow⟩
  | began call' pending' begun' holds =>
      cases hborrow
      exact Or.inr ⟨rfl, holds, begun⟩
  | _ => cases hborrow

theorem Sound.act {start : Side → Context C}
    (hmirror : ∀ side, (start side).Mirrors (start side.other).toMaterial)
    (hkeys : (start .a).senderKey ≠ (start .b).senderKey)
    {sys : Association C σ} (h : Sound S start sys) {side : Side}
    {action : Action} (hideal : IdealAead sys (side, .act action))
    {session : Session C}
    (hsession : (sys.parties side).session = some session) :
    Sound S start (step S sys (side, .act action)) := by
  have hhistory : (step S sys (side, .act action)).history =
      ⟨side, session, action, (session.act (S side)
        (sys.parties side).store action).2.2⟩ :: sys.history := by
    simp only [step, record?, hsession, Option.map_some, Option.toList_some,
      List.singleton_append]
  have hafter : ((step S sys (side, .act action)).parties side).session =
      some (session.act (S side) (sys.parties side).store action).1 := by
    rw [parties_self, Receiver.session_act hsession]
  constructor
  · exact root_step h side (.act action)
  · intro other session' hsession'
    by_cases hside : other = side
    · subst hside
      rw [hafter] at hsession'
      cases hsession'
      exact (session.act_effect _ _ action).toMaterial.trans
        (h.live other session hsession)
    · rw [parties_other sys _ hside] at hsession'
      exact h.live other session' hsession'
  · rw [hhistory]
    intro r hr
    rcases List.mem_cons.mp hr with rfl | hr
    · exact ⟨h.live side session hsession, _, rfl⟩
    · exact h.recorded r hr
  · intro other session' call response begun hsession' hborrow
    have hgrow : ∀ s, (∃ r ∈ sys.history, r.Makes s) →
        ∃ r ∈ (step S sys (side, .act action)).history, r.Makes s := by
      rintro s ⟨r, hr, hmakes⟩
      exact ⟨r, by rw [hhistory]; exact List.mem_cons_of_mem _ hr, hmakes⟩
    by_cases hside : other = side
    · subst hside
      rw [hafter] at hsession'
      cases hsession'
      rcases pending_act hborrow with ⟨begun, hold⟩ |
        ⟨rfl, holds, opt, plaintext, haccepts⟩
      · obtain ⟨s, hopened, hmade⟩ :=
          h.pending other session call response begun hsession hold
        exact ⟨s, hopened, hgrow s hmade⟩
      · obtain ⟨s, hopening, hopened⟩ :=
          Session.opened_response holds haccepts
        have hmaterial := h.live other session hsession
        rw [hmaterial] at hopened
        exact ⟨s, hopened,
          hgrow s (hideal s (by simp [opening?, hsession, hopening]))⟩
    · rw [parties_other sys _ hside] at hsession'
      obtain ⟨s, hopened, hmade⟩ :=
        h.pending other session' call response begun hsession' hborrow
      exact ⟨s, hopened, hgrow s hmade⟩
  · intro later r earlier hsplit
    rw [hhistory] at hsplit
    cases later with
    | nil =>
        obtain ⟨rfl, rfl⟩ := List.cons.inj hsplit
        exact h.authentic_record hmirror hkeys hideal hsession _
    | cons _ later =>
        exact h.authentic later r earlier (List.cons.inj hsplit).2

theorem Sound.step {start : Side → Context C}
    (hmirror : ∀ side, (start side).Mirrors (start side.other).toMaterial)
    (hkeys : (start .a).senderKey ≠ (start .b).senderKey)
    (sys : Association C σ) (op : Side × Receiver.Op)
    (h : Sound S start sys) (hideal : IdealAead sys op) :
    Sound S start (step S sys op) := by
  obtain ⟨side, op⟩ := op
  cases op with
  | restart => exact h.restart side
  | act action =>
      cases hsession : (sys.parties side).session with
      | none =>
          rw [step_act_none action hsession]
          exact h
      | some session => exact h.act hmirror hkeys hideal hsession

/-- In every history under an ideal AEAD, an accepted request was protected by
the other side before, under the PIV of its option, and a committed response
was protected by the other side before, for the request it is committed for;
whoever encrypted what was opened did so for this. -/
theorem accepted_are_authentic (S : Side → ContextStateStore σ ε)
    (start : Side → Context C) (stores : Side → σ)
    (hmirror : (start .a).Mirrors (start .b).toMaterial)
    (hkeys : (start .a).senderKey ≠ (start .b).senderKey)
    (ops : List (Side × Receiver.Op))
    (hideal : History.Guarded (step S) IdealAead (boot start stores) ops)
    (later : List (Record C)) (r : Record C) (earlier : List (Record C))
    (hhistory : (History.run (step S) (boot start stores) ops).history =
      later ++ r :: earlier) :
    Authentic start r earlier := by
  have hmirrors : ∀ side,
      (start side).Mirrors (start side.other).toMaterial := by
    intro side
    cases side with
    | a => exact hmirror
    | b => exact hmirror.symm
  have hsound : Sound S start (History.run (step S) (boot start stores) ops) :=
    History.invariant_of_guarded (Sound.step hmirrors hkeys) hideal
      (boot_sound start stores)
  exact hsound.authentic later r earlier hhistory

def sampleMaterial : Material Crypto.standIn :=
  (Material.build Crypto.standIn Crypto.sampleKey none none [1]
    [2]).toOption.get (by decide +kernel)

/-- Two active contexts that have not sent anything. -/
def sampleStart : Side → Context Crypto.standIn
  | .a => { Context.initial sampleMaterial with active := true }
  | .b => { Context.initial sampleMaterial.mirror with
      active := true, allowNoPivResponse := true }

/-- A request, its reflection to the sender, and a response without a PIV. -/
def exchange : List (Side × Receiver.Op) :=
  let request : Bytes := [1, 255, 97, 11, 110, 113, 63, 250, 235, 134, 48]
  let response : Bytes := [69, 255, 98, 210, 147, 110, 63, 251, 87, 135, 206]
  [(.a, .act .reserve), (.a, .act (.protectRequest 1 [] [97])),
    (.a, .act (.unprotectRequest [9, 0, 1] request)),
    (.b, .act (.unprotectRequest [9, 0, 1] request)),
    (.b, .act (.protectResponse 69 [] [98] [1] [0] false)),
    (.a, .act (.beginResponse ⟨[], response, [0], false⟩)), (.a, .act .commit)]

theorem accepted_are_authentic_exchange :
    ∃ r earlier call message,
      (History.run (step fun _ => memoryStore) (boot sampleStart
        fun _ => ⟨fun _ => some ⟨0, false⟩, fun _ => none⟩) exchange).history =
          r :: earlier ∧
      r.event = some (.gotResponse call message) ∧
      Authentic sampleStart r earlier := by
  have hlast : ∃ response message,
      (History.run (step fun _ => memoryStore) (boot sampleStart
        fun _ => ⟨fun _ => some ⟨0, false⟩, fun _ => none⟩)
          exchange).history.head?.bind Record.event =
        some (.gotResponse response message) :=
    ⟨⟨[], [69, 255, 98, 210, 147, 110, 63, 251, 87, 135, 206], [0], false⟩,
      (69, ⟨[], by decide⟩, ⟨[98], by decide⟩), by decide +kernel⟩
  obtain ⟨response, message, hlast⟩ := hlast
  cases hhistory : (History.run (step fun _ => memoryStore) (boot sampleStart
      fun _ => ⟨fun _ => some ⟨0, false⟩, fun _ => none⟩) exchange).history with
  | nil =>
      rw [hhistory] at hlast
      cases hlast
  | cons r earlier =>
      rw [hhistory] at hlast
      exact ⟨r, earlier, response, message, rfl, hlast,
        accepted_are_authentic (fun _ => memoryStore) sampleStart _
          sampleMaterial.mirrors_mirror (by decide +kernel) exchange
          (by decide +kernel) [] r earlier hhistory⟩

end Association

end Oscore
