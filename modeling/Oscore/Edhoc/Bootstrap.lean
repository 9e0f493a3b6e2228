/-
From the handshake to the dialogue.  The contexts that an undisturbed handshake
exports register at both ends, and carry every dialogue of lawful turns for
which they have sequences.
-/
import Oscore.Edhoc.Handshake
import Oscore.Dialogue

namespace Oscore

open Rust Context Dialogue Metered

variable {C : Crypto} {σ τ ε : Type} {S : ContextStateStore σ ε}
  {T : ContextStateStore τ ε}

/-- The stores register the two contexts, which then carry a dialogue of lawful
turns exactly if each side has at most as many messages of its own as there are
sequences. -/
def Carries (S : ContextStateStore σ ε) (T : ContextStateStore τ ε) (s : σ)
    (t : τ) (own peer : Context C) : Prop :=
  ∃ first second s' t',
    (registerFresh S own).run s = .ok first s' ∧
      (registerFresh T peer).run t = .ok second t' ∧
      ∀ turns : List Turn, (∀ turn ∈ turns, turn.Lawful) →
        ((Dialogue.run S T turns).run
          ((first, s'), second, t')).map Prod.fst =
            if total Turn.charge turns .a ≤ seqMax + 1 ∧
                total Turn.charge turns .b ≤ seqMax + 1 then
              some (turns.map Turn.contents)
            else none

/-- Mirrored contexts that no record knows carry dialogues. -/
theorem carries_of_mirrors {K : SenderContract S} {L : SenderContract T}
    (hfirst : K.NeverFails) (hsecond : L.NeverFails) (haead : C.AeadCorrect)
    {own peer : Material C} (hmirrors : own.Mirrors peer)
    (allowed allowed' : Bool) {s : σ} {t : τ}
    (hs : K.record s own.contextId = none)
    (ht : L.record t peer.contextId = none) :
    Carries S T s t
      { Context.initial own with allowNoPivResponse := allowed }
      { Context.initial peer with allowNoPivResponse := allowed' } := by
  obtain ⟨s', hown, hstanding⟩ := exists_standing hfirst own allowed hs
  obtain ⟨t', hpeer, hstanding'⟩ := exists_standing hsecond peer allowed' ht
  have hready := ready_registered hmirrors hstanding hstanding'
  refine ⟨_, _, s', t', hown, hpeer, fun turns hlawful => ?_⟩
  refine (run_charged hfirst hsecond haead turns).map_fst ⟨hready, hlawful⟩ ?_
  have hfirstTicket : (Context.initial own).registered.ticket = 0 := rfl
  have hsecondTicket : (Context.initial peer).registered.ticket = 0 := rfl
  rw [← covered_iff, hfirstTicket, hsecondTicket, Nat.zero_add, Nat.zero_add]

namespace Edhoc

variable {X : Suite} {seedI ephI seedR ephR : Bytes32} {cI : ConnectionId}
  {cR : UInt8}

/-- What two sides that ended alike export carries dialogues. -/
theorem EndsAlike.carries {idR : ConnectionId} {initiator : EdhocInitiator}
    {responder : EdhocResponder} (h : EndsAlike cI idR initiator responder)
    (hids : idR ≠ cI) {K : SenderContract S} {L : SenderContract T}
    (hfirst : K.NeverFails) (hsecond : L.NeverFails)
    (haead : X.toCrypto.AeadCorrect) :
    ∃ own peer, initiator.exportOscore X = .ok own ∧
      responder.exportOscore X = .ok peer ∧
      ∀ s t, K.record s own.contextId = none →
        L.record t peer.contextId = none → Carries S T s t own peer := by
  obtain ⟨own, hown⟩ := exists_exportContext X initiator.prk4e3m initiator.th4
    hids
  obtain ⟨peer, hpeer⟩ := exists_exportContext X initiator.prk4e3m
    initiator.th4 (Ne.symm hids)
  have hmirrors := (mirrored_of_exportContext hown hpeer).toMirrors
  refine ⟨own, peer, ?_, ?_, fun s t hs ht => ?_⟩
  · rw [EdhocInitiator.exportOscore_eq h.completedI h.prk_ne, h.cR.1, h.cI.1]
    exact hown
  · rw [EdhocResponder.exportOscore_eq h.completedR (h.prk ▸ h.prk_ne),
      h.cI.2, h.cR.2, h.prk, h.th]
    exact hpeer
  · obtain ⟨_, material, -, -, rfl⟩ := exportContext_eq_ok.mp hown
    obtain ⟨_, material', -, -, rfl⟩ := exportContext_eq_ok.mp hpeer
    exact carries_of_mirrors hfirst hsecond haead hmirrors true true hs ht

/-- Identifiers that are read as they were written carry an undisturbed
handshake to contexts at both ends, and these to every dialogue of lawful turns
that their sequences last for. -/
theorem handshake_carries_dialogues
    (h : HonestPrimitives X seedI ephI seedR ephR cI) {byte : UInt8}
    (hcI : cI.toList = [byte]) (hbyte : ¬ Negative byte)
    (hcR : ¬ Negative cR) (hne : cI.toList ≠ [cR]) {K : SenderContract S}
    {L : SenderContract T} (hfirst : K.NeverFails) (hsecond : L.NeverFails) :
    ∃ messages other,
      (handshake X).run (newParties X seedI ephI seedR ephR cI cR) =
        .ok messages other ∧
      ∃ own peer, other.1.exportOscore X = .ok own ∧
        other.2.exportOscore X = .ok peer ∧
        ∀ s t, K.record s own.contextId = none →
          L.record t peer.contextId = none → Carries S T s t own peer := by
  obtain ⟨messages, initiator, responder, hrun, halike⟩ :=
    handshake_of_readable h hcI hbyte hcR hne
  have hids : ConnectionId.ofByte cR ≠ cI := fun heq => hne (heq ▸ rfl)
  exact ⟨messages, (initiator, responder), hrun,
    halike.carries hids hfirst hsecond h.aead⟩

/-- The stand-in parties, over stores that know nothing. -/
theorem handshake_carries_dialogues_standIn :
    ∃ own peer : Context Crypto.standIn,
      Carries memoryStore memoryStore MemoryState.empty MemoryState.empty own
        peer := by
  obtain ⟨-, -, -, own, peer, -, -, hcarries⟩ :=
    handshake_carries_dialogues standIn_honestPrimitives rfl
      (show ¬ Negative 0 by decide) (show ¬ Negative 1 by decide) (by decide)
      memoryStoreSender_neverFails memoryStoreSender_neverFails
  exact ⟨own, peer, hcarries _ _ rfl rfl⟩

end Edhoc

end Oscore
