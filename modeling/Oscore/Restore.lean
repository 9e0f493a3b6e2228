/-
What a restored context still rejects.  The sender half of a stored state is
validated; a recipient sequence out of range falls back to zero, and the window
it belonged to forgets what it rejected.
-/
import Oscore.KeyRecord
import Oscore.Receiver
import Oscore.Reservation

namespace Oscore

open Rust Rust.Call

/-- A stored window with highest sequence `h` and bitmap `w` rejects `seq`. -/
def StoredRejects (initialized : Bool) (h : Nat) (w : UInt32)
    (seq : OscoreSeqNum) : Prop :=
  initialized = true ∧ seq.get ≤ h ∧
    (32 ≤ h - seq.get ∨ w.toNat.testBit (h - seq.get) = true)

/-- Every check rejects what its stored window rejects. -/
structure KeepsRejections (windows : Windows) (s : RecipientReplayState) :
    Prop where
  replay : ∀ seq, StoredRejects true s.recipientSeq s.replayWindow seq →
    windows.replay.isReplay seq = true
  response : ∀ seq,
    StoredRejects s.responseWindowInitialized s.responseSeq s.responseWindow
      seq → windows.response.isReuse seq = true
  receivedResponse : ∀ seq,
    StoredRejects s.receivedResponseWindowInitialized s.receivedResponseSeq
      s.receivedResponseWindow seq →
    windows.receivedResponse.isReuse seq = true
  receivedResponsePiv : ∀ seq,
    StoredRejects s.receivedResponsePivWindowInitialized
      s.receivedResponsePivSeq s.receivedResponsePivWindow seq →
    windows.receivedResponsePiv.isReuse seq = true

/-- The sequence of every initialised window is a sequence number. -/
structure RecipientReplayState.InRange (s : RecipientReplayState) : Prop where
  replay : s.recipientSeq ≤ seqMax
  response : s.responseWindowInitialized = true → s.responseSeq ≤ seqMax
  receivedResponse : s.receivedResponseWindowInitialized = true →
    s.receivedResponseSeq ≤ seqMax
  receivedResponsePiv : s.receivedResponsePivWindowInitialized = true →
    s.receivedResponsePivSeq ≤ seqMax

theorem seqOrDefault_of_le {value : Nat} (h : value ≤ seqMax) :
    (Context.seqOrDefault value).get = value := by
  have hnew : OscoreSeqNum.new value = some ⟨value, h⟩ :=
    OscoreSeqNum.new_eq_some.mpr rfl
  rw [Context.seqOrDefault, hnew, Option.getD_some]

theorem seqOrDefault_of_lt {value : Nat} (h : seqMax < value) :
    Context.seqOrDefault value = .default := by
  rw [Context.seqOrDefault, OscoreSeqNum.new_eq_none.mpr h, Option.getD_none]

/-- In range, the restored window is the stored one. -/
theorem isReuse_restored_iff {h : Nat} (hle : h ≤ seqMax) {w : UInt32}
    {initialized : Bool} {seq : OscoreSeqNum} :
    ReuseWindow.isReuse ⟨Context.seqOrDefault h, w, initialized⟩ seq = true ↔
      StoredRejects initialized h w seq := by
  rw [ReuseWindow.isReuse_iff, StoredRejects]
  simp only [seqOrDefault_of_le hle]
  refine and_congr_right fun _ => and_congr_right fun _ => ?_
  by_cases hfar : 32 ≤ h - seq.get
  · simp [hfar]
  · rw [hasBit_eq_testBit _ (Nat.not_le.mp hfar)]

/-- A restored window keeps its rejections exactly when its highest sequence
is in range, or nothing was marked in it. -/
theorem restored_keeps_iff {h : Nat} {w : UInt32} {initialized : Bool} :
    (∀ seq, StoredRejects initialized h w seq →
        ReuseWindow.isReuse ⟨Context.seqOrDefault h, w, initialized⟩ seq =
          true) ↔
      (initialized = true → h ≤ seqMax) := by
  constructor
  · rintro hkeeps rfl
    by_contra hlarge
    have hone : (1 : Nat) ≤ seqMax := by decide
    have hstored : StoredRejects true h w ⟨1, hone⟩ := by
      simp only [seqMax] at hlarge
      exact ⟨rfl, by simp only; omega, Or.inl (by simp only; omega)⟩
    obtain ⟨-, hle, -⟩ := ReuseWindow.isReuse_iff.mp (hkeeps _ hstored)
    rw [seqOrDefault_of_lt (Nat.not_le.mp hlarge)] at hle
    exact Nat.not_succ_le_zero 0 hle
  · intro hrange seq hstored
    exact (isReuse_restored_iff (hrange hstored.1)).mpr hstored

/-- A snapshot restores to windows that keep its rejections exactly when it is
in range. -/
theorem windows_keep_iff (s : RecipientReplayState) :
    KeepsRejections s.windows s ↔ s.InRange := by
  have hreplay : (∀ seq, StoredRejects true s.recipientSeq s.replayWindow seq →
      s.windows.replay.isReplay seq = true) ↔ s.recipientSeq ≤ seqMax := by
    simp only [ReplayWindow.isReplay_eq_isReuse]
    exact restored_keeps_iff.trans ⟨fun h => h rfl, fun h _ => h⟩
  constructor
  · intro h
    exact ⟨hreplay.mp h.replay, restored_keeps_iff.mp h.response,
      restored_keeps_iff.mp h.receivedResponse,
      restored_keeps_iff.mp h.receivedResponsePiv⟩
  · intro h
    exact ⟨hreplay.mpr h.replay, restored_keeps_iff.mpr h.response,
      restored_keeps_iff.mpr h.receivedResponse,
      restored_keeps_iff.mpr h.receivedResponsePiv⟩

namespace Context

variable {C : Crypto} {σ ε : Type} {S : ContextStateStore σ ε}

/-- Restoring over these two loaded states succeeds exactly for a valid sender
state, with the windows of the snapshot. -/
theorem restoreExisting_windows {self : Context C} {s u t : σ}
    {loaded : Option SenderSequenceState} {snapshot : RecipientReplayState}
    (hsender : (S.loadSender self.contextId).run s = .ok loaded u)
    (hrecipient : (S.loadRecipient self.contextId).run u =
      .ok (some snapshot) t) :
    ((∃ state ∈ loaded, state.Valid) →
      ∃ ctx, (restoreExisting S self).run s = .ok ctx t) ∧
    ∀ ctx v, (restoreExisting S self).run s = .ok ctx v →
      (∃ state ∈ loaded, state.Valid) ∧ ctx.windows = snapshot.windows := by
  constructor
  · rintro ⟨state, rfl, hle, hexhausted⟩
    exact ⟨_, restoreExisting_eq_ok.mpr ⟨state, u, hsender, _,
      setSenderState_eq_ok.mpr ⟨hexhausted, ⟨_, hle⟩, rfl, rfl⟩, _, hrecipient,
      rfl⟩⟩
  · intro ctx v h
    obtain ⟨state, u', hload, self', hset, rs, hrs, rfl⟩ :=
      restoreExisting_eq_ok.mp h
    rw [hsender] at hload
    cases hload
    rw [hrecipient] at hrs
    cases hrs
    obtain ⟨hexhausted, seq, hseq, -⟩ := setSenderState_eq_ok.mp hset
    exact ⟨⟨state, rfl, hseq ▸ seq.le_max, hexhausted⟩, rfl⟩

/-- Restoring keeps every rejection of the snapshot, or fails, exactly when the
sender record is missing or invalid or the snapshot is in range. -/
theorem restore_keeps_rejections_iff {self : Context C} {s u t : σ}
    {loaded : Option SenderSequenceState} {snapshot : RecipientReplayState}
    (hsender : (S.loadSender self.contextId).run s = .ok loaded u)
    (hrecipient : (S.loadRecipient self.contextId).run u =
      .ok (some snapshot) t) :
    (∀ ctx v, (restoreExisting S self).run s = .ok ctx v →
        KeepsRejections ctx.windows snapshot) ↔
      (¬ ∃ state ∈ loaded, state.Valid) ∨ snapshot.InRange := by
  obtain ⟨hsucceeds, hwindows⟩ := restoreExisting_windows hsender hrecipient
  constructor
  · intro hkeeps
    by_cases hvalid : ∃ state ∈ loaded, state.Valid
    · right
      obtain ⟨ctx, hrun⟩ := hsucceeds hvalid
      have hrestored := hkeeps ctx t hrun
      rw [(hwindows ctx t hrun).2] at hrestored
      exact (windows_keep_iff snapshot).mp hrestored
    · exact Or.inl hvalid
  · intro hcondition ctx v hrun
    obtain ⟨hvalid, hctx⟩ := hwindows ctx v hrun
    rw [hctx]
    exact (windows_keep_iff snapshot).mpr
      (hcondition.resolve_left (not_not_intro hvalid))

/-- A snapshot whose request window stands at `seq`, with nothing else marked. -/
def requestSnapshot (seq : Nat) : RecipientReplayState :=
  ⟨seq, 1, 0, 0, false, 0, 0, false, 0, 0, false⟩

theorem restore_keeps_rejections_iff_sample :
    ∃ self : Context Crypto.standIn,
      ∃ s : MemoryState, s.sender self.contextId = some ⟨0, false⟩ ∧
      s.recipient self.contextId = some (requestSnapshot 7) ∧
      ((∀ ctx v, (restoreExisting memoryStore self).run s = .ok ctx v →
          KeepsRejections ctx.windows (requestSnapshot 7)) ↔
        (¬ ∃ state ∈ (some ⟨0, false⟩ : Option SenderSequenceState),
          state.Valid) ∨ (requestSnapshot 7).InRange) := by
  have hne : ([1] : Bytes) ≠ [2] := by decide
  obtain ⟨material, -⟩ := @Material.exists_build Crypto.standIn
    Crypto.sampleKey none none [1] [2] (by decide) (by decide) hne (by decide)
    (by decide)
  let s : MemoryState :=
    ⟨fun _ => some ⟨0, false⟩, fun _ => some (requestSnapshot 7)⟩
  have hsender : (memoryStore.loadSender (initial material).contextId).run s =
      .ok (some ⟨0, false⟩) s := rfl
  have hrecipient :
      (memoryStore.loadRecipient (initial material).contextId).run s =
        .ok (some (requestSnapshot 7)) s := rfl
  exact ⟨initial material, s, rfl, rfl,
    restore_keeps_rejections_iff hsender hrecipient⟩

/-- A stored request sequence of 2^40 is read as zero: request 1, rejected
before, is accepted after the restore. -/
theorem restore_reopens_window :
    ∃ (self ctx : Context Crypto.standIn) (s t : MemoryState)
      (seq : OscoreSeqNum),
      s.sender self.contextId = some ⟨0, false⟩ ∧
      s.recipient self.contextId = some (requestSnapshot (2 ^ 40)) ∧
      (restoreExisting memoryStore self).run s = .ok ctx t ∧
      StoredRejects true (requestSnapshot (2 ^ 40)).recipientSeq
        (requestSnapshot (2 ^ 40)).replayWindow seq ∧
      ctx.replay.isReplay seq = false := by
  have hne : ([1] : Bytes) ≠ [2] := by decide
  obtain ⟨material, -⟩ := @Material.exists_build Crypto.standIn
    Crypto.sampleKey none none [1] [2] (by decide) (by decide) hne (by decide)
    (by decide)
  let s : MemoryState :=
    ⟨fun _ => some ⟨0, false⟩, fun _ => some (requestSnapshot (2 ^ 40))⟩
  have hvalid : SenderSequenceState.Valid ⟨0, false⟩ :=
    ⟨Nat.zero_le _, fun h => by cases h⟩
  have hrestore := @restoreExisting_windows _ _ _ memoryStore
    (initial material) s s s (some ⟨0, false⟩) (requestSnapshot (2 ^ 40)) rfl
    rfl
  obtain ⟨ctx, hrun⟩ := hrestore.1 ⟨_, rfl, hvalid⟩
  have hwindows := (hrestore.2 ctx s hrun).2
  have hreplay : ctx.replay = (requestSnapshot (2 ^ 40)).windows.replay :=
    congrArg Windows.replay hwindows
  refine ⟨initial material, ctx, s, s, ⟨1, by decide⟩, rfl, rfl, hrun,
    ⟨rfl, by decide, Or.inl (by decide)⟩, ?_⟩
  rw [hreplay]
  decide

end Context

end Oscore
