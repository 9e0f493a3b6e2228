/-
One context over its whole life: requests, responses in either role, and
restarts from the saved snapshot of its windows.  The snapshot carries what the
windows remember across a restart.
-/
import Oscore.Session

namespace Oscore

open Rust Rust.Call

/-- The four windows of a context. -/
structure Windows where
  replay : ReplayWindow
  response : ReuseWindow
  receivedResponse : ReuseWindow
  receivedResponsePiv : ReuseWindow

def Context.windows {C : Crypto} (self : Context C) : Windows :=
  ⟨self.replay, self.response, self.receivedResponse, self.receivedResponsePiv⟩

/-- The windows a context restored from a snapshot has. -/
def RecipientReplayState.windows (s : RecipientReplayState) : Windows where
  replay := ⟨Context.seqOrDefault s.recipientSeq, s.replayWindow⟩
  response := ⟨Context.seqOrDefault s.responseSeq, s.responseWindow,
    s.responseWindowInitialized⟩
  receivedResponse := ⟨Context.seqOrDefault s.receivedResponseSeq,
    s.receivedResponseWindow, s.receivedResponseWindowInitialized⟩
  receivedResponsePiv := ⟨Context.seqOrDefault s.receivedResponsePivSeq,
    s.receivedResponsePivWindow, s.receivedResponsePivWindowInitialized⟩

@[simp]
theorem Context.seqOrDefault_get (seq : OscoreSeqNum) :
    Context.seqOrDefault seq.get = seq := by
  simp [Context.seqOrDefault]

/-- A snapshot loses nothing of the windows it was taken from. -/
@[simp]
theorem windows_recipientReplayState {C : Crypto} (self : Context C) :
    self.recipientReplayState.windows = self.windows := by
  simp [RecipientReplayState.windows, Context.recipientReplayState,
    Context.windows]

@[simp]
theorem windows_activateRestored {C : Crypto} (self : Context C)
    (s : RecipientReplayState) :
    (self.activateRestored (some s)).windows = s.windows := rfl

/-- The sequence number in the PIV of an option. -/
def optionSeq (oscoreOption : Bytes) : Option OscoreSeqNum :=
  match parseOption oscoreOption with
  | .ok opt => OscoreSeqNum.fromPiv opt.piv
  | .error _ => none

/-- The PIV a response carries, if it carries one. -/
def explicitPiv? (oscoreOption : Bytes) : Option Bytes :=
  match parseOption oscoreOption with
  | .ok opt => if opt.piv = [] then none else some opt.piv
  | .error _ => none

namespace Event

/-- The sequence number of an accepted request. -/
def requestSeq? : Event → Option (Option OscoreSeqNum)
  | .gotRequest oscoreOption .. => some (optionSeq oscoreOption)
  | _ => none

/-- The request a committed ordinary response answers. -/
def ordinarySeq? : Event → Option (Option OscoreSeqNum)
  | .gotResponse call _ =>
      if call.observe then none else some (OscoreSeqNum.fromPiv call.requestPiv)
  | _ => none

/-- The explicit responder PIV of a committed response of either kind. -/
def responderSeq? : Event → Option (Option OscoreSeqNum)
  | .gotResponse call _ =>
      (explicitPiv? call.oscoreOption).map OscoreSeqNum.fromPiv
  | _ => none

end Event

structure Receiver (C : Crypto) (σ : Type) where
  /-- What the context is rebuilt from. -/
  material : Material C
  store : σ
  /-- `none` from the end of a process to the next successful rebuild. -/
  session : Option (Session C)
  /-- `recipient_replay_state` after the last successful operation. -/
  snapshot : RecipientReplayState
  /-- Latest first. -/
  log : List Event

namespace Receiver

inductive Op where
  | act (action : Action)
  | restart
deriving DecidableEq

variable {C : Crypto} {σ ε : Type}

/-- A receiver with a context of any state. -/
def start (context : Context C) (store : σ) : Receiver C σ :=
  ⟨context.toMaterial, store, some ⟨context, .free⟩,
    context.recipientReplayState, []⟩

/-- Rebuild the context and restore it from the store. -/
def rebuild (S : ContextStateStore σ ε) (r : Receiver C σ) : Receiver C σ :=
  match Context.new C r.material.masterSecret (some r.material.masterSalt)
      r.material.idContext r.material.senderId r.material.recipientId with
  | .error _ => r
  | .ok context =>
      match (Context.restoreExisting S context).run r.store with
      | .ok context store =>
          { r with store, session := some ⟨context, .free⟩ }
      | .error _ store => { r with store }

/-- A restart saves the snapshot, ends the process and rebuilds the context;
once the process has ended it is another attempt to rebuild. -/
def step (S : ContextStateStore σ ε) (r : Receiver C σ) : Op → Receiver C σ
  | .act action =>
      match r.session with
      | none => r
      | some session =>
          let (session', store, event) := session.act S r.store action
          { r with
            store
            session := some session'
            snapshot :=
              if event.isSome then session'.context.recipientReplayState
              else r.snapshot
            log := event.toList ++ r.log }
  | .restart =>
      match r.session with
      | none => rebuild S r
      | some _ =>
          match (S.saveRecipient r.material.contextId r.snapshot).run
              r.store with
          | .ok _ store => rebuild S { r with store, session := none }
          | .error _ store => { r with store }

/-! What every step keeps. -/

variable {S : ContextStateStore σ ε}

/-- What a context is built from determines all of its material. -/
theorem material_eq_of_build {material built : Material C}
    (h : Material.build C material.masterSecret (some material.masterSalt)
      material.idContext material.senderId material.recipientId = .ok built) :
    built = material := by
  obtain ⟨hsecret, hsalt, hcontext, hsender, hrecipient⟩ :=
    Material.of_build h
  obtain ⟨_, _, _, _, _, _, _, _, _, _, _, _, _, _, hkey, hkey', hiv, hid⟩ :=
    built
  obtain ⟨_, _, _, _, _, _, _, _, _, _, _, _, _, _, hkey₀, hkey₀', hiv₀,
    hid₀⟩ := material
  dsimp only [Option.getD_some] at hsecret hsalt hcontext hsender hrecipient
  subst hsecret hsalt hcontext hsender hrecipient hid hid₀
  cases hkey.symm.trans hkey₀
  cases hkey'.symm.trans hkey₀'
  cases hiv.symm.trans hiv₀
  rfl

theorem material_rebuild (r : Receiver C σ) :
    (rebuild S r).material = r.material := by
  unfold rebuild
  split
  · rfl
  · split <;> rfl

/-- A rebuilt context is one of the same material. -/
theorem session_rebuild {r : Receiver C σ} {session : Session C}
    (h : (rebuild S r).session = some session) :
    r.session = some session ∨
      (session.context.toMaterial = r.material ∧ session.borrow = .free) := by
  unfold rebuild at h
  split at h
  · exact Or.inl h
  · rename_i context hnew
    split at h
    · rename_i restored store hrestore
      cases h
      obtain ⟨material, hbuild, rfl⟩ := Context.new_eq_ok.mp hnew
      obtain ⟨state, u, -, context', hset, rs, -, rfl⟩ :=
        Context.restoreExisting_eq_ok.mp hrestore
      obtain ⟨-, seq, -, rfl⟩ := Context.setSenderState_eq_ok.mp hset
      refine Or.inr ⟨?_, rfl⟩
      have hmaterial := material_eq_of_build hbuild
      cases rs <;> exact hmaterial
    · exact Or.inl h

theorem material_step (r : Receiver C σ) (op : Op) :
    (Receiver.step S r op).material = r.material := by
  cases op with
  | act action =>
      simp only [Receiver.step]
      cases r.session <;> rfl
  | restart =>
      simp only [Receiver.step]
      split
      · exact material_rebuild r
      · split
        · exact material_rebuild _
        · rfl

theorem session_restart {r : Receiver C σ} {session : Session C}
    (h : (Receiver.step S r .restart).session = some session) :
    r.session = some session ∨
      (session.context.toMaterial = r.material ∧ session.borrow = .free) := by
  simp only [Receiver.step] at h
  split at h
  · exact session_rebuild h
  · split at h
    · rcases session_rebuild h with h | h
      · cases h
      · exact Or.inr h
    · exact Or.inl h

theorem session_act {r : Receiver C σ} {session : Session C}
    (hsession : r.session = some session) (action : Action) :
    (Receiver.step S r (.act action)).session =
      some (session.act S r.store action).1 := by
  simp only [Receiver.step, hsession]

/-! What the log remembers. -/

def requests (log : List Event) : List (Option OscoreSeqNum) :=
  log.filterMap Event.requestSeq?

def ordinary (log : List Event) : List (Option OscoreSeqNum) :=
  log.filterMap Event.ordinarySeq?

def responders (log : List Event) : List (Option OscoreSeqNum) :=
  log.filterMap Event.responderSeq?

/-- The request-reuse window after the ordinary responses that were committed,
and nothing else. -/
def ordinaryWindow (initial : ReuseWindow) (log : List Event) : ReuseWindow :=
  (ordinary log).foldr
    (fun seq window => ReuseWindow.oneShot.onOption.mark window seq) initial

/-- The windows reject everything the log shows as accepted. -/
structure Remembers (initial : ReuseWindow) (windows : Windows)
    (log : List Event) : Prop where
  requests : ReplayWindow.oneShot.onOption.Remembers windows.replay
    (requests log)
  ordinary : ReuseWindow.oneShot.onOption.Remembers windows.receivedResponse
    (ordinary log)
  responders : ReuseWindow.oneShot.onOption.Remembers
    windows.receivedResponsePiv (responders log)
  window : windows.receivedResponse = ordinaryWindow initial log

/-- The snapshot carries the windows, whether the process is up or down. -/
structure Tracks (R : RecipientContract S) (initial : ReuseWindow)
    (r : Receiver C σ) : Prop where
  up : ∀ session, r.session = some session →
    session.context.windows = r.snapshot.windows ∧
      session.context.contextId = r.material.contextId
  down : r.session = none →
    R.saved r.store r.material.contextId = some r.snapshot
  remembers : Remembers initial r.snapshot.windows r.log

variable {initial : ReuseWindow}

theorem requests_cons (event : Event) (log : List Event) :
    requests (event :: log) = event.requestSeq?.toList ++ requests log := by
  rw [requests, List.filterMap_cons]
  cases event.requestSeq? <;> rfl

theorem ordinary_cons (event : Event) (log : List Event) :
    ordinary (event :: log) = event.ordinarySeq?.toList ++ ordinary log := by
  rw [ordinary, List.filterMap_cons]
  cases event.ordinarySeq? <;> rfl

theorem responders_cons (event : Event) (log : List Event) :
    responders (event :: log) =
      event.responderSeq?.toList ++ responders log := by
  rw [responders, List.filterMap_cons]
  cases event.responderSeq? <;> rfl

/-- An event no receive window takes note of. -/
theorem Remembers.ignore {windows windows' : Windows} {log : List Event}
    (h : Remembers initial windows log) {event : Event}
    (hrequest : event.requestSeq? = none)
    (hordinary : event.ordinarySeq? = none)
    (hresponder : event.responderSeq? = none)
    (hreplay : windows'.replay = windows.replay)
    (hreceived : windows'.receivedResponse = windows.receivedResponse)
    (hpiv : windows'.receivedResponsePiv = windows.receivedResponsePiv) :
    Remembers initial windows' (event :: log) := by
  constructor
  · rw [requests_cons, hrequest, hreplay]
    exact h.requests
  · rw [ordinary_cons, hordinary, hreceived]
    exact h.ordinary
  · rw [responders_cons, hresponder, hpiv]
    exact h.responders
  · rw [ordinaryWindow, ordinary_cons, hordinary, hreceived]
    exact h.window

theorem Remembers.gotRequest {context : Context C} {log : List Event}
    (h : Remembers initial context.windows log)
    {oscoreOption ciphertext : Bytes} {opt : OscoreOption}
    {seq : OscoreSeqNum} {plaintext : HVec ptCap} {message : Message}
    (haccepts : context.AcceptsRequest oscoreOption ciphertext opt seq plaintext
      message) :
    Remembers initial (context.acceptRequest seq).windows
      (.gotRequest oscoreOption ciphertext message :: log) := by
  have hseq : optionSeq oscoreOption = some seq := by
    simp [optionSeq, haccepts.parsed, haccepts.seq_eq]
  have haccept := h.requests.accept
    (show ¬ ReplayWindow.oneShot.onOption.rejects context.replay (some seq) by
      simp [ReplayWindow.oneShot, History.OneShot.onOption, haccepts.fresh])
  refine ⟨?_, h.ordinary, h.responders, h.window⟩
  rw [requests_cons, Event.requestSeq?, hseq]
  exact haccept

theorem Remembers.gotResponse {context : Context C} {log : List Event}
    (h : Remembers initial context.windows log) {call : ResponseCall}
    {opt : OscoreOption} {plaintext : HVec ptCap} {pending : PendingResponse}
    {message : Message}
    (haccepts : context.Authenticates call opt plaintext pending) :
    Remembers initial (context.acceptResponse pending).windows
      (.gotResponse call message :: log) := by
  have hordinary := ordinary_cons (.gotResponse call message) log
  have hresponders := responders_cons (.gotResponse call message) log
  have hreceived : ReuseWindow.oneShot.onOption.Remembers
        (context.acceptResponse pending).windows.receivedResponse
        (Receiver.ordinary (.gotResponse call message :: log)) ∧
      (context.acceptResponse pending).windows.receivedResponse =
        ordinaryWindow initial (.gotResponse call message :: log) := by
    have hmarks := haccepts.marks
    cases hobserve : call.observe with
    | true =>
        simp only [hobserve, Bool.not_true] at hmarks
        simp only [Event.ordinarySeq?, hobserve, ↓reduceIte] at hordinary
        simp only [ordinaryWindow, hordinary, Context.acceptResponse,
          Context.windows, hmarks, Bool.false_eq_true, ↓reduceIte]
        exact ⟨h.ordinary, h.window⟩
    | false =>
        simp only [hobserve, Bool.not_false] at hmarks
        simp only [Event.ordinarySeq?, hobserve, haccepts.requestSeq_eq,
          Bool.false_eq_true, ↓reduceIte] at hordinary
        simp only [ordinaryWindow, hordinary, Context.acceptResponse,
          Context.windows, hmarks, ↓reduceIte]
        refine ⟨h.ordinary.accept ?_, ?_⟩
        · simp [ReuseWindow.oneShot, History.OneShot.onOption,
            Context.windows, haccepts.fresh hobserve]
        · exact congrArg (ReuseWindow.mark · pending.requestSeq) h.window
  have hpiv : ReuseWindow.oneShot.onOption.Remembers
      (context.acceptResponse pending).windows.receivedResponsePiv
      (Receiver.responders (.gotResponse call message :: log)) := by
    have hparsed := haccepts.parsed
    rcases Context.explicitResponseSeq_eq_ok.mp haccepts.responseSeq_eq with
      ⟨hnil, hnone⟩ | ⟨seq, hne, hseq, hfresh, hsome⟩
    · simp only [Event.responderSeq?, explicitPiv?, hparsed, hnil, ↓reduceIte,
        Option.map_none] at hresponders
      simp only [hresponders, Context.acceptResponse, Context.windows, hnone]
      exact h.responders
    · simp only [Event.responderSeq?, explicitPiv?, hparsed, hne, ↓reduceIte,
        Option.map_some, hseq] at hresponders
      simp only [hresponders, Context.acceptResponse, Context.windows, hsome]
      refine h.responders.accept ?_
      simp [ReuseWindow.oneShot, History.OneShot.onOption, Context.windows,
        hfresh]
  exact ⟨h.requests, hreceived.1, hpiv, hreceived.2⟩

/-- An action keeps the windows in step with the log, and a failed one leaves
both alone. -/
theorem Remembers.acted {session session' : Session C} {store store' : σ}
    {action : Action} {event : Option Event} {log : List Event}
    (h : Remembers initial session.context.windows log)
    (heffect : session.Effect S store action session' store' event) :
    (event = none → session'.context.windows = session.context.windows) ∧
      Remembers initial session'.context.windows (event.toList ++ log) := by
  cases heffect with
  | gotRequest oscoreOption ciphertext opt seq plaintext message haccepts =>
      exact ⟨nofun, h.gotRequest haccepts⟩
  | gotResponse call opt plaintext pending haccepts =>
      exact ⟨nofun, h.gotResponse haccepts⟩
  | reserved | sentRequest | sentResponse | sentOwn | sentBare =>
      exact ⟨nofun, h.ignore rfl rfl rfl rfl rfl rfl⟩
  | _ => exact ⟨fun _ => rfl, h⟩

variable {R : RecipientContract S} {r : Receiver C σ}

theorem Tracks.act (h : Tracks R initial r) (action : Action) :
    Tracks R initial (step S r (.act action)) := by
  simp only [step]
  cases hsession : r.session with
  | none => exact h
  | some session =>
      obtain ⟨hwindows, hid⟩ := h.up session hsession
      have heffect := session.act_effect S r.store action
      have hremembers := h.remembers
      rw [← hwindows] at hremembers
      obtain ⟨hsame, hafter⟩ := hremembers.acted heffect
      have hsnapshot : (session.act S r.store action).1.context.windows =
          (if (session.act S r.store action).2.2.isSome then
            (session.act S r.store action).1.context.recipientReplayState
          else r.snapshot).windows := by
        cases hevent : (session.act S r.store action).2.2 with
        | none => exact (hsame hevent).trans hwindows
        | some event => simp
      refine ⟨?_, nofun, ?_⟩
      · rintro _ ⟨⟩
        exact ⟨hsnapshot,
          (congrArg Material.contextId heffect.toMaterial).trans hid⟩
      · dsimp only
        rw [← hsnapshot]
        exact hafter

/-- What a rebuild reads back is the saved snapshot. -/
theorem Tracks.rebuild (h : Tracks R initial r) (hdown : r.session = none) :
    Tracks R initial (Receiver.rebuild S r) := by
  have hsaved := h.down hdown
  unfold Receiver.rebuild
  split
  · exact h
  · rename_i context hnew
    have hid : context.contextId = r.material.contextId := by
      obtain ⟨material, hbuild, rfl⟩ := Context.new_eq_ok.mp hnew
      obtain ⟨hsecret, hsalt, hcontext, hsender, -⟩ := Material.of_build hbuild
      change material.contextId = _
      rw [material.contextId_eq, r.material.contextId_eq, hsecret, hsalt,
        hcontext, hsender]
      rfl
    have hkept := R.saved_after_restoreExisting context r.store
    split
    · rename_i restored store hrestore
      obtain ⟨state, u, hload, context', hset, rs, hrecipient, rfl⟩ :=
        Context.restoreExisting_eq_ok.mp hrestore
      have hloaded := R.loadRecipient_ok _ _ _ _ hrecipient
      have hafter := R.loadSender_keeps context.contextId r.store
      rw [after_of_ok hload] at hafter
      rw [hafter, hid, hsaved] at hloaded
      subst hloaded
      refine ⟨?_, nofun, h.remembers⟩
      rintro _ ⟨⟩
      exact ⟨rfl, (Context.setSenderState_contextId hset).trans hid⟩
    · rename_i store hrestore
      rw [after_of_error hrestore] at hkept
      refine ⟨fun session hsession => absurd hsession (by simp [hdown]),
        fun _ => ?_, h.remembers⟩
      dsimp only
      rw [hkept]
      exact hsaved

theorem Tracks.step (h : Tracks R initial r) (op : Op) :
    Tracks R initial (Receiver.step S r op) := by
  cases op with
  | act action => exact h.act action
  | restart =>
      simp only [Receiver.step]
      cases hsession : r.session with
      | none => exact h.rebuild hsession
      | some session =>
          dsimp only
          split
          · rename_i store hsave
            have hsaved : R.saved store r.material.contextId =
                some r.snapshot := by
              simp [R.saveRecipient_ok _ _ _ _ hsave]
            have hdown : Tracks R initial { r with store, session := none } :=
              ⟨fun _ hnone => (nomatch hnone), fun _ => hsaved, h.remembers⟩
            exact hdown.rebuild rfl
          · rename_i store hsave
            exact ⟨fun other hother => h.up other (hsession.trans hother),
              fun hdown => absurd hdown (by simp), h.remembers⟩

theorem tracks_run (R : RecipientContract S) (context : Context C) (store : σ)
    (ops : List Op) :
    Tracks R context.receivedResponse
      (History.run (Receiver.step S) (start context store) ops) := by
  refine History.invariant (fun r op h => h.step op) ⟨?_, nofun, ?_⟩ ops
  · rintro _ ⟨⟩
    exact ⟨(windows_recipientReplayState context).symm, rfl⟩
  · exact ⟨History.OneShot.remembers_nil _ _,
      History.OneShot.remembers_nil _ _, History.OneShot.remembers_nil _ _,
      by simp [start, Context.windows, ordinaryWindow, ordinary]⟩

/-! At most once. -/

/-- Any two accepted requests carry different sequence numbers. -/
def RequestsOnce (log : List Event) : Prop :=
  log.Pairwise fun later earlier =>
    ∀ seq seq', later.requestSeq? = some seq →
      earlier.requestSeq? = some seq' → seq ≠ seq'

/-- A request sequence is accepted at most once over a whole history. -/
theorem requests_accepted_once (R : RecipientContract S) (context : Context C)
    (store : σ) (ops : List Op) :
    RequestsOnce
      (History.run (Receiver.step S) (start context store) ops).log := by
  have hnodup := (tracks_run R context store ops).remembers.requests.1
  exact (List.pairwise_filterMap.mp hnodup).imp fun hne seq seq' hseq hseq' =>
    hne seq hseq seq' hseq'

/-- Response acceptance is one-shot in the request for ordinary responses, and
in the responder PIV for all of them. -/
structure ResponsesOnce (log : List Event) : Prop where
  ordinary : log.Pairwise fun later earlier =>
    ∀ seq seq', later.ordinarySeq? = some seq →
      earlier.ordinarySeq? = some seq' → seq ≠ seq'
  responders : log.Pairwise fun later earlier =>
    ∀ seq seq', later.responderSeq? = some seq →
      earlier.responderSeq? = some seq' → seq ≠ seq'

theorem Remembers.responsesOnce {windows : Windows} {log : List Event}
    (h : Remembers initial windows log) : ResponsesOnce log where
  ordinary := (List.pairwise_filterMap.mp h.ordinary.1).imp
    fun hne seq seq' hseq hseq' => hne seq hseq seq' hseq'
  responders := (List.pairwise_filterMap.mp h.responders.1).imp
    fun hne seq seq' hseq hseq' => hne seq hseq seq' hseq'

theorem rebuild_log (S : ContextStateStore σ ε) (r : Receiver C σ) :
    (rebuild S r).log = r.log := by
  unfold rebuild
  split
  · rfl
  · split <;> rfl

theorem step_log (S : ContextStateStore σ ε) (r : Receiver C σ) (op : Op) :
    ∃ recent, (Receiver.step S r op).log = recent ++ r.log := by
  cases op with
  | act action =>
      simp only [Receiver.step]
      cases r.session with
      | none => exact ⟨[], rfl⟩
      | some session => exact ⟨_, rfl⟩
  | restart =>
      simp only [Receiver.step]
      split
      · exact ⟨[], rebuild_log S r⟩
      · split
        · exact ⟨[], rebuild_log S _⟩
        · exact ⟨[], rfl⟩

theorem run_log (S : ContextStateStore σ ε) (r : Receiver C σ)
    (ops : List Op) :
    ∃ recent, (History.run (Receiver.step S) r ops).log = recent ++ r.log := by
  induction ops generalizing r with
  | nil => exact ⟨[], rfl⟩
  | cons op ops ih =>
      obtain ⟨first, hfirst⟩ := step_log S r op
      obtain ⟨rest, hrest⟩ := ih (Receiver.step S r op)
      exact ⟨rest ++ first, by
        rw [History.run_cons, hrest, hfirst, List.append_assoc]⟩

theorem ordinaryWindow_append {recent log : List Event}
    (h : ∀ event ∈ recent, event.ordinarySeq? = none) :
    ordinaryWindow initial (recent ++ log) = ordinaryWindow initial log := by
  have hnone : recent.filterMap Event.ordinarySeq? = [] :=
    List.filterMap_eq_nil_iff.mpr h
  rw [ordinaryWindow, ordinary, List.filterMap_append, hnone,
    List.nil_append]
  rfl

/-- Only ordinary responses move the request-reuse window. -/
theorem Tracks.receivedResponse_eq {r' : Receiver C σ} {recent : List Event}
    (h : Tracks R initial r) (h' : Tracks R initial r')
    (hlog : r'.log = recent ++ r.log)
    (hrecent : ∀ event ∈ recent, event.ordinarySeq? = none)
    {session session' : Session C} (hsession : r.session = some session)
    (hsession' : r'.session = some session') :
    session'.context.receivedResponse = session.context.receivedResponse := by
  have hwindow := congrArg Windows.receivedResponse (h.up session hsession).1
  have hwindow' :=
    congrArg Windows.receivedResponse (h'.up session' hsession').1
  rw [h.remembers.window] at hwindow
  rw [h'.remembers.window, hlog, ordinaryWindow_append hrecent] at hwindow'
  exact hwindow'.trans hwindow.symm

/-- A commit leaves the request window alone. -/
theorem commit_replay {r' : Receiver C σ}
    (hstep : Receiver.step S r (.act .commit) = r')
    {session session' : Session C} (hsession : r.session = some session)
    (hsession' : r'.session = some session') :
    session'.context.replay = session.context.replay := by
  subst hstep
  simp only [Receiver.step, hsession, Option.some.injEq] at hsession'
  subst hsession'
  have heffect := session.act_effect S r.store .commit
  generalize session.act S r.store .commit = result at heffect
  obtain ⟨session', store, event⟩ := result
  cases heffect <;> rfl

/-- Over every history: one ordinary response for each request, one response
of either kind for each responder PIV, and no influence of notifications on the
request-reuse check or of commits on the request window. -/
theorem responses_accepted_once (R : RecipientContract S) (context : Context C)
    (store : σ) (first second : List Op) :
    let r := History.run (Receiver.step S) (start context store) first
    let r' := History.run (Receiver.step S) r second
    ResponsesOnce r'.log ∧
      (∃ recent, r'.log = recent ++ r.log ∧
        ((∀ event ∈ recent, event.ordinarySeq? = none) →
          ∀ session session', r.session = some session →
            r'.session = some session' → ∀ seq,
            session'.context.receivedResponse.isReuse seq =
              session.context.receivedResponse.isReuse seq)) ∧
      ∀ session session', r.session = some session →
        (Receiver.step S r (.act .commit)).session = some session' → ∀ seq,
        session'.context.replay.isReplay seq =
          session.context.replay.isReplay seq := by
  intro r r'
  have htracks : Tracks R context.receivedResponse r :=
    tracks_run R context store first
  have htracks' : Tracks R context.receivedResponse r' := by
    have hboth := tracks_run R context store (first ++ second)
    rwa [History.run_append] at hboth
  obtain ⟨recent, hlog⟩ := run_log S r second
  refine ⟨htracks'.remembers.responsesOnce, ⟨recent, hlog, ?_⟩, ?_⟩
  · intro hrecent session session' hsession hsession' seq
    rw [htracks.receivedResponse_eq htracks' hlog hrecent hsession hsession']
  · intro session session' hsession hsession' seq
    rw [commit_replay rfl hsession hsession']

end Receiver

end Oscore
