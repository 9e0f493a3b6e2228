/-
The four sliding windows of a context against the plain set model: over any
history of marks each window refuses what the set of its marks refuses, and no
shift it makes is as wide as its word.
-/
import Oscore.KeyRecord
import Oscore.Lib.SlidingWindow

namespace Oscore

open Rust History SlidingWindow

/-! The window functions in a build that checks its shifts. -/

/-- `word << amount as u32`, which panics when overflow checks are on and the
amount is not below 32.  Below 32 the cast of the `u64` difference is exact. -/
def checkedShl (word : UInt32) (amount : Nat) : Outcome OscoreError UInt32 :=
  expect (if amount < 32 then some (word <<< UInt32.ofNat amount) else none)

theorem checkedShl_of_lt (word : UInt32) {amount : Nat} (h : amount < 32) :
    checkedShl word amount = .ok (word <<< UInt32.ofNat amount) := by
  simp [checkedShl, h, expect]

theorem checkedShl_one {amount : Nat} (h : amount < 32) :
    checkedShl 1 amount = .ok (windowBit amount) :=
  checkedShl_of_lt 1 h

namespace ReplayWindow

/-- `is_replay` -/
def isReplayChecked (w : ReplayWindow) (seq : OscoreSeqNum) :
    Outcome OscoreError Bool :=
  if seq.get > w.seq.get then return false
  else
    let diff := w.seq.get - seq.get
    if diff ≥ windowSize then return true
    else do
      let mask ← checkedShl 1 diff
      return decide (w.window &&& mask ≠ 0)

/-- `update_replay_window` -/
def updateReplayWindowChecked (w : ReplayWindow) (seq : OscoreSeqNum) :
    Outcome OscoreError ReplayWindow :=
  if seq.get > w.seq.get then do
    let shift := seq.get - w.seq.get
    let window ← if shift ≥ windowSize then pure 0
      else checkedShl w.window shift
    return ⟨seq, window ||| 1⟩
  else
    let diff := w.seq.get - seq.get
    if diff < windowSize then do
      let mask ← checkedShl 1 diff
      return { w with window := w.window ||| mask }
    else return w

end ReplayWindow

namespace ReuseWindow

/-- `is_response_reuse` and its two siblings -/
def isReuseChecked (w : ReuseWindow) (seq : OscoreSeqNum) :
    Outcome OscoreError Bool :=
  if !w.initialized || seq.get > w.seq.get then return false
  else
    let diff := w.seq.get - seq.get
    if diff ≥ windowSize then return true
    else do
      let mask ← checkedShl 1 diff
      return decide (w.window &&& mask ≠ 0)

/-- `mark_response_used` and its two siblings -/
def markChecked (w : ReuseWindow) (seq : OscoreSeqNum) :
    Outcome OscoreError ReuseWindow :=
  if !w.initialized then return ⟨seq, 1, true⟩
  else if seq.get > w.seq.get then do
    let shift := seq.get - w.seq.get
    let window ← if shift ≥ windowSize then pure 1
      else do
        let window ← checkedShl w.window shift
        pure (window ||| 1)
    return { w with window, seq }
  else do
    let mask ← checkedShl 1 (w.seq.get - seq.get)
    return { w with window := w.window ||| mask }

end ReuseWindow

/-! No check shifts too far, and no mark of a sequence its check lets through
does. -/

namespace ReuseWindow

theorem near_of_fresh {w : ReuseWindow} {seq : OscoreSeqNum}
    (hinit : w.initialized = true) (h : w.isReuse seq = false) :
    w.seq.get - seq.get < 32 := by
  by_contra hfar
  have hrejects : w.isReuse seq = true :=
    isReuse_iff.mpr ⟨hinit, by omega, Or.inl (Nat.not_lt.mp hfar)⟩
  simp [h] at hrejects

theorem isReuseChecked_eq (w : ReuseWindow) (seq : OscoreSeqNum) :
    w.isReuseChecked seq = .ok (w.isReuse seq) := by
  unfold isReuseChecked isReuse
  split
  · rfl
  · by_cases hfar : w.seq.get - seq.get ≥ windowSize
    · simp [hfar]
    · simp [hfar, checkedShl_one (Nat.not_le.mp hfar), hasBit]

theorem markChecked_eq {w : ReuseWindow} {seq : OscoreSeqNum}
    (h : w.isReuse seq = false) : w.markChecked seq = .ok (w.mark seq) := by
  unfold markChecked mark
  cases hinit : w.initialized with
  | false => rfl
  | true =>
      by_cases hgt : seq.get > w.seq.get
      · by_cases hfar : seq.get - w.seq.get ≥ windowSize
        · simp [hgt, hfar, shiftWindow]
        · simp [hgt, hfar, shiftWindow, checkedShl_of_lt _ (Nat.not_le.mp hfar)]
      · simp [hgt, checkedShl_one (near_of_fresh hinit h)]

end ReuseWindow

namespace ReplayWindow

theorem isReplayChecked_eq (w : ReplayWindow) (seq : OscoreSeqNum) :
    w.isReplayChecked seq = .ok (w.isReplay seq) := by
  unfold isReplayChecked isReplay
  by_cases hgt : seq.get > w.seq.get
  · simp [hgt]
  · by_cases hfar : w.seq.get - seq.get ≥ windowSize
    · simp [hgt, hfar]
    · simp [hgt, hfar, checkedShl_one (Nat.not_le.mp hfar), hasBit]

theorem updateReplayWindowChecked_eq (w : ReplayWindow) (seq : OscoreSeqNum) :
    w.updateReplayWindowChecked seq = .ok (w.updateReplayWindow seq) := by
  unfold updateReplayWindowChecked updateReplayWindow
  by_cases hgt : seq.get > w.seq.get
  · by_cases hfar : seq.get - w.seq.get ≥ windowSize
    · simp [hgt, hfar]
    · simp [hgt, hfar, checkedShl_of_lt _ (Nat.not_le.mp hfar)]
  · by_cases hnear : w.seq.get - seq.get < windowSize
    · simp [hgt, hnear, checkedShl_one hnear]
    · simp [hgt, hnear]

end ReplayWindow

/-! The set a window stands for. -/

namespace ReuseWindow

/-- The window stands for the marks of a history. -/
def Holds (w : ReuseWindow) (marked : List Nat) : Prop :=
  (marked = [] ∧ w.initialized = false) ∨
    (w.initialized = true ∧
      Represents windowSize w.seq.get (hasBit w.window) marked)

theorem holds_fresh : fresh.Holds [] := Or.inl ⟨rfl, rfl⟩

theorem represents_mark {w : ReuseWindow} {seq : OscoreSeqNum}
    {marked : List Nat} (hinit : w.initialized = true)
    (h : Represents windowSize w.seq.get (hasBit w.window) marked)
    (hfresh : w.isReuse seq = false) :
    Represents windowSize (w.mark seq).seq.get (hasBit (w.mark seq).window)
      (marked ++ [seq.get]) := by
  unfold mark
  simp only [hinit, Bool.not_true, Bool.false_eq_true, ↓reduceIte]
  by_cases hgt : seq.get > w.seq.get
  · simp only [hgt, ↓reduceIte]
    apply h.advance hgt
    intro i hi
    exact hasBit_shiftWindow w.window hi
  · simp only [hgt, ↓reduceIte]
    apply h.within (Nat.not_lt.mp hgt)
    intro i hi
    exact hasBit_or_windowBit w.window (near_of_fresh hinit hfresh) hi

theorem initialized_mark (w : ReuseWindow) (seq : OscoreSeqNum) :
    (w.mark seq).initialized = true := by
  unfold mark
  cases hinit : w.initialized with
  | false => rfl
  | true =>
      simp only [Bool.not_true, Bool.false_eq_true, ↓reduceIte]
      split <;> rfl

/-- The step of the set model. -/
theorem Holds.mark {w : ReuseWindow} {seq : OscoreSeqNum} {marked : List Nat}
    (h : w.Holds marked) (hfresh : w.isReuse seq = false) :
    (w.mark seq).Holds (marked ++ [seq.get]) := by
  right
  refine ⟨initialized_mark w seq, ?_⟩
  rcases h with ⟨hempty, hinit⟩ | ⟨hinit, h⟩
  · subst hempty
    unfold ReuseWindow.mark
    simp only [hinit, Bool.not_false, ↓reduceIte, List.nil_append]
    apply Represents.first
    intro i hi
    exact hasBit_one hi
  · exact represents_mark hinit h hfresh

/-- The verdict of the set model. -/
theorem Holds.isReuse_iff {w : ReuseWindow} {marked : List Nat}
    (h : w.Holds marked) (seq : OscoreSeqNum) :
    w.isReuse seq = true ↔ Refuses windowSize marked seq.get := by
  rw [ReuseWindow.isReuse_iff]
  rcases h with ⟨hempty, hinit⟩ | ⟨hinit, h⟩
  · simp [hempty, hinit, Refuses]
  · rw [h.refuses_iff]
    simp [hinit]

end ReuseWindow

namespace ReplayWindow

/-- As for the flagged windows, but an empty history is told from a mark at 0
by the word alone. -/
def Holds (w : ReplayWindow) (marked : List Nat) : Prop :=
  (marked = [] ∧ w = fresh) ∨
    Represents windowSize w.seq.get (hasBit w.window) marked

theorem holds_fresh : fresh.Holds [] := Or.inl ⟨rfl, rfl⟩

theorem near_of_fresh {w : ReplayWindow} {seq : OscoreSeqNum}
    (h : w.isReplay seq = false) : w.seq.get - seq.get < 32 := by
  rw [isReplay_eq_isReuse] at h
  exact ReuseWindow.near_of_fresh rfl h

theorem hasBit_zero {i : Nat} (hi : i < 32) : hasBit 0 i = false := by
  rw [hasBit_eq_testBit _ hi]
  exact Nat.zero_testBit i

/-- The first mark of the request window, at 0 or above. -/
theorem represents_first (seq : OscoreSeqNum) :
    Represents windowSize (fresh.updateReplayWindow seq).seq.get
      (hasBit (fresh.updateReplayWindow seq).window) [seq.get] := by
  have hmark : (fresh.updateReplayWindow seq).toReuse =
      fresh.toReuse.mark seq :=
    toReuse_updateReplayWindow (by simp [fresh])
  have hseq := congrArg ReuseWindow.seq hmark
  have hwindow := congrArg ReuseWindow.window hmark
  simp only [toReuse] at hseq hwindow
  rw [hseq, hwindow]
  unfold ReuseWindow.mark
  by_cases hgt : seq.get > 0
  · simp only [fresh, OscoreSeqNum.get_default, hgt, Bool.not_true,
      Bool.false_eq_true, ↓reduceIte]
    apply Represents.first
    intro i hi
    have hold : hasBit 0 (i - (seq.get - 0)) = false :=
      hasBit_zero (lt_of_le_of_lt (Nat.sub_le i _) hi)
    rw [hasBit_shiftWindow _ hi, hold]
    simp
  · have hzero : seq.get = 0 := Nat.eq_zero_of_not_pos hgt
    simp only [fresh, OscoreSeqNum.get_default, hzero, Bool.not_true,
      Bool.false_eq_true, ↓reduceIte, gt_iff_lt, lt_self_iff_false]
    apply Represents.first
    intro i hi
    rw [hasBit_or_windowBit _ (by norm_num) hi, hasBit_zero hi]
    simp [eq_comm]

/-- The step of the set model. -/
theorem Holds.update {w : ReplayWindow} {seq : OscoreSeqNum}
    {marked : List Nat} (h : w.Holds marked) (hfresh : w.isReplay seq = false) :
    (w.updateReplayWindow seq).Holds (marked ++ [seq.get]) := by
  right
  rcases h with ⟨hempty, hw⟩ | h
  · subst hempty hw
    exact represents_first seq
  · have hmark := toReuse_updateReplayWindow (near_of_fresh hfresh)
    have hseq := congrArg ReuseWindow.seq hmark
    have hwindow := congrArg ReuseWindow.window hmark
    simp only [toReuse] at hseq hwindow
    rw [hseq, hwindow]
    rw [isReplay_eq_isReuse] at hfresh
    exact ReuseWindow.represents_mark rfl h hfresh

/-- The verdict of the set model. -/
theorem Holds.isReplay_iff {w : ReplayWindow} {marked : List Nat}
    (h : w.Holds marked) (seq : OscoreSeqNum) :
    w.isReplay seq = true ↔ Refuses windowSize marked seq.get := by
  rcases h with ⟨hempty, hw⟩ | h
  · subst hempty hw
    simp [isReplay_fresh, Refuses]
  · rw [isReplay_eq_isReuse, ReuseWindow.isReuse_iff, h.refuses_iff]
    simp [toReuse]

end ReplayWindow

/-! The windows of one context. -/

inductive WindowName where
  | request
  | response
  | receivedResponse
  | receivedResponsePiv
deriving DecidableEq

/-- A mark on one of the windows. -/
abbrev Mark := WindowName × OscoreSeqNum

/-- What was marked on one window. -/
def marked (name : WindowName) (marks : List Mark) : List Nat :=
  marks.filterMap fun m => if m.1 = name then some m.2.get else none

theorem marked_snoc (name : WindowName) (marks : List Mark) (m : Mark) :
    marked name (marks ++ [m]) =
      marked name marks ++ if m.1 = name then [m.2.get] else [] := by
  unfold marked
  rw [List.filterMap_append]
  by_cases hname : m.1 = name <;> simp [hname]

theorem marked_map (name : WindowName) (seqs : List OscoreSeqNum) :
    marked name (seqs.map (Prod.mk name)) = seqs.map (·.get) := by
  induction seqs with
  | nil => rfl
  | cons seq seqs ih =>
      unfold marked at ih ⊢
      simp [ih]

namespace Context

variable {C : Crypto}

/-- `is_replay`, `is_response_reuse`, `is_received_response_reuse` and
`is_received_response_piv_reuse` -/
def rejects (self : Context C) : WindowName → OscoreSeqNum → Bool
  | .request => self.replay.isReplay
  | .response => self.response.isReuse
  | .receivedResponse => self.receivedResponse.isReuse
  | .receivedResponsePiv => self.receivedResponsePiv.isReuse

/-- `update_replay_window`, `mark_response_used`, `mark_received_response` and
`mark_received_response_piv` -/
def applyMark (self : Context C) : Mark → Context C
  | (.request, seq) =>
      { self with replay := self.replay.updateReplayWindow seq }
  | (.response, seq) => { self with response := self.response.mark seq }
  | (.receivedResponse, seq) =>
      { self with receivedResponse := self.receivedResponse.mark seq }
  | (.receivedResponsePiv, seq) =>
      { self with receivedResponsePiv := self.receivedResponsePiv.mark seq }

/-- The checks in a build that checks its shifts. -/
def rejectsChecked (self : Context C) :
    WindowName → OscoreSeqNum → Outcome OscoreError Bool
  | .request => self.replay.isReplayChecked
  | .response => self.response.isReuseChecked
  | .receivedResponse => self.receivedResponse.isReuseChecked
  | .receivedResponsePiv => self.receivedResponsePiv.isReuseChecked

/-- The marks in a build that checks its shifts. -/
def applyMarkChecked (self : Context C) :
    Mark → Outcome OscoreError (Context C)
  | (.request, seq) => do
      let replay ← self.replay.updateReplayWindowChecked seq
      return { self with replay }
  | (.response, seq) => do
      let response ← self.response.markChecked seq
      return { self with response }
  | (.receivedResponse, seq) => do
      let receivedResponse ← self.receivedResponse.markChecked seq
      return { self with receivedResponse }
  | (.receivedResponsePiv, seq) => do
      let receivedResponsePiv ← self.receivedResponsePiv.markChecked seq
      return { self with receivedResponsePiv }

/-- The check of the window lets the sequence through. -/
def Admits (self : Context C) (m : Mark) : Prop :=
  self.rejects m.1 m.2 = false

instance (self : Context C) (m : Mark) : Decidable (self.Admits m) :=
  inferInstanceAs (Decidable (_ = _))

/-- One window stands for what was marked on it. -/
def Holds (self : Context C) : WindowName → List Nat → Prop
  | .request => self.replay.Holds
  | .response => self.response.Holds
  | .receivedResponse => self.receivedResponse.Holds
  | .receivedResponsePiv => self.receivedResponsePiv.Holds

/-- The windows stand for a history of marks. -/
def Records (self : Context C) (marks : List Mark) : Prop :=
  ∀ name, self.Holds name (marked name marks)

theorem records_initial (material : Material C) (allow : Bool) :
    Records { initial material with allowNoPivResponse := allow } [] := by
  intro name
  cases name with
  | request => exact ReplayWindow.holds_fresh
  | response => exact ReuseWindow.holds_fresh
  | receivedResponse => exact ReuseWindow.holds_fresh
  | receivedResponsePiv => exact ReuseWindow.holds_fresh

/-- A mark reaches its own window only. -/
theorem Records.applyMark {self : Context C} {marks : List Mark} {m : Mark}
    (h : self.Records marks) (hadmits : self.Admits m) :
    (self.applyMark m).Records (marks ++ [m]) := by
  intro name
  have hname := h name
  rw [marked_snoc]
  obtain ⟨target, seq⟩ := m
  by_cases hsame : target = name
  · subst hsame
    simp only [↓reduceIte]
    cases target with
    | request => exact ReplayWindow.Holds.update hname hadmits
    | response => exact ReuseWindow.Holds.mark hname hadmits
    | receivedResponse => exact ReuseWindow.Holds.mark hname hadmits
    | receivedResponsePiv => exact ReuseWindow.Holds.mark hname hadmits
  · simp only [hsame, ↓reduceIte, List.append_nil]
    cases target <;> cases name <;> first | exact hname | exact absurd rfl hsame

theorem Records.rejects_iff {self : Context C} {marks : List Mark}
    (h : self.Records marks) (name : WindowName) (seq : OscoreSeqNum) :
    self.rejects name seq = true ↔
      Refuses windowSize (marked name marks) seq.get := by
  have hname := h name
  cases name with
  | request => exact ReplayWindow.Holds.isReplay_iff hname seq
  | response => exact ReuseWindow.Holds.isReuse_iff hname seq
  | receivedResponse => exact ReuseWindow.Holds.isReuse_iff hname seq
  | receivedResponsePiv => exact ReuseWindow.Holds.isReuse_iff hname seq

theorem rejectsChecked_eq (self : Context C) (name : WindowName)
    (seq : OscoreSeqNum) :
    self.rejectsChecked name seq = .ok (self.rejects name seq) := by
  cases name with
  | request => exact self.replay.isReplayChecked_eq seq
  | response => exact self.response.isReuseChecked_eq seq
  | receivedResponse => exact self.receivedResponse.isReuseChecked_eq seq
  | receivedResponsePiv => exact self.receivedResponsePiv.isReuseChecked_eq seq

theorem applyMarkChecked_eq {self : Context C} {m : Mark}
    (h : self.Admits m) : self.applyMarkChecked m = .ok (self.applyMark m) := by
  obtain ⟨name, seq⟩ := m
  cases name with
  | request =>
      simp [applyMarkChecked, applyMark,
        ReplayWindow.updateReplayWindowChecked_eq]
  | response =>
      simp [applyMarkChecked, applyMark, ReuseWindow.markChecked_eq h]
  | receivedResponse =>
      simp [applyMarkChecked, applyMark, ReuseWindow.markChecked_eq h]
  | receivedResponsePiv =>
      simp [applyMarkChecked, applyMark, ReuseWindow.markChecked_eq h]

/-- After any history of admitted marks the windows stand for it. -/
theorem records_run {start : Context C} {marks : List Mark}
    (hstart : start.Records [])
    (hguard : Guarded applyMark Admits start marks) :
    (run applyMark start marks).Records marks :=
  invariant_of_past (fun _ _ _ h hadmits => h.applyMark hadmits) hguard hstart

/-- A new context, as `new` or `new_fresh` builds it. -/
def Fresh (self : Context C) : Prop :=
  ∃ masterSecret masterSalt idContext senderId recipientId,
    new C masterSecret masterSalt idContext senderId recipientId = .ok self ∨
      newFresh C masterSecret masterSalt idContext senderId recipientId =
        .ok self

theorem Fresh.records {self : Context C} (h : self.Fresh) :
    self.Records [] := by
  obtain ⟨_, _, _, _, _, h | h⟩ := h
  · obtain ⟨material, -, hself⟩ := new_eq_ok.mp h
    subst hself
    exact records_initial material false
  · obtain ⟨material, -, hself⟩ := newFresh_eq_ok.mp h
    subst hself
    exact records_initial material true

/-- A history on one window is admitted exactly when the set model, grown mark
by mark, refuses none of it. -/
def SetAdmits : List Nat → List OscoreSeqNum → Prop
  | _, [] => True
  | past, seq :: seqs =>
      ¬ Refuses windowSize past seq.get ∧ SetAdmits (past ++ [seq.get]) seqs

theorem guarded_iff_setAdmits {self : Context C} {past : List Mark}
    (h : self.Records past) (name : WindowName) (seqs : List OscoreSeqNum) :
    Guarded applyMark Admits self (seqs.map (Prod.mk name)) ↔
      SetAdmits (marked name past) seqs := by
  induction seqs generalizing self past with
  | nil => exact Iff.rfl
  | cons seq seqs ih =>
      have hadmits : self.Admits (name, seq) ↔
          ¬ Refuses windowSize (marked name past) seq.get := by
        rw [← h.rejects_iff, Admits, Bool.not_eq_true]
      rw [List.map_cons, Guarded, SetAdmits, ← hadmits]
      apply and_congr_right
      intro hadmitted
      have hnext := ih (h.applyMark hadmitted)
      rwa [marked_snoc, if_pos rfl] at hnext

/-- What the windows of a context decide after a history of marks. -/
structure DecidesLikeSet (self : Context C) (marks : List Mark) : Prop where
  rejects_iff : ∀ name seq, self.rejects name seq = true ↔
    Refuses windowSize (marked name marks) seq.get
  check_shifts : ∀ name seq,
    self.rejectsChecked name seq = .ok (self.rejects name seq)
  mark_shifts : ∀ m, self.Admits m →
    self.applyMarkChecked m = .ok (self.applyMark m)

/-- The request window and another one admit the same histories, and after such
a history they decide alike. -/
structure DecideAlike (start : Context C) (name : WindowName) : Prop where
  admits_iff : ∀ seqs : List OscoreSeqNum,
    Guarded applyMark Admits start (seqs.map (Prod.mk .request)) ↔
      Guarded applyMark Admits start (seqs.map (Prod.mk name))
  rejects_eq : ∀ seqs : List OscoreSeqNum,
    Guarded applyMark Admits start (seqs.map (Prod.mk .request)) →
    ∀ seq,
      (run applyMark start (seqs.map (Prod.mk .request))).rejects .request
          seq =
        (run applyMark start (seqs.map (Prod.mk name))).rejects name seq

theorem decideAlike {start : Context C} (h : start.Records [])
    (name : WindowName) : DecideAlike start name where
  admits_iff := by
    intro seqs
    rw [guarded_iff_setAdmits h, guarded_iff_setAdmits h]
    rfl
  rejects_eq := by
    intro seqs hrequest seq
    have hname := hrequest
    rw [guarded_iff_setAdmits h] at hname
    have hother := (guarded_iff_setAdmits h name seqs).mpr hname
    rw [Bool.eq_iff_iff, (records_run h hrequest).rejects_iff,
      (records_run h hother).rejects_iff, marked_map, marked_map]

/-- The windows of a context decide like the sets of what was marked on them,
whichever marks are interleaved, without a shift of 32 or more, and the window
without a flag decides like the others. -/
theorem windows_decideLikeSet {start : Context C} (hfresh : start.Fresh) :
    (∀ marks, Guarded applyMark Admits start marks →
      (run applyMark start marks).DecidesLikeSet marks) ∧
    ∀ name, start.DecideAlike name := by
  constructor
  · intro marks hguard
    have hrecords := records_run hfresh.records hguard
    exact ⟨hrecords.rejects_iff, rejectsChecked_eq _,
      fun _ => applyMarkChecked_eq⟩
  · exact decideAlike hfresh.records

/-- Marks on two windows, with jumps of 31 and 32. -/
def sampleMarks : List Mark :=
  [(.request, .default), (.request, ⟨31, by norm_num⟩),
    (.receivedResponse, ⟨2 ^ 40 - 1, by norm_num⟩),
    (.request, ⟨63, by norm_num⟩), (.request, ⟨40, by norm_num⟩)]

theorem windows_decideLikeSet_sample :
    ∃ start : Context Crypto.standIn, start.Fresh ∧
      Guarded applyMark Admits start sampleMarks ∧
      (run applyMark start sampleMarks).DecidesLikeSet sampleMarks ∧
      ∀ name, start.DecideAlike name := by
  have hinside : (((ReplayWindow.fresh.updateReplayWindow .default)
      |>.updateReplayWindow ⟨31, by norm_num⟩)
      |>.updateReplayWindow ⟨63, by norm_num⟩).isReplay ⟨40, by norm_num⟩ =
        false := by
    decide +kernel
  have hne : ([1] : Bytes) ≠ [2] := by decide
  obtain ⟨material, hbuild⟩ := @Material.exists_build Crypto.standIn
    Crypto.sampleKey none none [1] [2] (by decide) (by decide) hne (by decide)
    (by decide)
  have hfresh : (initial material).Fresh :=
    ⟨_, _, _, _, _, Or.inl (new_eq_ok.mpr ⟨material, hbuild, rfl⟩)⟩
  have hguard : Guarded applyMark Admits (initial material) sampleMarks :=
    ⟨ReplayWindow.isReplay_fresh _, rfl, rfl, rfl, hinside, trivial⟩
  have h := windows_decideLikeSet hfresh
  exact ⟨initial material, hfresh, hguard, h.1 sampleMarks hguard, h.2⟩

end Context

end Oscore
