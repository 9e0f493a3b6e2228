/-
The sliding windows of a context: the request replay window and the three
windows with an initialised flag.  All four are 32-bit words aligned to the
highest marked sequence, and all four are one-shot filters.
-/
import Oscore.SeqNum
import Oscore.Crypto
import Oscore.Lib.History
import Mathlib.Data.Nat.Bitwise

namespace Oscore

open Rust

/-- The bit `1 << diff` of a window word; the shift amount is a `u32`. -/
def windowBit (diff : Nat) : UInt32 :=
  1 <<< UInt32.ofNat diff

/-- `window & (1 << diff) != 0` -/
def hasBit (window : UInt32) (diff : Nat) : Bool :=
  window &&& windowBit diff ≠ 0

/-- `if shift >= WINDOW_SIZE { 1 } else { (window << shift) | 1 }` -/
def shiftWindow (window : UInt32) (shift : Nat) : UInt32 :=
  if shift ≥ windowSize then 1
  else (window <<< UInt32.ofNat shift) ||| 1

/-- The request replay window, which has no initialised flag. -/
structure ReplayWindow where
  seq : OscoreSeqNum
  window : UInt32
deriving DecidableEq

namespace ReplayWindow

/-- The window of a new context. -/
def fresh : ReplayWindow := ⟨.default, 0⟩

def isReplay (w : ReplayWindow) (seq : OscoreSeqNum) : Bool :=
  if seq.get > w.seq.get then
    false
  else
    let diff := w.seq.get - seq.get
    diff ≥ windowSize || hasBit w.window diff

def updateReplayWindow (w : ReplayWindow) (seq : OscoreSeqNum) :
    ReplayWindow :=
  if seq.get > w.seq.get then
    let shift := seq.get - w.seq.get
    let window :=
      if shift ≥ windowSize then 0 else w.window <<< UInt32.ofNat shift
    ⟨seq, window ||| 1⟩
  else
    let diff := w.seq.get - seq.get
    if diff < windowSize then { w with window := w.window ||| windowBit diff }
    else w

end ReplayWindow

/-- A window with an initialised flag.  The three such windows of a context run
the same two functions on fields of their own. -/
structure ReuseWindow where
  seq : OscoreSeqNum
  window : UInt32
  initialized : Bool
deriving DecidableEq

namespace ReuseWindow

/-- The window of a new context. -/
def fresh : ReuseWindow := ⟨.default, 0, false⟩

def isReuse (w : ReuseWindow) (seq : OscoreSeqNum) : Bool :=
  if !w.initialized || seq.get > w.seq.get then
    false
  else
    let diff := w.seq.get - seq.get
    diff ≥ windowSize || hasBit w.window diff

def mark (w : ReuseWindow) (seq : OscoreSeqNum) : ReuseWindow :=
  if !w.initialized then
    ⟨seq, 1, true⟩
  else if seq.get > w.seq.get then
    { w with seq := seq, window := shiftWindow w.window (seq.get - w.seq.get) }
  else
    { w with window := w.window ||| windowBit (w.seq.get - seq.get) }

end ReuseWindow

/-! Bits of a window word. -/

theorem toNat_ofNat_shift {n : Nat} (hn : n < 32) :
    (UInt32.ofNat n).toNat % 32 = n := by
  rw [UInt32.toNat_ofNat']
  omega

theorem toNat_windowBit {diff : Nat} (hdiff : diff < 32) :
    (windowBit diff).toNat = 2 ^ diff := by
  have hlt : 2 ^ diff < 2 ^ 32 := Nat.pow_lt_pow_right (by norm_num) hdiff
  rw [windowBit, UInt32.toNat_shiftLeft, toNat_ofNat_shift hdiff,
    Nat.shiftLeft_eq]
  simpa using Nat.mod_eq_of_lt hlt

theorem hasBit_eq_testBit (window : UInt32) {diff : Nat} (hdiff : diff < 32) :
    hasBit window diff = window.toNat.testBit diff := by
  have hiff : hasBit window diff = true ↔ window.toNat.testBit diff = true := by
    rw [hasBit, decide_eq_true_iff, ne_eq, ← UInt32.toNat_inj,
      UInt32.toNat_and, toNat_windowBit hdiff, Nat.and_two_pow]
    cases window.toNat.testBit diff <;> simp
  exact Bool.eq_iff_iff.mpr hiff

theorem hasBit_or (window mask : UInt32) {i : Nat} (hi : i < 32) :
    hasBit (window ||| mask) i =
      (hasBit window i || mask.toNat.testBit i) := by
  rw [hasBit_eq_testBit _ hi, hasBit_eq_testBit _ hi, UInt32.toNat_or,
    Nat.testBit_or]

theorem hasBit_or_windowBit (window : UInt32) {diff i : Nat}
    (hdiff : diff < 32) (hi : i < 32) :
    hasBit (window ||| windowBit diff) i =
      (hasBit window i || decide (diff = i)) := by
  rw [hasBit_or _ _ hi, toNat_windowBit hdiff, Nat.testBit_two_pow]

theorem hasBit_one {i : Nat} (hi : i < 32) :
    hasBit 1 i = decide (i = 0) := by
  rw [hasBit_eq_testBit _ hi, show (1 : UInt32).toNat = 2 ^ 0 from rfl,
    Nat.testBit_two_pow]
  exact decide_eq_decide.mpr eq_comm

/-- A shift moves bit `i - shift` to bit `i` and clears the low bits. -/
theorem hasBit_shiftLeft (window : UInt32) {shift i : Nat}
    (hshift : shift < 32) (hi : i < 32) :
    hasBit (window <<< UInt32.ofNat shift) i =
      (decide (shift ≤ i) && hasBit window (i - shift)) := by
  rw [hasBit_eq_testBit _ hi, UInt32.toNat_shiftLeft,
    toNat_ofNat_shift hshift, Nat.testBit_mod_two_pow, Nat.testBit_shiftLeft]
  by_cases hle : shift ≤ i
  · rw [hasBit_eq_testBit _ (by omega : i - shift < 32)]
    simp [hle, hi]
  · simp [hle]

/-- A new highest sequence occupies bit 0 of the shifted word. -/
theorem hasBit_shiftWindow (window : UInt32) {shift i : Nat} (hi : i < 32) :
    hasBit (shiftWindow window shift) i =
      (decide (i = 0) ||
        (decide (shift ≤ i) && hasBit window (i - shift))) := by
  unfold shiftWindow
  split
  · rename_i hge
    have hnot : ¬ shift ≤ i := by
      simp only [windowSize] at hge
      omega
    simp [hasBit_one hi, hnot]
  · rename_i hlt
    have hshift : shift < 32 := by
      simpa using hlt
    have hone : (1 : UInt32).toNat.testBit i = decide (i = 0) := by
      rw [← hasBit_eq_testBit _ hi, hasBit_one hi]
    rw [hasBit_or _ _ hi, hasBit_shiftLeft _ hshift hi, hone, Bool.or_comm]

namespace ReuseWindow

/-- The verdict of a window, spelled out. -/
theorem isReuse_iff {w : ReuseWindow} {seq : OscoreSeqNum} :
    w.isReuse seq = true ↔
      w.initialized = true ∧ seq.get ≤ w.seq.get ∧
        (32 ≤ w.seq.get - seq.get ∨
          hasBit w.window (w.seq.get - seq.get) = true) := by
  unfold isReuse
  cases hinit : w.initialized with
  | false => simp
  | true =>
      by_cases hgt : seq.get > w.seq.get
      · simp [hgt, Nat.not_le.mpr hgt]
      · simp [hgt, Nat.not_lt.mp hgt]

@[simp]
theorem isReuse_fresh (seq : OscoreSeqNum) : fresh.isReuse seq = false := rfl

theorem isReuse_mark_self (w : ReuseWindow) (seq : OscoreSeqNum) :
    (w.mark seq).isReuse seq = true := by
  rw [isReuse_iff]
  unfold mark
  cases hinit : w.initialized with
  | false => exact ⟨rfl, le_rfl, Or.inr (by simp [hasBit_one])⟩
  | true =>
      by_cases hgt : seq.get > w.seq.get
      · simp only [Bool.not_true, Bool.false_eq_true, ↓reduceIte, hgt]
        refine ⟨trivial, le_rfl, Or.inr ?_⟩
        rw [Nat.sub_self, hasBit_shiftWindow _ (by norm_num)]
        rfl
      · simp only [Bool.not_true, Bool.false_eq_true, ↓reduceIte, hgt]
        refine ⟨trivial, Nat.not_lt.mp hgt, ?_⟩
        by_cases hfar : 32 ≤ w.seq.get - seq.get
        · exact Or.inl hfar
        · right
          rw [hasBit_or_windowBit _ (Nat.not_le.mp hfar) (Nat.not_le.mp hfar)]
          simp

theorem isReuse_mark_mono (w : ReuseWindow) (a b : OscoreSeqNum)
    (h : w.isReuse a = true) : (w.mark b).isReuse a = true := by
  obtain ⟨hinit, hle, hbit⟩ := isReuse_iff.mp h
  rw [isReuse_iff]
  unfold mark
  simp only [hinit, Bool.not_true, Bool.false_eq_true, ↓reduceIte]
  by_cases hgt : b.get > w.seq.get
  · simp only [hgt, ↓reduceIte]
    refine ⟨trivial, by omega, ?_⟩
    by_cases hfar : 32 ≤ b.get - a.get
    · exact Or.inl hfar
    · right
      rw [hasBit_shiftWindow _ (Nat.not_le.mp hfar)]
      have hold : hasBit w.window (w.seq.get - a.get) = true := by
        rcases hbit with hold | hold
        · omega
        · exact hold
      have hindex : b.get - a.get - (b.get - w.seq.get) =
          w.seq.get - a.get := by omega
      rw [hindex, hold]
      simp only [Bool.and_true, Bool.or_eq_true, decide_eq_true_eq]
      exact Or.inr (by omega)
  · simp only [hgt, ↓reduceIte]
    refine ⟨trivial, hle, ?_⟩
    by_cases hfar : 32 ≤ w.seq.get - a.get
    · exact Or.inl hfar
    · right
      rw [hasBit_or _ _ (Nat.not_le.mp hfar)]
      rcases hbit with hold | hold
      · exact absurd hold hfar
      · rw [hold, Bool.true_or]

/-- The flagged windows never accept a marked sequence again. -/
def oneShot : History.OneShot ReuseWindow OscoreSeqNum where
  rejects w seq := w.isReuse seq = true
  mark := mark
  rejects_mark := isReuse_mark_self
  rejects_mono := isReuse_mark_mono

end ReuseWindow

namespace ReplayWindow

/-- The flag-less window is a flagged window that counts as initialised. -/
def toReuse (w : ReplayWindow) : ReuseWindow := ⟨w.seq, w.window, true⟩

theorem isReplay_eq_isReuse (w : ReplayWindow) (seq : OscoreSeqNum) :
    w.isReplay seq = w.toReuse.isReuse seq := by
  simp [isReplay, ReuseWindow.isReuse, toReuse]

/-- The two update functions agree on every sequence within the window. -/
theorem toReuse_updateReplayWindow {w : ReplayWindow} {seq : OscoreSeqNum}
    (hnear : w.seq.get - seq.get < 32) :
    (w.updateReplayWindow seq).toReuse = w.toReuse.mark seq := by
  unfold updateReplayWindow ReuseWindow.mark toReuse
  by_cases hgt : seq.get > w.seq.get
  · by_cases hfar : seq.get - w.seq.get ≥ 32
    · simp [hgt, hfar, shiftWindow]
    · simp [hgt, hfar, shiftWindow]
  · simp [hgt, hnear]

theorem updateReplayWindow_of_far {w : ReplayWindow} {seq : OscoreSeqNum}
    (hfar : 32 ≤ w.seq.get - seq.get) : w.updateReplayWindow seq = w := by
  have hle : ¬ seq.get > w.seq.get := by omega
  have hnot : ¬ w.seq.get - seq.get < 32 := by omega
  simp [updateReplayWindow, hle, hnot]

theorem isReplay_fresh (seq : OscoreSeqNum) : fresh.isReplay seq = false := by
  unfold isReplay
  split
  · rfl
  · rename_i hle
    have hzero : seq = .default :=
      OscoreSeqNum.ext (Nat.le_zero.mp (Nat.not_lt.mp hle))
    subst hzero
    decide

theorem isReplay_update_self (w : ReplayWindow) (seq : OscoreSeqNum) :
    (w.updateReplayWindow seq).isReplay seq = true := by
  by_cases hnear : w.seq.get - seq.get < 32
  · rw [isReplay_eq_isReuse, toReuse_updateReplayWindow hnear]
    exact ReuseWindow.isReuse_mark_self _ _
  · rw [updateReplayWindow_of_far (Nat.not_lt.mp hnear), isReplay_eq_isReuse,
      ReuseWindow.isReuse_iff]
    exact ⟨rfl, by simp only [toReuse]; omega, Or.inl (Nat.not_lt.mp hnear)⟩

theorem isReplay_update_mono (w : ReplayWindow) (a b : OscoreSeqNum)
    (h : w.isReplay a = true) : (w.updateReplayWindow b).isReplay a = true := by
  by_cases hnear : w.seq.get - b.get < 32
  · rw [isReplay_eq_isReuse] at h ⊢
    rw [toReuse_updateReplayWindow hnear]
    exact ReuseWindow.isReuse_mark_mono _ _ _ h
  · rwa [updateReplayWindow_of_far (Nat.not_lt.mp hnear)]

/-- The request window never accepts a marked sequence again. -/
def oneShot : History.OneShot ReplayWindow OscoreSeqNum where
  rejects w seq := w.isReplay seq = true
  mark := updateReplayWindow
  rejects_mark := isReplay_update_self
  rejects_mono := isReplay_update_mono

end ReplayWindow

end Oscore
