/-
Sliding windows against the plain set model.  A window keeps the highest marked
number and one bit for each of the `width` numbers that end at it; it stands for
the set of all the numbers that were marked.
-/
import Mathlib.Data.List.Basic
import Mathlib.Tactic

namespace SlidingWindow

/-- The highest number of a list, 0 for the empty one. -/
def highest (marked : List Nat) : Nat :=
  marked.foldr max 0

/-- The plain set model: what was marked is refused, and so is everything that
lies `width` or more below the highest marked number. -/
def Refuses (width : Nat) (marked : List Nat) (s : Nat) : Prop :=
  marked ≠ [] ∧ (s ∈ marked ∨ s + width ≤ highest marked)

/-- Bit `i` of the window tells whether `top - i` was marked. -/
structure Represents (width top : Nat) (bit : Nat → Bool)
    (marked : List Nat) : Prop where
  top_mem : top ∈ marked
  le_top : ∀ m ∈ marked, m ≤ top
  bit_iff : ∀ i, i < width → (bit i = true ↔ ∃ m ∈ marked, m + i = top)

theorem highest_eq {marked : List Nat} {top : Nat} (hmem : top ∈ marked)
    (hle : ∀ m ∈ marked, m ≤ top) : highest marked = top := by
  unfold highest
  apply le_antisymm
  · clear hmem
    induction marked with
    | nil => exact Nat.zero_le top
    | cons m marked ih =>
        have hm := hle m List.mem_cons_self
        have hrest := ih fun n hn => hle n (List.mem_cons_of_mem m hn)
        exact max_le hm hrest
  · clear hle
    induction marked with
    | nil => exact absurd hmem List.not_mem_nil
    | cons m marked ih =>
        rcases List.mem_cons.mp hmem with hm | hm
        · exact le_of_eq_of_le hm (le_max_left m _)
        · exact le_trans (ih hm) (le_max_right m _)

/-- What the plain set model lets through: a number that is new and less than
`width` behind every marked one. -/
def Passes (width : Nat) (marked : List Nat) (s : Nat) : Prop :=
  s ∉ marked ∧ ∀ m ∈ marked, m < s + width

theorem highest_lt_iff {marked : List Nat} {bound : Nat} (h : 0 < bound) :
    highest marked < bound ↔ ∀ m ∈ marked, m < bound := by
  unfold highest
  induction marked with
  | nil => simpa using h
  | cons m marked ih =>
      rw [List.foldr_cons, max_lt_iff, ih, List.forall_mem_cons]

theorem passes_iff_not_refuses {width : Nat} (hwidth : 0 < width)
    {marked : List Nat} {s : Nat} :
    Passes width marked s ↔ ¬ Refuses width marked s := by
  have hhighest := @highest_lt_iff marked (s + width) (by omega)
  rw [Passes, Refuses, ← hhighest]
  constructor
  · rintro ⟨hnew, hnear⟩ ⟨-, hold | hfar⟩
    · exact hnew hold
    · omega
  · intro h
    rw [not_and_or, not_not, not_or, not_le] at h
    rcases h with rfl | ⟨hnew, hnear⟩
    · exact ⟨List.not_mem_nil, by simp [highest]; omega⟩
    · exact ⟨hnew, hnear⟩

theorem mem_snoc {marked : List Nat} {s m : Nat} :
    m ∈ marked ++ [s] ↔ m ∈ marked ∨ m = s := by
  simp

namespace Represents

variable {width top s : Nat} {bit bit' : Nat → Bool} {marked : List Nat}

/-- The verdict of a window is that of the set it stands for. -/
theorem refuses_iff (h : Represents width top bit marked) (s : Nat) :
    Refuses width marked s ↔
      s ≤ top ∧ (width ≤ top - s ∨ bit (top - s) = true) := by
  have hne : marked ≠ [] := List.ne_nil_of_mem h.top_mem
  rw [Refuses, highest_eq h.top_mem h.le_top]
  constructor
  · rintro ⟨-, hmem | hfar⟩
    · have hle := h.le_top s hmem
      refine ⟨hle, ?_⟩
      by_cases hwide : width ≤ top - s
      · exact Or.inl hwide
      · right
        rw [h.bit_iff _ (Nat.not_le.mp hwide)]
        exact ⟨s, hmem, by omega⟩
    · exact ⟨by omega, Or.inl (by omega)⟩
  · rintro ⟨hle, hverdict⟩
    refine ⟨hne, ?_⟩
    by_cases hwide : width ≤ top - s
    · right
      omega
    · left
      have hbit := hverdict.resolve_left hwide
      rw [h.bit_iff _ (Nat.not_le.mp hwide)] at hbit
      obtain ⟨m, hm, hsum⟩ := hbit
      have hms : m = s := by omega
      exact hms ▸ hm

/-- The first mark. -/
theorem first (hbit : ∀ i, i < width → bit i = decide (i = 0)) :
    Represents width s bit [s] where
  top_mem := List.mem_singleton_self s
  le_top m hm := le_of_eq (List.mem_singleton.mp hm)
  bit_iff := by
    intro i hi
    rw [hbit i hi]
    simp

/-- A mark above the top moves the window up. -/
theorem advance (h : Represents width top bit marked) (hgt : top < s)
    (hbit : ∀ i, i < width → bit' i =
      (decide (i = 0) || (decide (s - top ≤ i) && bit (i - (s - top))))) :
    Represents width s bit' (marked ++ [s]) where
  top_mem := mem_snoc.mpr (Or.inr rfl)
  le_top := by
    intro m hm
    rcases mem_snoc.mp hm with hm | hm
    · exact le_trans (h.le_top m hm) hgt.le
    · exact le_of_eq hm
  bit_iff := by
    intro i hi
    rw [hbit i hi]
    simp only [Bool.or_eq_true, Bool.and_eq_true, decide_eq_true_eq]
    constructor
    · rintro (hzero | ⟨hle, hold⟩)
      · exact ⟨s, mem_snoc.mpr (Or.inr rfl), by omega⟩
      · rw [h.bit_iff _ (by omega)] at hold
        obtain ⟨m, hm, hsum⟩ := hold
        exact ⟨m, mem_snoc.mpr (Or.inl hm), by omega⟩
    · rintro ⟨m, hm, hsum⟩
      rcases mem_snoc.mp hm with hm | hm
      · right
        have hle := h.le_top m hm
        refine ⟨by omega, ?_⟩
        rw [h.bit_iff _ (by omega)]
        exact ⟨m, hm, by omega⟩
      · left
        omega

/-- A mark inside the window sets its bit. -/
theorem within (h : Represents width top bit marked) (hle : s ≤ top)
    (hbit : ∀ i, i < width → bit' i = (bit i || decide (top - s = i))) :
    Represents width top bit' (marked ++ [s]) where
  top_mem := mem_snoc.mpr (Or.inl h.top_mem)
  le_top := by
    intro m hm
    rcases mem_snoc.mp hm with hm | hm
    · exact h.le_top m hm
    · exact hm ▸ hle
  bit_iff := by
    intro i hi
    rw [hbit i hi]
    simp only [Bool.or_eq_true, decide_eq_true_eq, h.bit_iff i hi]
    constructor
    · rintro (⟨m, hm, hsum⟩ | hdiff)
      · exact ⟨m, mem_snoc.mpr (Or.inl hm), hsum⟩
      · exact ⟨s, mem_snoc.mpr (Or.inr rfl), by omega⟩
    · rintro ⟨m, hm, hsum⟩
      rcases mem_snoc.mp hm with hm | hm
      · left
        exact ⟨m, hm, hsum⟩
      · right
        omega

end Represents

end SlidingWindow
