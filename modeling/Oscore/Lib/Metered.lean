/-
Runs that draw on budgets.  Where an operation succeeds exactly if each budget
covers its charge, a list of operations succeeds exactly if each budget covers
the sum of its charges.
-/
import Mathlib.Tactic

namespace Metered

variable {S O A ι : Type}

/-- What the operations take from a budget. -/
def total (charge : O → ι → Nat) (ops : List O) (i : ι) : Nat :=
  (ops.map fun op => charge op i).sum

@[simp]
theorem total_nil (charge : O → ι → Nat) (i : ι) : total charge [] i = 0 := rfl

@[simp]
theorem total_cons (charge : O → ι → Nat) (op : O) (ops : List O) (i : ι) :
    total charge (op :: ops) i = charge op i + total charge ops i := rfl

/-- The action is charged to the budgets of the state: within the limit it
returns `out` and the invariant of the operations after it, else it fails. -/
structure Charged (limit : Nat) (used : S → ι → Nat) (charge : ι → Nat)
    (out : A) (before after : S → Prop) (action : StateT S Option A) :
    Prop where
  enough : ∀ s, before s → (∀ i, used s i + charge i ≤ limit) →
    ∃ t, action.run s = some (out, t) ∧ after t ∧
      ∀ i, used t i = used s i + charge i
  short : ∀ s, before s → ¬ (∀ i, used s i + charge i ≤ limit) →
    action.run s = none

variable {limit : Nat} {used : S → ι → Nat}

theorem Charged.mono {charge : ι → Nat} {out : A}
    {before before' after after' : S → Prop} {action : StateT S Option A}
    (h : Charged limit used charge out before after action)
    (hbefore : ∀ s, before' s → before s) (hafter : ∀ s, after s → after' s) :
    Charged limit used charge out before' after' action where
  enough s hs hfits := by
    obtain ⟨t, hrun, ht, hused⟩ := h.enough s (hbefore s hs) hfits
    exact ⟨t, hrun, hafter t ht, hused⟩
  short s hs := h.short s (hbefore s hs)

/-- One action after another, where the second may depend on the result. -/
theorem Charged.bind {B : Type} {charge charge' : ι → Nat} {out : A} {out' : B}
    {before between after : S → Prop} {action : StateT S Option A}
    {next : A → StateT S Option B}
    (h : Charged limit used charge out before between action)
    (h' : Charged limit used charge' out' between after (next out)) :
    Charged limit used (fun i => charge i + charge' i) out' before after
      (action >>= next) where
  enough s hs hfits := by
    obtain ⟨t, hrun, ht, hused⟩ := h.enough s hs fun i => by
      have := hfits i
      omega
    obtain ⟨u, hrun', hu, hused'⟩ := h'.enough t ht fun i => by
      have := hfits i
      rw [hused i]
      omega
    refine ⟨u, ?_, hu, fun i => ?_⟩
    · simp only [StateT.run_bind, hrun, Option.bind_eq_bind, Option.bind_some,
        hrun']
    · rw [hused' i, hused i, Nat.add_assoc]
  short s hs hfits := by
    by_cases hfirst : ∀ i, used s i + charge i ≤ limit
    · obtain ⟨t, hrun, ht, hused⟩ := h.enough s hs hfirst
      have hshort := h'.short t ht fun hrest => hfits fun i => by
        have := hrest i
        rw [hused i] at this
        omega
      simp only [StateT.run_bind, hrun, Option.bind_eq_bind, Option.bind_some,
        hshort]
    · simp only [StateT.run_bind, h.short s hs hfirst, Option.bind_eq_bind,
        Option.bind_none]

theorem Charged.map {B : Type} {charge : ι → Nat} {out : A}
    {before after : S → Prop} {action : StateT S Option A}
    (h : Charged limit used charge out before after action) (f : A → B) :
    Charged limit used charge (f out) before after (f <$> action) where
  enough s hs hfits := by
    obtain ⟨t, hrun, ht⟩ := h.enough s hs hfits
    refine ⟨t, ?_, ht⟩
    simp only [StateT.run_map, hrun, Option.map_eq_map, Option.map_some]
  short s hs hfits := by
    simp only [StateT.run_map, h.short s hs hfits, Option.map_eq_map,
      Option.map_none]

/-- An action that takes nothing, where the invariant keeps the budgets within
their limit. -/
theorem charged_of_free {charge : ι → Nat} {out : A} {before after : S → Prop}
    {action : StateT S Option A} (hfree : ∀ i, charge i = 0)
    (hlimit : ∀ s, before s → ∀ i, used s i ≤ limit)
    (h : ∀ s, before s → ∃ t, action.run s = some (out, t) ∧ after t ∧
      used t = used s) :
    Charged limit used charge out before after action where
  enough s hs _ := by
    obtain ⟨t, hrun, ht, hused⟩ := h s hs
    exact ⟨t, hrun, ht, fun i => by rw [hused, hfree, Nat.add_zero]⟩
  short s hs hfits :=
    absurd (fun i => (hfree i).symm ▸ hlimit s hs i) hfits

/-- An action whose result depends on the state that it starts in. -/
theorem charged_of_each {charge : ι → Nat} {out : A} {before after : S → Prop}
    {action : StateT S Option A}
    (h : ∀ s, before s → Charged limit used charge out (· = s) after action) :
    Charged limit used charge out before after action where
  enough s hs := (h s hs).enough s rfl
  short s hs := (h s hs).short s rfl

/-- The operations of a list, one after another. -/
theorem charged_mapM {charge : O → ι → Nat} {out : O → A}
    {inv : List O → S → Prop} {action : O → StateT S Option A}
    (hlimit : ∀ s, inv [] s → ∀ i, used s i ≤ limit)
    (h : ∀ op ops, Charged limit used (charge op) (out op) (inv (op :: ops))
      (inv ops) (action op)) (ops : List O) :
    Charged limit used (total charge ops) (ops.map out) (inv ops) (inv [])
      (ops.mapM action) := by
  induction ops with
  | nil =>
      rw [List.mapM_nil]
      exact charged_of_free (fun _ => rfl) hlimit fun s hs => ⟨s, rfl, hs, rfl⟩
  | cons op ops ih =>
      rw [List.mapM_cons, List.map_cons]
      have hrest := ih.map (out op :: ·)
      rw [map_eq_bind_pure_comp] at hrest
      exact (h op ops).bind hrest

/-- The outputs of a charged action tell whether the budgets cover it. -/
theorem Charged.map_fst {charge : ι → Nat} {out : A}
    {before after : S → Prop} {action : StateT S Option A}
    (h : Charged limit used charge out before after action) {s : S}
    (hs : before s) {covered : Prop} [Decidable covered]
    (hcovered : covered ↔ ∀ i, used s i + charge i ≤ limit) :
    (action.run s).map Prod.fst = if covered then some out else none := by
  by_cases hfits : covered
  · obtain ⟨t, hrun, -⟩ := h.enough s hs (hcovered.mp hfits)
    rw [if_pos hfits, hrun, Option.map_some]
  · rw [if_neg hfits, h.short s hs (hfits ∘ hcovered.mpr), Option.map_none]

end Metered
