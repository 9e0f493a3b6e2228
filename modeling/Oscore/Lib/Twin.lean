/-
Two runs side by side.  Outcomes, calls and runs that fail alike and leave the
same state, with related values where they return.
-/
import Oscore.Lib.History
import Oscore.Lib.Rust
import Mathlib.Data.List.Forall2

namespace Twin

open Rust

variable {ε σ α β γ δ : Type}

/-! Outcomes. -/

/-- One failure of both, or related values. -/
inductive Alike (related : α → β → Prop) : Except ε α → Except ε β → Prop where
  | ok {a : α} {b : β} (h : related a b) : Alike related (.ok a) (.ok b)
  | error (e : ε) : Alike related (.error e) (.error e)

namespace Alike

theorem same (x : Except ε α) : Alike (· = ·) x x := by
  cases x with
  | ok a => exact .ok rfl
  | error e => exact .error e

theorem bind {related : α → β → Prop} {related' : γ → δ → Prop}
    {x : Except ε α} {y : Except ε β} {f : α → Except ε γ} {g : β → Except ε δ}
    (h : Alike related x y)
    (hnext : ∀ a b, related a b → Alike related' (f a) (g b)) :
    Alike related' (x >>= f) (y >>= g) := by
  cases h with
  | ok hab => exact hnext _ _ hab
  | error e => exact .error e

theorem okOr {related : α → β → Prop} {x : Option α} {y : Option β}
    (h : Option.Rel related x y) (error : ε) :
    Alike related (okOr x error) (okOr y error) := by
  cases h with
  | some hab => exact .ok hab
  | none => exact .error _

end Alike

/-! Calls from the same state. -/

/-- One failure of both, or related values, in the same state. -/
inductive Results (related : α → β → Prop) :
    EStateM.Result ε σ α → EStateM.Result ε σ β → Prop where
  | ok {a : α} {b : β} (h : related a b) (s : σ) :
      Results related (.ok a s) (.ok b s)
  | error (e : ε) (s : σ) : Results related (.error e s) (.error e s)

/-- The two calls behave alike from every state. -/
def Calls (related : α → β → Prop) (x : EStateM ε σ α) (y : EStateM ε σ β) :
    Prop :=
  ∀ s, Results related (x.run s) (y.run s)

namespace Calls

theorem same (x : EStateM ε σ α) : Calls (· = ·) x x := by
  intro s
  cases x.run s with
  | ok a t => exact .ok rfl t
  | error e t => exact .error e t

theorem pure {related : α → β → Prop} {a : α} {b : β} (h : related a b) :
    Calls (ε := ε) (σ := σ) related (pure a) (pure b) := fun s => .ok h s

theorem bind {related : α → β → Prop} {related' : γ → δ → Prop}
    {x : EStateM ε σ α} {y : EStateM ε σ β} {f : α → EStateM ε σ γ}
    {g : β → EStateM ε σ δ} (h : Calls related x y)
    (hnext : ∀ a b, related a b → Calls related' (f a) (g b)) :
    Calls related' (x >>= f) (y >>= g) := by
  intro s
  have hs := h s
  rw [EStateM.run_bind, EStateM.run_bind]
  revert hs
  generalize x.run s = result, y.run s = result'
  intro hs
  cases hs with
  | ok hab t => exact hnext _ _ hab t
  | error e t => exact .error e t

theorem check {related : α → β → Prop} {x : Outcome ε α} {y : Outcome ε β}
    (h : Alike related x y) :
    Calls (σ := σ) related (Call.check x) (Call.check y) := by
  cases h with
  | ok hab => exact pure hab
  | error e => exact fun s => .error e s

end Calls

/-! Runs. -/

/-- Steps that keep a relation between two states keep it over runs. -/
theorem run_related {S O : Type} {step : S → O → S} {related : S → S → Prop}
    {alike : O → O → Prop}
    (hstep : ∀ s t op op', related s t → alike op op' →
      related (step s op) (step t op'))
    {ops ops' : List O} (hops : List.Forall₂ alike ops ops') {s t : S}
    (h : related s t) :
    related (History.run step s ops) (History.run step t ops') := by
  induction hops generalizing s t with
  | nil => exact h
  | cons hop _ ih => exact ih (hstep _ _ _ _ h hop)

end Twin
