/-
What the choice of the first readable suite means for the responder: it answers
a message 1 that selects another suite, on a list whose first element no byte
holds.
-/
import Oscore.Edhoc.Operation
import Oscore.Edhoc.Suites

namespace Oscore.Edhoc

open Rust Rust.Call

/-- SUITES_I is an integer of this value, or an array that such an integer
starts. -/
def FirstElement (data : Bytes) (value : Int) : Prop :=
  ∃ item rest, Cbor.int? item = some value ∧
    (data = item ++ rest ∨
      ∃ head count, Cbor.ArrayHead head (count + 1) ∧
        data = head ++ (item ++ rest))

theorem FirstElement.unique {data : Bytes} {value other : Int}
    (h : FirstElement data value) (h' : FirstElement data other) :
    value = other := by
  obtain ⟨item, rest, hint, hdata⟩ := h
  obtain ⟨item', rest', hint', hdata'⟩ := h'
  have hsome : (Cbor.int? item).isSome = true := by simp [hint]
  have hsome' : (Cbor.int? item').isSome = true := by simp [hint']
  have hsplit : ∃ s t, item ++ s = item' ++ t := by
    rcases hdata with hdata | ⟨head, count, hhead, hdata⟩ <;>
    rcases hdata' with hdata' | ⟨head', count', hhead', hdata'⟩ <;>
    have heq := hdata.symm.trans hdata'
    · exact ⟨rest, rest', heq⟩
    · exact absurd heq.symm (hhead'.ne_int hsome)
    · exact absurd heq (hhead.ne_int hsome')
    · exact ⟨rest, rest', (hhead.delimits hhead' heq).2.2⟩
  obtain ⟨s, t, heq⟩ := hsplit
  obtain ⟨rfl, -⟩ := Cbor.int?_delimits item hsome item' hsome' s t heq
  exact Option.some.inj (hint.symm.trans hint')

theorem FirstSuite.firstElement {data : Bytes} {suite : UInt8} {n : Nat}
    (h : FirstSuite data suite n) : FirstElement data suite.toNat := by
  obtain ⟨-, hint | ⟨head, first, items, hhead, htake, hint, -⟩⟩ := h
  · exact ⟨data.take n, data.drop n, hint,
      .inl (List.take_append_drop n data).symm⟩
  · refine ⟨first, items.flatten ++ data.drop n, hint,
      .inr ⟨head, items.length, hhead.arrayHead, ?_⟩⟩
    rw [← List.append_assoc first, ← List.append_assoc head, ← htake,
      List.take_append_drop]

/-- The parser accepted the list behind the method, for suite 0. -/
def Selected (msg1 : Bytes) : Prop :=
  ∃ n, parseSuitesI (msg1.drop 1) = .ok (suite0, n)

theorem selected_of_parseGX {msg1 : Bytes} {gX : Bytes32} {start : Nat}
    (h : parseGX msg1 = .ok (gX, start)) : Selected msg1 := by
  simp only [parseGX, Outcome.bind_eq_ok, failIf_eq_ok, exists_const,
    Prod.exists] at h
  obtain ⟨hlen, _, -, -, rest, hrest, suite, n, hparse, hsuite, -⟩ := h
  rw [sliceFrom_of_le (by omega)] at hrest
  cases hrest
  rw [not_not.mp hsuite] at hparse
  exact ⟨n, hparse⟩

namespace EdhocResponder

variable {X : Suite}

/-- The call returns a message 2, or spends the ephemeral secret. -/
def Proceeds (X : Suite) (responder : EdhocResponder) (msg1 : Bytes) : Prop :=
  (∃ msg2, outcome (processMessage1 X msg1) responder = .ok msg2) ∨
    (after (processMessage1 X msg1) responder).agreements ≠
      responder.agreements

theorem processMessage1_selects (self : EdhocResponder) (msg1 : Bytes) :
    (processMessage1 X msg1).Meets self (fun _ _ => Selected msg1)
      (fun t => t.agreements = self.agreements ∨ Selected msg1) := by
  refine Meets.get_bind (Meets.failIf_bind (.inl rfl) fun _ => ?_)
  refine Meets.check_bind (extendErr_meets _ _) (.inl rfl) fun _ _ => ?_
  refine Meets.check_bind (parseGX_meets msg1).returned (.inl rfl) ?_
  rintro ⟨gX, start⟩ ⟨hgX, hstart⟩
  have hselected := selected_of_parseGX hgX
  refine Meets.modify_bind ?_
  refine Meets.check_bind (sliceFrom_meets msg1 hstart) (.inl rfl) ?_
  intro rest _
  refine Meets.check_bind (parseCI_meets rest) (.inl rfl) fun cI _ => ?_
  refine Meets.ite (fun _ => ?_) fun _ => ?_
  · exact Meets.modify_bind (Meets.throw _ (.inl rfl))
  refine Meets.check_bind (.okOr _ _) (.inl rfl) fun _ _ => ?_
  refine Meets.modify_bind ?_
  exact Meets.onErr ((createMessage2_meets _ _ _).mono
    (fun _ _ _ => hselected) fun _ h => h) fun _ _ => .inr hselected

theorem Proceeds.selected {self : EdhocResponder} {msg1 : Bytes}
    (h : self.Proceeds X msg1) : Selected msg1 := by
  rcases (processMessage1_selects (X := X) self msg1).ends with
    ⟨_, -, -, hselected⟩ | ⟨_, herror, hagreements | hselected⟩
  · exact hselected
  · rcases h with ⟨_, hok⟩ | hne
    · rw [hok] at herror
      cases herror
    · exact absurd hagreements hne
  · exact hselected

end EdhocResponder

/-- The law of the selected suite, on one input of the parser. -/
structure SelectsFirst (data : Bytes) : Prop where
  parse : ∀ suite n, parseSuitesI data = .ok (suite, n) →
    FirstSuite data suite n
  reject : ∀ value, FirstElement data value → value < 0 ∨ 255 < value →
    ∀ result, parseSuitesI data ≠ .ok result
  proceed : ∀ (X : Suite) (responder : EdhocResponder) (msg1 : Bytes),
    msg1.drop 1 = data → responder.Proceeds X msg1 →
      ∃ n, FirstSuite data suite0 n

/-- The parser returns the first suite exactly on the inputs that it does not
misread: a list whose first element no byte holds, with another value than the
first one behind it that a byte does hold. -/
theorem selectsFirst_iff (data : Bytes) :
    SelectsFirst data ↔ ¬ Misread data := by
  rw [← parseSuitesI_first_iff]
  constructor
  · exact fun h => h.parse
  · intro hfirst
    refine ⟨hfirst, ?_, ?_⟩
    · rintro value hvalue hrange ⟨suite, n⟩ hparse
      have heq := hvalue.unique (hfirst suite n hparse).firstElement
      have hlt := suite.toNat_lt
      omega
    · rintro X responder msg1 rfl hproceeds
      obtain ⟨n, hparse⟩ := hproceeds.selected
      exact ⟨n, hfirst suite0 n hparse⟩

/-- Behind a negative first element the parser selects suite 0, and the
responder answers such a message 1. -/
theorem negative_first_element_selects :
    let msg1 : Bytes := [0, 0x82, 0x20, 0x00, 0x58, 32] ++
      List.replicate 32 7 ++ [0x05]
    parseSuitesI (msg1.drop 1) = .ok (suite0, 3) ∧
      FirstElement (msg1.drop 1) (-1) ∧
      standInParties.2.Proceeds .standIn msg1 ∧
      ¬ SelectsFirst (msg1.drop 1) := by
  intro msg1
  have hparse : parseSuitesI (msg1.drop 1) = .ok (suite0, 3) := by
    decide +kernel
  have hhead : Cbor.IsArrayHead [0x82] 2 := .inl ⟨by decide, 0x82, rfl, rfl⟩
  have hfirst : FirstElement (msg1.drop 1) (-1) :=
    ⟨[0x20], msg1.drop 3, rfl, .inr ⟨[0x82], 1, hhead.arrayHead, rfl⟩⟩
  refine ⟨hparse, hfirst, ?_, fun h => ?_⟩
  · exact .inl (Outcome.exists_ok_iff.mpr (by decide +kernel))
  · exact h.reject (-1) hfirst (.inl (by decide)) _ hparse

end Oscore.Edhoc
