/-
Self-delimiting encodings: where a value's encoding is followed by anything,
the whole determines the value and what follows.  Concatenations of such
encodings are injective, which is what hashing and authenticating them needs.
-/
import Mathlib.Data.List.Basic

namespace Prefix

universe u v w

variable {α : Type u} {β : Type v} {γ : Type w}

/-- On the values in `dom`, the encoding can be told apart from what follows. -/
def Delimits (dom : α → Prop) (encode : α → List β) : Prop :=
  ∀ a, dom a → ∀ b, dom b → ∀ s t,
    encode a ++ s = encode b ++ t → a = b ∧ s = t

namespace Delimits

variable {dom : α → Prop} {encode : α → List β}

/-- Self-delimiting encodings are injective. -/
theorem injective (h : Delimits dom encode) {a b : α} (ha : dom a)
    (hb : dom b) (heq : encode a = encode b) : a = b :=
  (h a ha b hb [] [] (congrArg (· ++ []) heq)).1

theorem mono {dom' : α → Prop} (h : Delimits dom encode)
    (hle : ∀ a, dom' a → dom a) : Delimits dom' encode :=
  fun a ha b hb => h a (hle a ha) b (hle b hb)

/-- What can be read from the front, whatever follows, delimits itself. -/
theorem ofRead {read : List β → Option (α × List β)}
    (h : ∀ a, dom a → ∀ rest, read (encode a ++ rest) = some (a, rest)) :
    Delimits dom encode := by
  intro a ha b hb s t heq
  have hread := congrArg read heq
  rw [h a ha, h b hb] at hread
  exact Prod.mk.inj (Option.some.inj hread)

/-- A self-delimiting length in front of a string delimits the string. -/
theorem lengthPrefix {bound : Nat} {head : Nat → List β}
    (h : Delimits (· ≤ bound) head) :
    Delimits (fun xs : List β => xs.length ≤ bound)
      fun xs => head xs.length ++ xs := by
  intro a ha b hb s t heq
  rw [List.append_assoc, List.append_assoc] at heq
  obtain ⟨hlength, hrest⟩ := h _ ha _ hb _ _ heq
  exact List.append_inj hrest hlength

/-- Two self-delimiting fields in a row. -/
theorem pair {dom' : γ → Prop} {encode' : γ → List β}
    (h : Delimits dom encode) (h' : Delimits dom' encode') :
    Delimits (fun p : α × γ => dom p.1 ∧ dom' p.2)
      fun p => encode p.1 ++ encode' p.2 := by
  rintro ⟨a, c⟩ ⟨ha, hc⟩ ⟨b, d⟩ ⟨hb, hd⟩ s t heq
  simp only [List.append_assoc] at heq
  obtain ⟨rfl, hrest⟩ := h a ha b hb _ _ heq
  obtain ⟨rfl, rfl⟩ := h' c hc d hd _ _ hrest
  exact ⟨rfl, rfl⟩

end Delimits

end Prefix
