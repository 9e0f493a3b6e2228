/-
Parsers that read no further than what they consume.  The result of such a
parser stays the same when the bytes behind it change.
-/
import Oscore.Lib.Triple

namespace Rust

variable {ε α β : Type}

/-- The inputs have `n` bytes in common. -/
structure SameTo (n : Nat) (data data' : Bytes) : Prop where
  le_left : n ≤ data.length
  le_right : n ≤ data'.length
  take_eq : data.take n = data'.take n

namespace SameTo

variable {n m : Nat} {data data' : Bytes}

theorem symm (h : SameTo n data data') : SameTo n data' data :=
  ⟨h.le_right, h.le_left, h.take_eq.symm⟩

theorem mono (h : SameTo n data data') (hle : m ≤ n) :
    SameTo m data data' where
  le_left := Nat.le_trans hle h.le_left
  le_right := Nat.le_trans hle h.le_right
  take_eq := by
    have htake := congrArg (List.take m) h.take_eq
    rwa [List.take_take, List.take_take, Nat.min_eq_left hle] at htake

theorem getElem? (h : SameTo n data data') {i : Nat} (hi : i < n) :
    data'[i]? = data[i]? := by
  rw [← List.getElem?_take_of_lt hi, ← h.take_eq,
    List.getElem?_take_of_lt hi]

theorem drop (h : SameTo (m + n) data data') :
    SameTo n (data.drop m) (data'.drop m) where
  le_left := by
    have hle := h.le_left
    rw [List.length_drop]
    omega
  le_right := by
    have hle := h.le_right
    rw [List.length_drop]
    omega
  take_eq := by
    have hdrop := congrArg (List.drop m) h.take_eq
    rwa [List.drop_take, List.drop_take, Nat.add_sub_cancel_left] at hdrop

/-- Everything behind the first bytes may be replaced. -/
theorem append (hle : n ≤ data.length) (rest : Bytes) :
    SameTo n data (data.take n ++ rest) where
  le_left := hle
  le_right := by
    rw [List.length_append, List.length_take_of_le hle]
    exact Nat.le_add_right n _
  take_eq := (List.take_left' (List.length_take_of_le hle)).symm

end SameTo

/-- Whatever `x` returns has the property. -/
def Returns (x : Outcome ε α) (post : α → Prop) : Prop :=
  ∀ a, x = .ok a → post a

namespace Returns

variable {x y : Outcome ε α} {post : α → Prop}

theorem pure {a : α} (h : post a) : Returns (.ok a : Outcome ε α) post := by
  intro b hb
  cases hb
  exact h

theorem throw (fault : Fault ε) : Returns (.error fault) post :=
  fun _ h => nomatch h

theorem ite {cond : Prop} [Decidable cond] (hthen : cond → Returns x post)
    (helse : ¬ cond → Returns y post) :
    Returns (if cond then x else y) post := by
  by_cases h : cond
  · rw [if_pos h]
    exact hthen h
  · rw [if_neg h]
    exact helse h

/-- The last part decides what is returned. -/
theorem bind {x : Outcome ε β} {f : β → Outcome ε α}
    (hf : ∀ b, Returns (f b) post) : Returns (x >>= f) post := by
  intro a ha
  obtain ⟨b, -, hab⟩ := Outcome.bind_eq_ok.mp ha
  exact hf b a hab

end Returns

/-- What `x` returns, if it is good, `y` returns too. -/
def Carries (good : α → Prop) (x y : Outcome ε α) : Prop :=
  ∀ a, x = .ok a → good a → y = .ok a

namespace Carries

variable {good : α → Prop} {x y x' y' : Outcome ε α}

theorem refl (x : Outcome ε α) : Carries good x x :=
  fun _ hx _ => hx

theorem ite {cond : Prop} [Decidable cond] (hthen : cond → Carries good x y)
    (helse : ¬ cond → Carries good x' y') :
    Carries good (if cond then x else x') (if cond then y else y') := by
  by_cases h : cond
  · rw [if_pos h, if_pos h]
    exact hthen h
  · rw [if_neg h, if_neg h]
    exact helse h

/-- The first part returns the same on both sides; the rest may use what the
whole returns to show it. -/
theorem bind {x y : Outcome ε β} {f g : β → Outcome ε α}
    (hx : ∀ b a, x = .ok b → f b = .ok a → good a → y = .ok b)
    (hf : ∀ b, x = .ok b → Carries good (f b) (g b)) :
    Carries good (x >>= f) (y >>= g) := by
  intro a ha hgood
  obtain ⟨b, hb, hab⟩ := Outcome.bind_eq_ok.mp ha
  exact Outcome.bind_eq_ok.mpr ⟨b, hx b a hb hab hgood, hf b hb a hab hgood⟩

/-- A first part that is the same on both sides. -/
theorem bind_same (x : Outcome ε β) {f g : β → Outcome ε α}
    (hf : ∀ b, x = .ok b → Carries good (f b) (g b)) :
    Carries good (x >>= f) (x >>= g) :=
  bind (fun _ _ hb _ _ => hb) hf

end Carries

/-- The result of a parser is settled by the bytes it consumes. -/
def Local (size : α → Nat) (p : Bytes → Outcome ε α) : Prop :=
  ∀ data data', Carries (fun a => SameTo (size a) data data') (p data) (p data')

namespace Local

variable {size : α → Nat} {data data' : Bytes} {offset : Nat}

/-- A slice that the result reaches over. -/
theorem carries_sliceFrom (size : α → Nat) {f g : Bytes → Outcome ε α}
    (hover : ∀ rest, Returns (f rest) fun a => offset ≤ size a)
    (hf : Carries (fun a => SameTo (size a) data data') (f (data.drop offset))
      (g (data'.drop offset))) :
    Carries (fun a => SameTo (size a) data data') (sliceFrom data offset >>= f)
      (sliceFrom data' offset >>= g) := by
  intro a ha hsame
  obtain ⟨rest, hrest, hread⟩ := Outcome.bind_eq_ok.mp ha
  have hle := hover rest a hread
  have hslice : (sliceFrom data offset : Outcome ε Bytes) =
      .ok (data.drop offset) :=
    sliceFrom_of_le (Nat.le_trans hle hsame.le_left)
  have hslice' : (sliceFrom data' offset : Outcome ε Bytes) =
      .ok (data'.drop offset) :=
    sliceFrom_of_le (Nat.le_trans hle hsame.le_right)
  rw [hslice, Outcome.ok_bind] at ha
  rw [hslice', Outcome.ok_bind]
  exact hf a ha hsame

/-- An item read by a local parser, which the result reaches over. -/
theorem carries_item {size' : β → Nat} {q : Bytes → Outcome ε β}
    (hq : Local size' q) {f g : β → Outcome ε α}
    (hover : ∀ b, Returns (f b) fun a => offset + size' b ≤ size a)
    (hf : ∀ b, Carries (fun a => SameTo (size a) data data') (f b) (g b)) :
    Carries (fun a => SameTo (size a) data data')
      (q (data.drop offset) >>= f) (q (data'.drop offset) >>= g) := by
  apply Carries.bind
  · intro b a hb ha hsame
    exact hq _ _ b hb (hsame.mono (hover b a ha)).drop
  · exact fun b _ => hf b

end Local

/-- A local parser reads the same whatever follows. -/
theorem Local.append {size : α → Nat} {p : Bytes → Outcome ε α}
    (h : Local size p) {data : Bytes} {a : α} (hp : p data = .ok a)
    (hle : size a ≤ data.length) (rest : Bytes) :
    p (data.take (size a) ++ rest) = .ok a :=
  h data _ a hp (SameTo.append hle rest)

end Rust
