/-
The fragment of Rust's run-time behaviour that byte-handling code rests on:
early `Err` returns, panics, bounded buffers and calls that mutate `&mut self`.
A panic is an outcome of its own, so that absence of panics is a statement and
not a convention.
-/
import Mathlib.Data.List.Basic

namespace Rust

abbrev Bytes := List UInt8

/-- An array `[u8; n]`. -/
abbrev Block (n : Nat) := { bytes : Bytes // bytes.length = n }

/-- How a call can fail to return `Ok`: with an `Err` value, or by a panic. -/
inductive Fault (ε : Type) where
  | err (error : ε)
  | panic
deriving Repr, DecidableEq

instance exceptDecidableEq {ε α : Type} [DecidableEq ε] [DecidableEq α] :
    DecidableEq (Except ε α)
  | .ok a, .ok b => decidable_of_iff (a = b) (Except.ok.injEq a b ▸ Iff.rfl)
  | .error e, .error f =>
      decidable_of_iff (e = f) (Except.error.injEq e f ▸ Iff.rfl)
  | .ok _, .error _ => isFalse nofun
  | .error _, .ok _ => isFalse nofun

/-- The outcome of a pure function returning `Result<α, ε>`. -/
abbrev Outcome (ε α : Type) := Except (Fault ε) α

/-- A method on `&mut self` returning `Result<α, ε>`.  A failed call keeps the
writes it made before it failed. -/
abbrev Call (σ ε α : Type) := EStateM (Fault ε) σ α

/-- What holds of every number below 256 holds of every byte. -/
theorem forall_byte {p : UInt8 → Prop} (h : ∀ n : Fin 256, p (UInt8.ofNat n))
    (byte : UInt8) : p byte := by
  have hbyte := h ⟨byte.toNat, byte.toNat_lt⟩
  rwa [UInt8.ofNat_toNat] at hbyte

variable {ε σ α β : Type}

/-- `if cond { return Err(error) }` -/
def failIf (cond : Prop) [Decidable cond] (error : ε) : Outcome ε Unit :=
  if cond then .error (.err error) else .ok ()

/-- `option.ok_or(error)?` -/
def okOr (option : Option α) (error : ε) : Outcome ε α :=
  match option with
  | some value => .ok value
  | none => .error (.err error)

/-- `option.expect(..)`, and every bounds check the compiler inserts. -/
def expect (option : Option α) : Outcome ε α :=
  match option with
  | some value => .ok value
  | none => .error .panic

/-- `data[i]` -/
def index (data : Bytes) (i : Nat) : Outcome ε UInt8 :=
  expect data[i]?

/-- `&data[first..last]` -/
def slice (data : Bytes) (first last : Nat) : Outcome ε Bytes :=
  if first ≤ last ∧ last ≤ data.length then
    .ok ((data.take last).drop first)
  else
    .error .panic

/-- `&data[first..]` -/
def sliceFrom (data : Bytes) (first : Nat) : Outcome ε Bytes :=
  slice data first data.length

/-! Arithmetic with overflow checks. -/

/-- `a - b` on `u8` -/
def subByte (a b : UInt8) : Outcome ε UInt8 :=
  if b ≤ a then .ok (a - b) else .error .panic

/-- `a + b` on `u8` -/
def addByte (a b : UInt8) : Outcome ε UInt8 :=
  if a.toNat + b.toNat < 256 then .ok (a + b) else .error .panic

/-- `m - n` on the wider unsigned types -/
def sub (m n : Nat) : Outcome ε Nat :=
  if n ≤ m then .ok (m - n) else .error .panic

theorem subByte_of_le {a b : UInt8} (h : b ≤ a) :
    (subByte a b : Outcome ε UInt8) = .ok (a - b) := if_pos h

theorem addByte_of_lt {a b : UInt8} (h : a.toNat + b.toNat < 256) :
    (addByte a b : Outcome ε UInt8) = .ok (a + b) := if_pos h

theorem sub_of_le {m n : Nat} (h : n ≤ m) :
    (sub m n : Outcome ε Nat) = .ok (m - n) := if_pos h

namespace Outcome

theorem bind_eq_ok {x : Except ε α} {f : α → Except ε β} {b : β} :
    (x >>= f) = .ok b ↔ ∃ a, x = .ok a ∧ f a = .ok b := by
  cases x <;> simp [bind, Except.bind]

theorem bind_eq_error {x : Except ε α} {f : α → Except ε β} {e : ε} :
    (x >>= f) = .error e ↔
      x = .error e ∨ ∃ a, x = .ok a ∧ f a = .error e := by
  cases x <;> simp [bind, Except.bind]

@[simp]
theorem ok_bind (a : α) (f : α → Except ε β) :
    ((Except.ok a : Except ε α) >>= f) = f a := rfl

@[simp]
theorem error_bind (e : ε) (f : α → Except ε β) :
    ((Except.error e : Except ε α) >>= f) = .error e := rfl

@[simp]
theorem pure_eq_ok (a : α) : (pure a : Except ε α) = .ok a := rfl

@[simp]
theorem throw_eq_error (e : ε) : (throw e : Except ε α) = .error e := rfl

end Outcome

@[simp]
theorem failIf_eq_ok {cond : Prop} [Decidable cond] {error : ε} {u : Unit} :
    failIf cond error = .ok u ↔ ¬ cond := by
  by_cases h : cond <;> simp [failIf, h]

@[simp]
theorem failIf_eq_error {cond : Prop} [Decidable cond] {error : ε}
    {fault : Fault ε} :
    failIf cond error = .error fault ↔ cond ∧ fault = .err error := by
  by_cases h : cond <;> simp [failIf, h, eq_comm]

theorem failIf_of_not {cond : Prop} [Decidable cond] (error : ε)
    (h : ¬ cond) : failIf cond error = .ok () := by
  simp [h]

/-- Behind a check, that it did not fail may be assumed. -/
theorem failIf_bind_congr {cond : Prop} [Decidable cond] {error : ε}
    {f g : Unit → Outcome ε α} (h : ¬ cond → f () = g ()) :
    failIf cond error >>= f = failIf cond error >>= g := by
  by_cases hcond : cond
  · rw [failIf, if_pos hcond]
    rfl
  · rw [failIf_of_not _ hcond]
    exact h hcond

@[simp]
theorem okOr_eq_ok {option : Option α} {error : ε} {a : α} :
    okOr option error = .ok a ↔ option = some a := by
  cases option <;> simp [okOr]

@[simp]
theorem okOr_eq_error {option : Option α} {error : ε} {fault : Fault ε} :
    okOr option error = .error fault ↔ option = none ∧ fault = .err error := by
  cases option <;> simp [okOr, eq_comm]

@[simp]
theorem expect_eq_ok {option : Option α} {a : α} :
    (expect option : Outcome ε α) = .ok a ↔ option = some a := by
  cases option <;> simp [expect]

@[simp]
theorem expect_some (a : α) : (expect (some a) : Outcome ε α) = .ok a := rfl

@[simp]
theorem okOr_some (a : α) (error : ε) : okOr (some a) error = .ok a := rfl

@[simp]
theorem index_zero_cons (first : UInt8) (rest : Bytes) :
    (index (first :: rest) 0 : Outcome ε UInt8) = .ok first := rfl

@[simp]
theorem index_succ_cons (first : UInt8) (rest : Bytes) (i : Nat) :
    (index (first :: rest) (i + 1) : Outcome ε UInt8) = index rest i := rfl

theorem index_eq_ok {data : Bytes} {i : Nat} {b : UInt8} :
    (index data i : Outcome ε UInt8) = .ok b ↔ data[i]? = some b := by
  simp [index]

/-- Reading the first byte and the rest of a non-empty string. -/
theorem uncons_eq_ok {data rest : Bytes} {first : UInt8} :
    (index data 0 : Outcome ε UInt8) = .ok first ∧
        (sliceFrom data 1 : Outcome ε Bytes) = .ok rest ↔
      data = first :: rest := by
  cases data with
  | nil => simp [index]
  | cons byte bytes => simp [sliceFrom, slice]

theorem index_of_eq_cons {data rest : Bytes} {first : UInt8}
    (h : data = first :: rest) :
    (index data 0 : Outcome ε UInt8) = .ok first :=
  (uncons_eq_ok.mpr h).1

theorem sliceFrom_of_eq_cons {data rest : Bytes} {first : UInt8}
    (h : data = first :: rest) :
    (sliceFrom data 1 : Outcome ε Bytes) = .ok rest :=
  (uncons_eq_ok.mpr h).2

theorem slice_eq_ok {data : Bytes} {first last : Nat} {part : Bytes} :
    (slice data first last : Outcome ε Bytes) = .ok part ↔
      first ≤ last ∧ last ≤ data.length ∧
        part = (data.take last).drop first := by
  by_cases h : first ≤ last ∧ last ≤ data.length
  · simp [slice, h, eq_comm]
  · simp only [slice, h, ↓reduceIte, reduceCtorEq, false_iff]
    exact fun hpart => h ⟨hpart.1, hpart.2.1⟩

theorem slice_of_le {data : Bytes} {first last : Nat}
    (hfirst : first ≤ last) (hlast : last ≤ data.length) :
    (slice data first last : Outcome ε Bytes) =
      .ok ((data.take last).drop first) := by
  simp [slice, hfirst, hlast]

theorem sliceFrom_eq_ok {data rest : Bytes} {first : Nat} :
    (sliceFrom data first : Outcome ε Bytes) = .ok rest ↔
      first ≤ data.length ∧ rest = data.drop first := by
  rw [sliceFrom, slice_eq_ok, List.take_length]
  exact ⟨fun h => ⟨h.1, h.2.2⟩, fun h => ⟨h.1, Nat.le_refl _, h.2⟩⟩

theorem sliceFrom_of_le {data : Bytes} {first : Nat}
    (hfirst : first ≤ data.length) :
    (sliceFrom data first : Outcome ε Bytes) = .ok (data.drop first) := by
  simp [sliceFrom, slice, hfirst]

/-- The middle of a concatenation. -/
theorem slice_append (before part behind : Bytes) :
    (slice (before ++ (part ++ behind)) before.length
      (before.length + part.length) : Outcome ε Bytes) = .ok part := by
  rw [slice_of_le (Nat.le_add_right _ _) (by simp), List.drop_take,
    List.drop_left, Nat.add_sub_cancel_left, List.take_left]

theorem sliceFrom_append (before part : Bytes) :
    (sliceFrom (before ++ part) before.length : Outcome ε Bytes) =
      .ok part := by
  rw [sliceFrom_of_le (by simp), List.drop_left]

namespace Call

theorem bind_eq_ok {x : EStateM ε σ α} {f : α → EStateM ε σ β} {s t : σ}
    {b : β} :
    (x >>= f).run s = .ok b t ↔
      ∃ a u, x.run s = .ok a u ∧ (f a).run u = .ok b t := by
  rw [EStateM.run_bind]
  cases x.run s <;> simp

theorem bind_eq_error {x : EStateM ε σ α} {f : α → EStateM ε σ β} {s t : σ}
    {e : ε} :
    (x >>= f).run s = .error e t ↔
      x.run s = .error e t ∨
        ∃ a u, x.run s = .ok a u ∧ (f a).run u = .error e t := by
  rw [EStateM.run_bind]
  cases x.run s <;> simp

/-- A `Result` computed without the state and passed on with `?`. -/
def check (outcome : Outcome ε α) : Call σ ε α :=
  match outcome with
  | .ok value => pure value
  | .error fault => throw fault

@[simp]
theorem check_eq_ok {x : Outcome ε α} {s t : σ} {a : α} :
    (check x).run s = .ok a t ↔ x = .ok a ∧ t = s := by
  cases x with
  | ok value =>
      change EStateM.Result.ok value s = .ok a t ↔ _
      simp [eq_comm]
  | error fault =>
      change EStateM.Result.error fault s = .ok a t ↔ _
      simp

@[simp]
theorem check_eq_error {x : Outcome ε α} {s t : σ} {e : Fault ε} :
    (check x).run s = .error e t ↔ x = .error e ∧ t = s := by
  cases x with
  | ok value =>
      change EStateM.Result.ok value s = .error e t ↔ _
      simp
  | error fault =>
      change EStateM.Result.error fault s = .error e t ↔ _
      simp [eq_comm]

@[simp]
theorem run_check_ok (a : α) (s : σ) :
    (check (.ok a : Outcome ε α)).run s = .ok a s := rfl

@[simp]
theorem run_check_error (e : Fault ε) (s : σ) :
    (check (.error e : Outcome ε α)).run s = .error e s := rfl

@[simp]
theorem get_eq_ok {s t a : σ} :
    (get : Call σ ε σ).run s = .ok a t ↔ a = s ∧ t = s := by
  change EStateM.Result.ok s s = .ok a t ↔ _
  simp [eq_comm]

@[simp]
theorem modify_eq_ok {f : σ → σ} {s t : σ} {u : Unit} :
    (modify f : Call σ ε Unit).run s = .ok u t ↔ t = f s := by
  change EStateM.Result.ok () (f s) = .ok u t ↔ _
  simp [eq_comm]

@[simp]
theorem pure_run_eq_ok {a b : α} {s t : σ} :
    (pure a : Call σ ε α).run s = .ok b t ↔ b = a ∧ t = s := by
  change EStateM.Result.ok a s = .ok b t ↔ _
  simp [eq_comm]

@[simp]
theorem get_ne_error {s t : σ} {e : Fault ε} :
    (get : Call σ ε σ).run s ≠ .error e t := by
  change EStateM.Result.ok s s ≠ .error e t
  simp

@[simp]
theorem modify_ne_error {f : σ → σ} {s t : σ} {e : Fault ε} :
    (modify f : Call σ ε Unit).run s ≠ .error e t := by
  change EStateM.Result.ok () (f s) ≠ .error e t
  simp

@[simp]
theorem pure_run_ne_error {a : α} {s t : σ} {e : Fault ε} :
    (pure a : Call σ ε α).run s ≠ .error e t := by
  change EStateM.Result.ok a s ≠ .error e t
  simp

/-! A call step by step. -/

theorem run_get_bind (f : σ → Call σ ε α) (s : σ) :
    (get >>= f : Call σ ε α).run s = (f s).run s := rfl

theorem run_check_bind_ok {x : Outcome ε β} {b : β} (h : x = .ok b)
    (f : β → Call σ ε α) (s : σ) :
    (check x >>= f).run s = (f b).run s := by
  rw [h]
  rfl

theorem run_check_bind_error {x : Outcome ε β} {e : Fault ε}
    (h : x = .error e) (f : β → Call σ ε α) (s : σ) :
    (check x >>= f).run s = .error e s := by
  rw [h]
  rfl

/-- The state a call leaves behind, whichever way it ends. -/
def after (x : EStateM ε σ α) (s : σ) : σ :=
  match x.run s with
  | .ok _ t => t
  | .error _ t => t

theorem after_of_ok {x : EStateM ε σ α} {s t : σ} {a : α}
    (h : x.run s = .ok a t) : after x s = t := by
  rw [after, h]

theorem after_of_error {x : EStateM ε σ α} {s t : σ} {e : ε}
    (h : x.run s = .error e t) : after x s = t := by
  rw [after, h]

/-- The call does not change what `view` shows of the state. -/
def Keeps {β : Type} (view : σ → β) (x : EStateM ε σ α) : Prop :=
  ∀ s, view (after x s) = view s

theorem Keeps.bind {γ : Type} {view : σ → γ} {x : EStateM ε σ α}
    {f : α → EStateM ε σ β} (hx : Keeps view x) (hf : ∀ a, Keeps view (f a)) :
    Keeps view (x >>= f) := by
  intro s
  have hs := hx s
  unfold after at hs ⊢
  rw [EStateM.run_bind]
  cases hrun : x.run s with
  | error e t => simpa [hrun] using hs
  | ok a t =>
      simp only [hrun] at hs
      have ht := hf a t
      unfold after at ht
      rw [← hs, ← ht]

theorem keeps_check (view : σ → β) (x : Outcome ε α) :
    Keeps view (check x : Call σ ε α) := by
  cases x <;> exact fun _ => rfl

theorem keeps_pure (view : σ → β) (a : α) :
    Keeps view (pure a : EStateM ε σ α) := fun _ => rfl

/-! Calls that do not write, and calls that write only when they succeed. -/

/-- The call leaves the state as it was, however it ends. -/
def ReadOnly (x : Call σ ε α) : Prop :=
  (∀ s t a, x.run s = .ok a t → t = s) ∧
    ∀ s t e, x.run s = .error e t → t = s

/-- A failed call leaves the state as it was. -/
def Transactional (x : Call σ ε α) : Prop :=
  ∀ s t e, x.run s = .error e t → t = s

theorem readOnly_check (x : Outcome ε α) : ReadOnly (check x : Call σ ε α) :=
  ⟨fun _ _ _ h => (check_eq_ok.mp h).2, fun _ _ _ h => (check_eq_error.mp h).2⟩

theorem readOnly_get : ReadOnly (get : Call σ ε σ) :=
  ⟨fun _ _ _ h => (get_eq_ok.mp h).2, fun _ _ _ h => (get_ne_error h).elim⟩

/-- The call never fails. -/
def Infallible (x : Call σ ε α) : Prop :=
  ∀ s t e, x.run s ≠ .error e t

theorem infallible_pure (a : α) : Infallible (pure a : Call σ ε α) :=
  fun _ _ _ => pure_run_ne_error

theorem infallible_modify (f : σ → σ) :
    Infallible (modify f : Call σ ε Unit) :=
  fun _ _ _ => modify_ne_error

theorem Infallible.bind {x : Call σ ε α} {f : α → Call σ ε β}
    (hx : Infallible x) (hf : ∀ a, Infallible (f a)) :
    Infallible (x >>= f) := by
  intro s t e h
  rcases bind_eq_error.mp h with h | ⟨a, u, -, h⟩
  · exact hx s t e h
  · exact hf a u t e h

theorem Infallible.transactional {x : Call σ ε α} (h : Infallible x) :
    Transactional x :=
  fun s t e herror => (h s t e herror).elim

theorem ReadOnly.transactional {x : Call σ ε α} (h : ReadOnly x) :
    Transactional x := h.2

theorem ReadOnly.andThen {x : Call σ ε α} {f : α → Call σ ε β}
    (hx : ReadOnly x) (hf : ∀ a, ReadOnly (f a)) : ReadOnly (x >>= f) := by
  constructor
  · intro s t b h
    obtain ⟨a, u, hok, h⟩ := bind_eq_ok.mp h
    rw [(hf a).1 u t b h, hx.1 s u a hok]
  · intro s t e h
    rcases bind_eq_error.mp h with h | ⟨a, u, hok, h⟩
    · exact hx.2 s t e h
    · rw [(hf a).2 u t e h, hx.1 s u a hok]

theorem readOnly_pure (a : α) : ReadOnly (pure a : Call σ ε α) :=
  ⟨fun _ _ _ h => (pure_run_eq_ok.mp h).2,
    fun _ _ _ h => (pure_run_ne_error h).elim⟩

theorem ReadOnly.bind {x : Call σ ε α} {f : α → Call σ ε β}
    (hx : ReadOnly x) (hf : ∀ a, Transactional (f a)) :
    Transactional (x >>= f) := by
  intro s t e h
  rcases bind_eq_error.mp h with h | ⟨a, u, hok, h⟩
  · exact hx.2 s t e h
  · rw [hf a u t e h, hx.1 s u a hok]

/-! Calls that do not see a part of the state. -/

def mapState (f : σ → σ) : EStateM.Result ε σ α → EStateM.Result ε σ α
  | .ok a s => .ok a (f s)
  | .error e s => .error e (f s)

/-- The call does not see what `f` changes of the state. -/
def Oblivious (f : σ → σ) (x : Call σ ε α) : Prop :=
  ∀ s, x.run (f s) = mapState f (x.run s)

theorem oblivious_check (f : σ → σ) (x : Outcome ε α) :
    Oblivious f (check x : Call σ ε α) := by
  intro s
  cases x <;> rfl

theorem oblivious_pure (f : σ → σ) (a : α) :
    Oblivious f (pure a : Call σ ε α) := fun _ => rfl

theorem oblivious_modify {f g : σ → σ} (h : ∀ s, g (f s) = f (g s)) :
    Oblivious f (modify g : Call σ ε Unit) :=
  fun s => congrArg (EStateM.Result.ok ()) (h s)

theorem Oblivious.bind {f : σ → σ} {x : Call σ ε α} {g : α → Call σ ε β}
    (hx : Oblivious f x) (hg : ∀ a, Oblivious f (g a)) :
    Oblivious f (x >>= g) := by
  intro s
  rw [EStateM.run_bind, EStateM.run_bind, hx s]
  cases x.run s with
  | ok a t => exact hg a t
  | error e t => rfl

/-- A call that starts with reading the state, but not that part of it. -/
theorem oblivious_get_bind {f : σ → σ} {g : σ → Call σ ε α}
    (hread : ∀ s, g (f s) = g s) (hg : ∀ s, Oblivious f (g s)) :
    Oblivious f (get >>= g) := by
  intro s
  rw [run_get_bind, run_get_bind, hread]
  exact hg s s

end Call

/-- `heapless::Vec<u8, capacity>` -/
structure HVec (capacity : Nat) where
  toList : Bytes
  length_le : toList.length ≤ capacity
deriving DecidableEq

namespace HVec

variable {capacity : Nat}

@[ext]
theorem ext {v w : HVec capacity} (h : v.toList = w.toList) : v = w := by
  cases v
  cases w
  cases h
  rfl

/-- `Vec::new()` -/
def empty : HVec capacity := ⟨[], Nat.zero_le _⟩

@[simp]
theorem toList_empty : (empty : HVec capacity).toList = [] := rfl

/-- `vec.extend_from_slice(bytes)`; `none` is the capacity error. -/
def extend (v : HVec capacity) (bytes : Bytes) : Option (HVec capacity) :=
  if h : (v.toList ++ bytes).length ≤ capacity then
    some ⟨v.toList ++ bytes, h⟩
  else
    none

/-- `vec.push(byte)` -/
def push (v : HVec capacity) (byte : UInt8) : Option (HVec capacity) :=
  v.extend [byte]

/-- `Vec::from_slice(bytes)` -/
def ofBytes (bytes : Bytes) : Option (HVec capacity) :=
  empty.extend bytes

theorem extend_eq_some {v w : HVec capacity} {bytes : Bytes} :
    v.extend bytes = some w ↔ w.toList = v.toList ++ bytes := by
  unfold extend
  split
  · rename_i h
    constructor
    · rintro ⟨rfl⟩
      rfl
    · intro heq
      exact congrArg some (HVec.ext heq.symm)
  · rename_i h
    simp only [reduceCtorEq, false_iff]
    intro heq
    exact h (heq ▸ w.length_le)

theorem extend_of_le {v : HVec capacity} {bytes : Bytes}
    (h : v.toList.length + bytes.length ≤ capacity) :
    v.extend bytes = some ⟨v.toList ++ bytes, by simpa using h⟩ :=
  extend_eq_some.mpr rfl

theorem extend_eq_none {v : HVec capacity} {bytes : Bytes} :
    v.extend bytes = none ↔ capacity < v.toList.length + bytes.length := by
  simp [extend]

theorem ofBytes_eq_some {bytes : Bytes} {w : HVec capacity} :
    ofBytes bytes = some w ↔ w.toList = bytes := by
  simp [ofBytes, extend_eq_some]

@[simp]
theorem extend_nil (v : HVec capacity) : v.extend [] = some v := by
  simp [extend_eq_some]

theorem extend_extend (v : HVec capacity) (xs ys : Bytes) :
    ((v.extend xs).bind fun w => w.extend ys) = v.extend (xs ++ ys) := by
  cases hxs : v.extend xs with
  | none =>
      have hlen := extend_eq_none.mp hxs
      have hnone : v.extend (xs ++ ys) = none := by
        rw [extend_eq_none, List.length_append]
        omega
      simp [hnone]
  | some w =>
      have hw := extend_eq_some.mp hxs
      refine Option.ext fun u => ?_
      rw [Option.bind_some, extend_eq_some, extend_eq_some, hw,
        List.append_assoc]

/-- Consecutive appends that report the same error are one append. -/
theorem okOr_extend_bind (v : HVec capacity) (xs ys : Bytes) (error : ε)
    (k : HVec capacity → Outcome ε β) :
    (okOr (v.extend xs) error >>= fun w => okOr (w.extend ys) error >>= k) =
      okOr (v.extend (xs ++ ys)) error >>= k := by
  rw [← extend_extend]
  cases v.extend xs <;> rfl

theorem okOr_extend (v : HVec capacity) (xs ys : Bytes) (error : ε) :
    (okOr (v.extend xs) error >>= fun w => okOr (w.extend ys) error) =
      okOr (v.extend (xs ++ ys)) error := by
  rw [← extend_extend]
  cases v.extend xs <;> rfl

theorem expect_extend_bind (v : HVec capacity) (xs ys : Bytes)
    (k : HVec capacity → Outcome ε β) :
    (expect (v.extend xs) >>= fun w => expect (w.extend ys) >>= k) =
      expect (v.extend (xs ++ ys)) >>= k := by
  rw [← extend_extend]
  cases v.extend xs <;> rfl

theorem expect_extend (v : HVec capacity) (xs ys : Bytes) :
    (expect (v.extend xs) >>= fun w => expect (w.extend ys) :
        Outcome ε (HVec capacity)) = expect (v.extend (xs ++ ys)) := by
  rw [← extend_extend]
  cases v.extend xs <;> rfl

end HVec

end Rust
