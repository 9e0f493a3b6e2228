/-
What a call promises on return: a value, and a state, with a given property,
or an `Err`, but no panic.  The rules follow the way calls are put together.
-/
import Oscore.Lib.Rust

namespace Rust

variable {ε ε' σ α β : Type}

namespace Outcome

/-- A value with the property or an `Err`; never a panic. -/
def Meets (x : Outcome ε α) (post : α → Prop) : Prop :=
  match x with
  | .ok a => post a
  | .error fault => fault ≠ .panic

theorem exists_ok_iff {x : Outcome ε α} :
    (∃ a, x = .ok a) ↔ x.isOk = true := by
  cases x <;> simp [Except.isOk, Except.toBool]

/-- A call that returned, returned its value. -/
theorem eq_ok_get {x : Outcome ε α} (h : x.toOption.isSome = true) :
    x = .ok (x.toOption.get h) := by
  cases x with
  | ok a => rfl
  | error fault => exact absurd h (by simp [Except.toOption])

namespace Meets

variable {x : Outcome ε α} {f : α → Outcome ε β} {post mid : α → Prop}

theorem of_ok (h : Meets x post) {a : α} (hx : x = .ok a) : post a := by
  subst hx
  exact h

theorem ne_panic (h : Meets x post) : x ≠ .error .panic := by
  rintro rfl
  exact h rfl

theorem mono (h : Meets x mid) (hle : ∀ a, mid a → post a) :
    Meets x post := by
  cases x with
  | ok a => exact hle a h
  | error fault => exact h

/-- The value is the one that was returned. -/
theorem returned (h : Meets x post) :
    Meets x fun a => x = .ok a ∧ post a := by
  cases x with
  | ok a => exact ⟨rfl, h⟩
  | error fault => exact h

theorem bind {post : β → Prop} (hx : Meets x mid)
    (hf : ∀ a, mid a → Meets (f a) post) : Meets (x >>= f) post := by
  cases x with
  | ok a => exact hf a hx
  | error fault => exact hx

theorem pure {a : α} (h : post a) : Meets (.ok a : Outcome ε α) post := h

theorem err (error : ε) (post : α → Prop) :
    Meets (.error (.err error) : Outcome ε α) post := by
  simp [Meets]

theorem ite {cond : Prop} [Decidable cond] {y : Outcome ε α}
    (hthen : cond → Meets x post) (helse : ¬ cond → Meets y post) :
    Meets (if cond then x else y) post := by
  by_cases h : cond
  · rw [if_pos h]
    exact hthen h
  · rw [if_neg h]
    exact helse h

theorem failIf (cond : Prop) [Decidable cond] (error : ε) :
    Meets (Rust.failIf cond error) fun _ => ¬ cond := by
  by_cases h : cond <;> simp [Meets, Rust.failIf, h]

theorem okOr (option : Option α) (error : ε) :
    Meets (Rust.okOr option error) fun a => option = some a := by
  cases option <;> simp [Meets, Rust.okOr]

end Meets

end Outcome

/-- `result.map_err(f)?` -/
def mapErr (f : ε → ε') (x : Outcome ε α) : Outcome ε' α :=
  match x with
  | .ok a => .ok a
  | .error (.err error) => .error (.err (f error))
  | .error .panic => .error .panic

@[simp]
theorem mapErr_eq_ok {f : ε → ε'} {x : Outcome ε α} {a : α} :
    mapErr f x = .ok a ↔ x = .ok a := by
  rcases x with (error | _) | value <;> simp [mapErr]

theorem Outcome.Meets.mapErr {x : Outcome ε α} {post : α → Prop}
    (h : Meets x post) (f : ε → ε') : Meets (Rust.mapErr f x) post := by
  rcases x with (error | _) | value
  · exact err _ _
  · exact absurd rfl h
  · exact h

/-- A value together with the call that returned it. -/
def attach (x : Outcome ε α) : Outcome ε { a // x = .ok a } :=
  match x with
  | .ok a => .ok ⟨a, rfl⟩
  | .error fault => .error fault

theorem attach_eq_ok {x : Outcome ε α} {a : { a // x = .ok a }} :
    attach x = .ok a ↔ x = .ok a.val := by
  obtain ⟨a, ha⟩ := a
  subst ha
  simp [attach]

theorem Outcome.Meets.attach {x : Outcome ε α} {post : α → Prop}
    (h : Meets x post) : Meets (Rust.attach x) fun a => post a.val := by
  cases x with
  | ok a => exact h
  | error fault => exact h

namespace Call

/-- `let result = ..; if result.is_err() { cleanup }; result`; a panic leaves
at once. -/
def onErr (cleanup : σ → σ) (x : Call σ ε α) : Call σ ε α := fun s =>
  match x.run s with
  | .ok a t => .ok a t
  | .error (.err error) t => .error (.err error) (cleanup t)
  | .error .panic t => .error .panic t

@[simp]
theorem onErr_eq_ok {cleanup : σ → σ} {x : Call σ ε α} {s t : σ} {a : α} :
    (onErr cleanup x).run s = .ok a t ↔ x.run s = .ok a t := by
  change onErr cleanup x s = _ ↔ _
  unfold onErr
  split <;> simp_all

/-- The value a call returns, or how it fails. -/
def outcome (x : Call σ ε α) (s : σ) : Outcome ε α :=
  match x.run s with
  | .ok a _ => .ok a
  | .error fault _ => .error fault

/-- On return the state has a property that goes with the value, or with an
`Err`; the call does not panic. -/
def Meets (x : Call σ ε α) (s : σ) (post : α → σ → Prop) (fail : σ → Prop) :
    Prop :=
  match x.run s with
  | .ok a t => post a t
  | .error (.err _) t => fail t
  | .error .panic _ => False

namespace Meets

variable {x : Call σ ε α} {f : α → Call σ ε β} {s : σ}
  {post mid : α → σ → Prop} {fail : σ → Prop}

theorem of_ok (h : Meets x s post fail) {a : α} {t : σ}
    (hx : x.run s = .ok a t) : post a t := by
  unfold Meets at h
  rw [hx] at h
  exact h

theorem ne_panic (h : Meets x s post fail) {t : σ} :
    x.run s ≠ .error .panic t := by
  intro hx
  unfold Meets at h
  rw [hx] at h
  exact h

/-- How a call ends. -/
theorem ends (h : Meets x s post fail) :
    (∃ a, outcome x s = .ok a ∧ x.run s = .ok a (after x s) ∧
        post a (after x s)) ∨
      ∃ error, outcome x s = .error (.err error) ∧ fail (after x s) := by
  unfold Meets at h
  split at h
  · rename_i a t hrun
    rw [after_of_ok hrun, outcome, hrun]
    exact .inl ⟨a, rfl, rfl, h⟩
  · rename_i error t hrun
    rw [after_of_error hrun, outcome, hrun]
    exact .inr ⟨error, rfl, h⟩
  · exact h.elim

/-- The value and the state are those that were returned. -/
theorem returned (h : Meets x s post fail) :
    Meets x s (fun a t => x.run s = .ok a t ∧ post a t) fail := by
  unfold Meets at *
  split at h
  · rename_i a t hrun
    exact ⟨hrun, h⟩
  · exact h
  · exact h

theorem after (h : Meets x s (fun _ => fail) fail) : fail (after x s) := by
  rcases h.ends with ⟨_, -, -, h⟩ | ⟨_, -, h⟩
  · exact h
  · exact h

theorem mono {fail' : σ → Prop} (h : Meets x s mid fail')
    (hpost : ∀ a t, mid a t → post a t) (hfail : ∀ t, fail' t → fail t) :
    Meets x s post fail := by
  unfold Meets at *
  split at h
  · exact hpost _ _ h
  · exact hfail _ h
  · exact h

theorem bind {post : β → σ → Prop} (hx : Meets x s mid fail)
    (hf : ∀ a t, mid a t → Meets (f a) t post fail) :
    Meets (x >>= f) s post fail := by
  unfold Meets at *
  rw [EStateM.run_bind]
  split at hx
  · rename_i a t hrun
    rw [hrun]
    exact hf a t hx
  · rename_i error t hrun
    rw [hrun]
    exact hx
  · exact hx.elim

theorem get_bind {post : β → σ → Prop} {f : σ → Call σ ε β}
    (hf : Meets (f s) s post fail) : Meets (get >>= f) s post fail := hf

theorem modify_bind {post : β → σ → Prop} {g : σ → σ}
    {f : Unit → Call σ ε β} (hf : Meets (f ()) (g s) post fail) :
    Meets (modify g >>= f) s post fail := hf

theorem check_bind {post : β → σ → Prop} {y : Outcome ε α} {mid : α → Prop}
    (hy : y.Meets mid) (hfail : fail s)
    (hf : ∀ a, mid a → Meets (f a) s post fail) :
    Meets (check y >>= f) s post fail := by
  rcases y with (error | _) | a
  · exact hfail
  · exact absurd rfl hy
  · exact hf a hy

theorem ok_bind {post : β → σ → Prop} {a : α} {f : α → Call σ ε β}
    (hf : Meets (f a) s post fail) :
    Meets (check (.ok a : Outcome ε α) >>= f) s post fail := hf

theorem failIf_bind {post : β → σ → Prop} {cond : Prop} [Decidable cond]
    {error : ε} {f : Unit → Call σ ε β} (hfail : fail s)
    (hf : ¬ cond → Meets (f ()) s post fail) :
    Meets (check (Rust.failIf cond error) >>= f) s post fail :=
  check_bind (.failIf _ _) hfail fun _ => hf

theorem pure {a : α} (h : post a s) :
    Meets (pure a : Call σ ε α) s post fail := h

theorem throw (error : ε) (h : fail s) :
    Meets (throw (.err error) : Call σ ε α) s post fail := h

theorem ite {cond : Prop} [Decidable cond] {y : Call σ ε α}
    (hthen : cond → Meets x s post fail)
    (helse : ¬ cond → Meets y s post fail) :
    Meets (if cond then x else y) s post fail := by
  by_cases h : cond
  · rw [if_pos h]
    exact hthen h
  · rw [if_neg h]
    exact helse h

theorem onErr {cleanup : σ → σ} {fail' : σ → Prop}
    (h : Meets x s post fail') (hfail : ∀ t, fail' t → fail (cleanup t)) :
    Meets (onErr cleanup x) s post fail := by
  change match Call.onErr cleanup x s with
    | .ok a t => post a t
    | .error (.err _) t => fail t
    | .error .panic _ => False
  unfold Meets at h
  unfold Call.onErr
  split at h
  · exact h
  · exact hfail _ h
  · exact h.elim

theorem check {y : Outcome ε α} {mid : α → Prop} (hy : y.Meets mid)
    (hfail : fail s) (hpost : ∀ a, mid a → post a s) :
    Meets (check y : Call σ ε α) s post fail := by
  rcases y with (error | _) | a
  · exact hfail
  · exact absurd rfl hy
  · exact hpost a hy

theorem both {post' : α → σ → Prop} {fail' : σ → Prop}
    (h : Meets x s post fail) (h' : Meets x s post' fail') :
    Meets x s (fun a t => post a t ∧ post' a t) fun t => fail t ∧ fail' t := by
  unfold Meets at *
  split at h <;> simp_all

end Meets

/-- The call returns a value. -/
abbrev Returns (x : Call σ ε α) (s : σ) (post : α → σ → Prop) : Prop :=
  Meets x s post fun _ => False

theorem Meets.exists_run {x : Call σ ε α} {s : σ} {post : α → σ → Prop}
    (h : Returns x s post) : ∃ a t, x.run s = .ok a t ∧ post a t := by
  rcases h.ends with ⟨a, -, hrun, hpost⟩ | ⟨_, -, hfalse⟩
  · exact ⟨a, _, hrun, hpost⟩
  · exact hfalse.elim

/-! Calls that move the state, or a view of it, along a preorder. -/

/-- However the call ends, the state has only moved along the relation. -/
def Moves {τ : Type} (related : τ → τ → Prop) (view : σ → τ)
    (x : Call σ ε α) : Prop :=
  ∀ s, related (view s) (view (after x s))

namespace Moves

variable {τ : Type} {related : τ → τ → Prop} [IsPreorder τ related]
  {view : σ → τ} {x : Call σ ε α}

theorem unmoved (h : ∀ s, after x s = s) : Moves related view x := by
  intro s
  rw [h s]
  exact refl (r := related) (view s)

theorem pure (a : α) : Moves related view (pure a : Call σ ε α) :=
  unmoved fun _ => rfl

theorem throw (fault : Fault ε) :
    Moves related view (throw fault : Call σ ε α) := unmoved fun _ => rfl

theorem check (y : Outcome ε α) : Moves related view (check y : Call σ ε α) :=
  unmoved fun _ => by cases y <;> rfl

theorem bind {f : α → Call σ ε β} (hx : Moves related view x)
    (hf : ∀ a, Moves related view (f a)) : Moves related view (x >>= f) := by
  intro s
  have hfirst := hx s
  cases hrun : x.run s with
  | ok a t =>
      rw [after_of_ok hrun] at hfirst
      have hafter : after (x >>= f) s = after (f a) t := by
        rw [after, after, EStateM.run_bind, hrun]
      rw [hafter]
      exact IsTrans.trans _ _ _ hfirst (hf a t)
  | error fault t =>
      rw [after_of_error hrun] at hfirst
      have hafter : after (x >>= f) s = t :=
        after_of_error (by rw [EStateM.run_bind, hrun])
      rwa [hafter]

omit [IsPreorder τ related] in
theorem get_bind {f : σ → Call σ ε β} (hf : ∀ s, Moves related view (f s)) :
    Moves related view (get >>= f) := fun s => hf s s

theorem modify_bind {g : σ → σ} {f : Unit → Call σ ε β}
    (hg : ∀ s, related (view s) (view (g s)))
    (hf : Moves related view (f ())) :
    Moves related view (modify g >>= f) :=
  fun s => IsTrans.trans _ _ _ (hg s) (hf (g s))

theorem check_bind_of_ok (y : Outcome ε α) {f : α → Call σ ε β}
    (hf : ∀ a, y = .ok a → Moves related view (f a)) :
    Moves related view (Call.check y >>= f) := by
  cases y with
  | error fault => exact unmoved fun _ => rfl
  | ok a => exact hf a rfl

theorem check_bind (y : Outcome ε α) {f : α → Call σ ε β}
    (hf : ∀ a, Moves related view (f a)) :
    Moves related view (Call.check y >>= f) :=
  check_bind_of_ok y fun a _ => hf a

omit [IsPreorder τ related] in
theorem ite {cond : Prop} [Decidable cond] {y : Call σ ε α}
    (hx : Moves related view x) (hy : Moves related view y) :
    Moves related view (if cond then x else y) := by
  split
  · exact hx
  · exact hy

theorem onErr {cleanup : σ → σ} (hx : Moves related view x)
    (hcleanup : ∀ s, related (view s) (view (cleanup s))) :
    Moves related view (onErr cleanup x) := by
  intro s
  have hfirst := hx s
  have hrun : (Call.onErr cleanup x).run s =
      match x.run s with
      | .ok a t => .ok a t
      | .error (.err error) t => .error (.err error) (cleanup t)
      | .error .panic t => .error .panic t := rfl
  cases hend : x.run s with
  | ok a t =>
      rw [after_of_ok hend] at hfirst
      rw [hend] at hrun
      rwa [after_of_ok hrun]
  | error fault t =>
      rw [after_of_error hend] at hfirst
      rw [hend] at hrun
      cases fault with
      | err error =>
          rw [after_of_error hrun]
          exact IsTrans.trans _ _ _ hfirst (hcleanup t)
      | panic => rwa [after_of_error hrun]

omit [IsPreorder τ related] in
theorem meets (h : Moves related view x) {s : σ} {post : α → σ → Prop}
    {fail : σ → Prop} (hx : Meets x s post fail) :
    Meets x s (fun _ t => related (view s) (view t))
      fun t => related (view s) (view t) := by
  have hafter := h s
  rcases hx.ends with ⟨a, -, hrun, -⟩ | ⟨error, hend, -⟩
  · unfold Meets
    rw [hrun]
    exact hafter
  · unfold outcome at hend
    unfold Meets
    split at hend
    · cases hend
    · rename_i fault t hrun
      cases hend
      rw [after_of_error hrun] at hafter
      rw [hrun]
      exact hafter

end Moves

/-! Two runs of a call, from states that are related. -/

/-- The calls return the same and leave related states. -/
def Agree (related : σ → σ → Prop) (x y : Call σ ε α) (s t : σ) : Prop :=
  outcome x s = outcome y t ∧ related (after x s) (after y t)

namespace Agree

variable {related : σ → σ → Prop} {x y : Call σ ε α} {f g : α → Call σ ε β}
  {s t : σ}

theorem bind (h : Agree related x y s t)
    (hf : ∀ a u v, related u v → Agree related (f a) (g a) u v) :
    Agree related (x >>= f) (y >>= g) s t := by
  unfold Agree outcome Call.after at *
  rw [EStateM.run_bind, EStateM.run_bind]
  cases hx : x.run s <;> cases hy : y.run t <;>
    simp only [hx, hy, Except.ok.injEq, Except.error.injEq, reduceCtorEq,
      false_and] at h
  · obtain ⟨rfl, h⟩ := h
    exact hf _ _ _ h
  · exact ⟨congrArg _ h.1, h.2⟩

theorem get_bind {f g : σ → Call σ ε β}
    (hf : Agree related (f s) (g t) s t) :
    Agree related (get >>= f) (get >>= g) s t := hf

theorem modify_bind {k l : σ → σ} {f g : Unit → Call σ ε β}
    (hf : Agree related (f ()) (g ()) (k s) (l t)) :
    Agree related (modify k >>= f) (modify l >>= g) s t := hf

theorem pure (a : α) (h : related s t) :
    Agree related (pure a : Call σ ε α) (pure a) s t := ⟨rfl, h⟩

theorem throw (fault : Fault ε) (h : related s t) :
    Agree related (throw fault : Call σ ε α) (throw fault) s t := ⟨rfl, h⟩

theorem check_bind (z : Outcome ε α) (h : related s t)
    (hf : ∀ a, Agree related (f a) (g a) s t) :
    Agree related (check z >>= f) (check z >>= g) s t := by
  cases z with
  | ok a => exact hf a
  | error fault => exact ⟨rfl, h⟩

theorem ite {cond : Prop} [Decidable cond] {x' y' : Call σ ε α}
    (hthen : Agree related x y s t) (helse : Agree related x' y' s t) :
    Agree related (if cond then x else x') (if cond then y else y') s t := by
  by_cases h : cond
  · rw [if_pos h, if_pos h]
    exact hthen
  · rw [if_neg h, if_neg h]
    exact helse

theorem onErr {cleanup : σ → σ} (h : Agree related x y s t)
    (hcleanup : ∀ u v, related u v → related (cleanup u) (cleanup v)) :
    Agree related (onErr cleanup x) (onErr cleanup y) s t := by
  have hrun : ∀ (z : Call σ ε α) u, (Call.onErr cleanup z).run u =
      match z.run u with
      | .ok a v => .ok a v
      | .error (.err error) v => .error (.err error) (cleanup v)
      | .error .panic v => .error .panic v := fun _ _ => rfl
  unfold Agree outcome Call.after at *
  rw [hrun, hrun]
  cases hx : x.run s <;> cases hy : y.run t <;>
    simp only [hx, hy, Except.ok.injEq, Except.error.injEq, reduceCtorEq,
      false_and] at h
  · obtain ⟨rfl, h⟩ := h
    exact ⟨rfl, h⟩
  · rename_i fault u fault' v
    obtain ⟨rfl, h⟩ := h
    cases fault with
    | err error => exact ⟨rfl, hcleanup u v h⟩
    | panic => exact ⟨rfl, h⟩

end Agree

end Call

end Rust
