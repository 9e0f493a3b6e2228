/-
General facts about histories of a state machine: invariants over runs, the
moment a thing was made, what the machine replies, steps that leave no trace,
filters that accept an item at most once, counters that issue a ticket at most
once, and matching what is taken with what was given.
-/
import Mathlib.Data.List.Nodup
import Mathlib.Data.List.Induction

namespace History

universe u v w

variable {S : Type u} {O : Type v} {A : Type w}

/-! Runs. -/

/-- The state after a sequence of operations. -/
def run (step : S → O → S) (start : S) (ops : List O) : S :=
  ops.foldl step start

/-- Every operation of the run meets `guard` in the state it is applied to. -/
def Guarded (step : S → O → S) (guard : S → O → Prop) : S → List O → Prop
  | _, [] => True
  | s, op :: ops => guard s op ∧ Guarded step guard (step s op) ops

instance Guarded.decidable (step : S → O → S) (guard : S → O → Prop)
    [∀ s op, Decidable (guard s op)] :
    ∀ s ops, Decidable (Guarded step guard s ops)
  | _, [] => inferInstanceAs (Decidable True)
  | s, op :: ops =>
      have := Guarded.decidable step guard (step s op) ops
      inferInstanceAs (Decidable (guard s op ∧ _))

@[simp]
theorem run_nil (step : S → O → S) (s : S) : run step s [] = s := rfl

@[simp]
theorem run_cons (step : S → O → S) (s : S) (op : O) (ops : List O) :
    run step s (op :: ops) = run step (step s op) ops := rfl

theorem run_append (step : S → O → S) (s : S) (first second : List O) :
    run step s (first ++ second) = run step (run step s first) second :=
  List.foldl_append

/-- A property preserved by every guarded step holds after a guarded run. -/
theorem invariant_of_guarded {step : S → O → S} {guard : S → O → Prop}
    {inv : S → Prop}
    (hstep : ∀ s op, inv s → guard s op → inv (step s op))
    {start : S} {ops : List O} (hguard : Guarded step guard start ops)
    (hstart : inv start) : inv (run step start ops) := by
  induction ops generalizing start with
  | nil => exact hstart
  | cons op ops ih =>
      obtain ⟨hop, hrest⟩ := hguard
      exact ih hrest (hstep start op hstart hop)

/-- A property preserved by every step holds after every run. -/
theorem invariant {step : S → O → S} {inv : S → Prop}
    (hstep : ∀ s op, inv s → inv (step s op)) {start : S}
    (hstart : inv start) (ops : List O) : inv (run step start ops) := by
  induction ops generalizing start with
  | nil => exact hstart
  | cons op ops ih => exact ih (hstep start op hstart)

/-- A preorder that every step respects leads from any moment of a run to its
end. -/
theorem related_of_prefix {T : Type w} {related : T → T → Prop}
    [IsPreorder T related] {view : S → T} {step : S → O → S}
    (hstep : ∀ s op, related (view s) (view (step s op))) (start : S)
    {done ops : List O} (h : done <+: ops) :
    related (view (run step start done)) (view (run step start ops)) := by
  obtain ⟨rest, rfl⟩ := h
  rw [run_append]
  have hnext : ∀ s op, related (view (run step start done)) (view s) →
      related (view (run step start done)) (view (step s op)) :=
    fun s op hs => IsTrans.trans _ _ _ hs (hstep s op)
  exact invariant hnext (Std.Refl.refl _) rest

/-- Whatever a run has that its start has not was made in one of its steps. -/
theorem exists_moment {step : S → O → S} (has made : S → A → Prop)
    (hstep : ∀ s op a, has (step s op) a → has s a ∨ made (step s op) a)
    {start : S} {a : A} (hstart : ¬ has start a) {ops : List O}
    (h : has (run step start ops) a) :
    ∃ done, done <+: ops ∧ made (run step start done) a := by
  induction ops using List.reverseRecOn with
  | nil => exact absurd h hstart
  | append_singleton ops op ih =>
      have hlast : run step start (ops ++ [op]) =
          step (run step start ops) op := run_append step start ops [op]
      rw [hlast] at h
      rcases hstep _ op a h with hhas | hmade
      · obtain ⟨done, hdone, hmade⟩ := ih hhas
        exact ⟨done, hdone.trans (List.prefix_append ops [op]), hmade⟩
      · exact ⟨ops ++ [op], List.prefix_rfl, hlast ▸ hmade⟩

/-- An invariant that speaks of the operations so far, in their order. -/
theorem invariant_of_past {step : S → O → S} {guard : S → O → Prop}
    {inv : S → List O → Prop}
    (hstep : ∀ s past op, inv s past → guard s op →
      inv (step s op) (past ++ [op]))
    {start : S} {past ops : List O} (hguard : Guarded step guard start ops)
    (hstart : inv start past) : inv (run step start ops) (past ++ ops) := by
  induction ops generalizing start past with
  | nil =>
      rw [List.append_nil]
      exact hstart
  | cons op ops ih =>
      obtain ⟨hop, hrest⟩ := hguard
      have h := ih hrest (hstep start past op hstart hop)
      rwa [List.append_assoc] at h

/-- Where a good state stays good exactly under guarded steps, all states of a
run are good exactly when all its steps are guarded. -/
theorem forall_prefix_iff_guarded {step : S → O → S} {guard : S → O → Prop}
    {inv good : S → Prop} (hinv : ∀ s op, inv s → inv (step s op))
    (hstep : ∀ s op, inv s → good s → (good (step s op) ↔ guard s op))
    {start : S} (hstart : inv start) (hgood : good start) (ops : List O) :
    (∀ done, done <+: ops → good (run step start done)) ↔
      Guarded step guard start ops := by
  induction ops generalizing start with
  | nil =>
      refine iff_of_true ?_ trivial
      intro done hdone
      rw [List.prefix_nil.mp hdone]
      exact hgood
  | cons op ops ih =>
      constructor
      · intro h
        have hnext : good (step start op) := h [op] (by simp)
        refine ⟨(hstep start op hstart hgood).mp hnext, ?_⟩
        refine (ih (hinv start op hstart) hnext).mp ?_
        intro done hdone
        exact h (op :: done) ((List.prefix_cons_inj op).mpr hdone)
      · rintro ⟨hop, hrest⟩ done hdone
        have hnext := (hstep start op hstart hgood).mpr hop
        cases done with
        | nil => exact hgood
        | cons first done =>
            obtain ⟨rfl, hrestDone⟩ := List.cons_prefix_cons.mp hdone
            exact (ih (hinv start _ hstart) hnext).mpr hrest done hrestDone

/-- A guard on the operations alone. -/
theorem guarded_iff_forall (step : S → O → S) (guard : O → Prop) (s : S)
    (ops : List O) :
    Guarded step (fun _ => guard) s ops ↔ ∀ op ∈ ops, guard op := by
  induction ops generalizing s with
  | nil => simp [Guarded]
  | cons op ops ih =>
      simp only [Guarded, ih, List.forall_mem_cons]

/-! Replies. -/

variable {R : Type w}

/-- What a system answers to a sequence of operations. -/
def replies (apply : S → O → S × R) : S → List O → List R
  | _, [] => []
  | s, op :: ops =>
      (apply s op).2 :: replies apply (apply s op).1 ops

/-- States that answer alike and stay related answer every sequence alike. -/
theorem replies_eq_of_related {apply : S → O → S × R} {related : S → S → Prop}
    (hstep : ∀ s t op, related s t → (apply s op).2 = (apply t op).2 ∧
      related (apply s op).1 (apply t op).1) {s t : S} (h : related s t)
    (ops : List O) : replies apply s ops = replies apply t ops := by
  induction ops generalizing s t with
  | nil => rfl
  | cons op ops ih =>
      obtain ⟨hreply, hnext⟩ := hstep s t op h
      rw [replies, replies, hreply, ih hnext]

/-- All replies are good where good replies lead to states that give them. -/
theorem forall_replies {apply : S → O → S × R} {inv : S → Prop}
    {good : R → Prop}
    (hstep : ∀ s op, inv s → good (apply s op).2 ∧ inv (apply s op).1) {s : S}
    (h : inv s) (ops : List O) :
    ∀ reply ∈ replies apply s ops, good reply := by
  induction ops generalizing s with
  | nil => simp [replies]
  | cons op ops ih =>
      obtain ⟨hgood, hnext⟩ := hstep s op h
      exact List.forall_mem_cons.mpr ⟨hgood, ih hnext⟩

/-! Steps that cannot be told from none. -/

/-- Where a silent step keeps a state related to one that does not take it, and
every other step keeps related states related, a run is related to the run
without its silent steps. -/
theorem related_without_silent {T : Type w} {step : S → O → S}
    {step' : T → O → T} {guard : S → O → Prop} {silent : O → Bool}
    {related : S → T → Prop}
    (hsilent : ∀ s t op, related s t → guard s op → silent op = true →
      related (step s op) t)
    (hstep : ∀ s t op, related s t → guard s op → silent op = false →
      related (step s op) (step' t op))
    {s : S} {t : T} {ops : List O} (hguard : Guarded step guard s ops)
    (h : related s t) :
    related (run step s ops)
      (run step' t (ops.filter fun op => !silent op)) := by
  induction ops generalizing s t with
  | nil => exact h
  | cons op ops ih =>
      obtain ⟨hop, hrest⟩ := hguard
      cases hcase : silent op with
      | true =>
          have hnext := ih hrest (hsilent s t op h hop hcase)
          simpa [hcase] using hnext
      | false =>
          have hnext := ih hrest (hstep s t op h hop hcase)
          simpa [hcase] using hnext

/-! Filters that accept an item at most once. -/

/-- What a duplicate filter promises: a marked item is rejected from then on,
and marking never makes a rejected item acceptable again. -/
structure OneShot (W : Type u) (A : Type v) where
  rejects : W → A → Prop
  mark : W → A → W
  rejects_mark : ∀ w a, rejects (mark w a) a
  rejects_mono : ∀ w a b, rejects w a → rejects (mark w b) a

namespace OneShot

variable {W : Type u} {A : Type v} (F : OneShot W A)

/-- The filter rejects everything accepted so far, and nothing was accepted
twice. -/
def Remembers (w : W) (accepted : List A) : Prop :=
  accepted.Nodup ∧ ∀ a ∈ accepted, F.rejects w a

theorem remembers_nil (w : W) : F.Remembers w [] := by
  simp [Remembers]

variable {F} in
theorem Remembers.accept {w : W} {accepted : List A}
    (h : F.Remembers w accepted) {a : A} (ha : ¬ F.rejects w a) :
    F.Remembers (F.mark w a) (a :: accepted) := by
  obtain ⟨hnodup, hrejects⟩ := h
  constructor
  · exact List.nodup_cons.mpr ⟨fun hmem => ha (hrejects a hmem), hnodup⟩
  · intro b hb
    rcases List.mem_cons.mp hb with rfl | hb
    · exact F.rejects_mark w b
    · exact F.rejects_mono w b a (hrejects b hb)

/-- A filter on items that may be missing: a missing item is never accepted. -/
def onOption : OneShot W (Option A) where
  rejects w
    | some a => F.rejects w a
    | none => True
  mark w
    | some a => F.mark w a
    | none => w
  rejects_mark w
    | some a => F.rejects_mark w a
    | none => trivial
  rejects_mono w
    | some a, some b => F.rejects_mono w a b
    | some _, none => id
    | none, _ => fun _ => trivial

end OneShot

/-! Counters that issue a ticket at most once. -/

/-- The tickets issued so far, latest first, strictly decrease and stay below
the counter. -/
def Issued (counter : Nat) (tickets : List Nat) : Prop :=
  tickets.Pairwise (fun later earlier => earlier < later) ∧
    ∀ ticket ∈ tickets, ticket < counter

namespace Issued

theorem nil (counter : Nat) : Issued counter [] := by
  simp [Issued]

theorem advance {counter next : Nat} {tickets : List Nat}
    (h : Issued counter tickets) (hle : counter ≤ next) :
    Issued next tickets :=
  ⟨h.1, fun ticket hmem => Nat.lt_of_lt_of_le (h.2 ticket hmem) hle⟩

theorem issue {counter next : Nat} {tickets : List Nat}
    (h : Issued counter tickets) (hlt : counter < next) :
    Issued next (counter :: tickets) := by
  constructor
  · exact List.pairwise_cons.mpr ⟨h.2, h.1⟩
  · intro ticket hmem
    rcases List.mem_cons.mp hmem with rfl | hmem
    · exact hlt
    · exact Nat.lt_trans (h.2 ticket hmem) hlt

theorem nodup {counter : Nat} {tickets : List Nat}
    (h : Issued counter tickets) : tickets.Nodup :=
  h.1.imp fun hlt heq => absurd hlt (by omega)

end Issued

/-! Matching what is taken with what was given. -/

/-- Where every token that a history takes was given before and no token is
taken twice, each taking has a giving of its own.  Positions count from the
latest record. -/
theorem exists_matching {R : Type u} {K : Type v} {takes gives : R → Option K}
    {history : List R}
    (hgiven : ∀ later r earlier, history = later ++ r :: earlier → ∀ k,
      takes r = some k → ∃ s ∈ earlier, gives s = some k)
    (honce : history.Pairwise fun later earlier => ∀ k,
      takes later = some k → takes earlier ≠ some k) :
    ∃ origin : Nat → Nat,
      (∀ (i : Nat) r k, history[i]? = some r → takes r = some k →
        i < origin i ∧
          ∃ s, history[origin i]? = some s ∧ gives s = some k) ∧
      ∀ (i j : Nat) r r', history[i]? = some r → history[j]? = some r' →
        (takes r).isSome = true → (takes r').isSome = true →
        origin i = origin j → i = j := by
  have hbehind : ∀ i : Nat, ∃ origin : Nat, ∀ r k, history[i]? = some r →
      takes r = some k →
        i < origin ∧ ∃ s, history[origin]? = some s ∧ gives s = some k := by
    intro i
    by_cases htakes : ∃ r k, history[i]? = some r ∧ takes r = some k
    · obtain ⟨r, k, hr, hk⟩ := htakes
      obtain ⟨hlt, hget⟩ := List.getElem?_eq_some_iff.mp hr
      have hsplit : history = history.take i ++ r :: history.drop (i + 1) := by
        rw [← hget, List.getElem_cons_drop, List.take_append_drop]
      obtain ⟨s, hs, hgives⟩ := hgiven _ _ _ hsplit k hk
      obtain ⟨n, hn⟩ := List.mem_iff_getElem?.mp hs
      rw [List.getElem?_drop] at hn
      refine ⟨i + 1 + n, fun r' k' hr' hk' => ⟨by omega, s, hn, ?_⟩⟩
      cases Option.some.inj (hr.symm.trans hr')
      rw [hgives, ← hk, hk']
    · exact ⟨0, fun r k hr hk => absurd ⟨r, k, hr, hk⟩ htakes⟩
  choose origin horigin using hbehind
  refine ⟨origin, horigin, ?_⟩
  intro i j r r' hr hr' hsome hsome' heq
  obtain ⟨k, hk⟩ := Option.isSome_iff_exists.mp hsome
  obtain ⟨k', hk'⟩ := Option.isSome_iff_exists.mp hsome'
  obtain ⟨-, s, hs, hgives⟩ := horigin i r k hr hk
  obtain ⟨-, s', hs', hgives'⟩ := horigin j r' k' hr' hk'
  rw [heq, hs', Option.some.injEq] at hs
  subst hs
  cases Option.some.inj (hgives.symm.trans hgives')
  by_contra hne
  obtain ⟨hlt, rfl⟩ := List.getElem?_eq_some_iff.mp hr
  obtain ⟨hlt', rfl⟩ := List.getElem?_eq_some_iff.mp hr'
  rcases Nat.lt_or_gt_of_ne hne with hij | hij
  · exact List.pairwise_iff_getElem.mp honce i j hlt hlt' hij k hk hk'
  · exact List.pairwise_iff_getElem.mp honce j i hlt' hlt hij k hk' hk

end History
