/-
Which suite the parser of SUITES_I selects: the first element of the list that
one byte holds.  Elements before it are passed over, whatever their value.
-/
import Oscore.Edhoc.Cbor

namespace Oscore.Edhoc

open Rust

theorem length_of_drop {data tail : Bytes} {offset : Nat} {elem : UInt8}
    (h : data.drop offset = elem :: tail) :
    data.length = offset + (tail.length + 1) ∧
      data[offset]? = some elem := by
  have hlength := congrArg List.length h
  rw [List.length_drop, List.length_cons] at hlength
  have helem := congrArg (·[0]?) h
  rw [List.getElem?_drop] at helem
  exact ⟨by omega, helem⟩

/-- An element of the given size in front of the rest of the input. -/
def sized (tail : Bytes) (value : Option UInt8) (size : Nat) :
    Outcome EdhocError (Option UInt8 × Nat) :=
  if size ≤ tail.length + 1 then .ok (value, size)
  else .error (.err .invalidMessage)

theorem wideSuite_eq {data tail : Bytes} {offset : Nat} {elem : UInt8}
    (h : data.drop offset = elem :: tail) (size : Nat) :
    wideSuite data offset size = sized tail none size := by
  obtain ⟨hlength, -⟩ := length_of_drop h
  by_cases hfit : size ≤ tail.length + 1
  · rw [sized, if_pos hfit, wideSuite, failIf_of_not _ (by omega)]
    rfl
  · have hlong : offset + size > data.length := by omega
    rw [sized, if_neg hfit, wideSuite, failIf, if_pos hlong]
    rfl

/-- No byte holds the value of an item of several bytes, unless its initial
byte announces one. -/
theorem byte?_wide {item : Bytes} {first : UInt8} {rest : Bytes}
    (hitem : item = first :: rest) (hrest : rest ≠ [])
    (hfirst : first.toNat ≠ 0x18) : Cbor.byte? item = none := by
  unfold Cbor.byte?
  split
  · rename_i byte
    exact absurd (List.cons.inj hitem).2.symm hrest
  · rename_i first' byte
    rw [(List.cons.inj hitem).1, if_neg hfirst]
  · rfl

theorem wideSuite_sized {data tail : Bytes} {offset : Nat} {elem : UInt8}
    (h : data.drop offset = elem :: tail) {size : Nat} (hsize : 2 ≤ size)
    (helem : elem.toNat ≠ 0x18) :
    wideSuite data offset size =
      sized tail (Cbor.byte? ((elem :: tail).take size)) size := by
  rw [wideSuite_eq h]
  by_cases hfit : size ≤ tail.length + 1
  · have hrest : tail.take (size - 1) ≠ [] := by
      intro hnil
      have hlength := congrArg List.length hnil
      rw [List.length_take, List.length_nil] at hlength
      omega
    have hitem : (elem :: tail).take size = elem :: tail.take (size - 1) := by
      obtain ⟨rest, rfl⟩ : ∃ rest, size = rest + 1 := ⟨size - 1, by omega⟩
      rfl
    rw [byte?_wide hitem hrest helem]
  · simp [sized, hfit]

theorem intSize?_of_small {elem : UInt8}
    (h : elem ≤ 0x17 ∨ (0x20 ≤ elem ∧ elem ≤ 0x37)) :
    Cbor.intSize? elem = some 1 := by
  simp only [UInt8.le_iff_toNat_le, UInt8.reduceToNat] at h
  rw [Cbor.intSize?, if_pos (by omega), if_pos (by omega)]

/-- No other initial byte starts an integer. -/
theorem intSize?_eq_none {elem : UInt8}
    (hsmall : ¬ (elem ≤ 0x17 ∨ (0x20 ≤ elem ∧ elem ≤ 0x37)))
    (hwide : ∀ byte ∈ ([0x18, 0x19, 0x1a, 0x1b, 0x38, 0x39, 0x3a, 0x3b] :
      List UInt8), elem ≠ byte) : Cbor.intSize? elem = none := by
  simp only [UInt8.le_iff_toNat_le, UInt8.reduceToNat] at hsmall
  simp only [List.forall_mem_cons, ne_eq, ← UInt8.toNat_inj,
    UInt8.reduceToNat] at hwide
  unfold Cbor.intSize?
  split
  · rw [if_neg (by omega), if_neg (by omega)]
  · rfl

/-- What the parser makes of one element, by the size of the integer that it
starts. -/
theorem parseSuite_eq {data tail : Bytes} {offset : Nat} {elem : UInt8}
    (h : data.drop offset = elem :: tail) :
    parseSuite data offset =
      match Cbor.intSize? elem with
      | some size => sized tail (Cbor.byte? ((elem :: tail).take size)) size
      | none => .error (.err .invalidMessage) := by
  obtain ⟨hlength, helem⟩ := length_of_drop h
  rw [parseSuite, byteAt_eq_ok.mpr helem, Outcome.ok_bind]
  have hone : ∀ value, sized tail value 1 = .ok (value, 1) :=
    fun value => if_pos (by omega)
  by_cases hsmall : elem ≤ 0x17
  · have hle : elem.toNat ≤ 0x17 := UInt8.le_iff_toNat_le.mp hsmall
    rw [if_pos hsmall, intSize?_of_small (.inl hsmall)]
    simp [hone, Cbor.byte?, hle]
  rw [if_neg hsmall]
  by_cases hbyte : elem = 0x18
  · subst hbyte
    rw [if_pos rfl]
    have hsize : Cbor.intSize? 0x18 = some 2 := rfl
    rw [hsize]
    have hnext : data[offset + 1]? = tail[0]? := by
      rw [← List.getElem?_drop, h]
      rfl
    rw [byteAt_eq, hnext]
    cases tail <;> rfl
  rw [if_neg hbyte]
  by_cases h19 : elem = 0x19
  · subst h19
    exact wideSuite_sized h (by decide) (by decide)
  rw [if_neg h19]
  by_cases h1a : elem = 0x1a
  · subst h1a
    exact wideSuite_sized h (by decide) (by decide)
  rw [if_neg h1a]
  by_cases h1b : elem = 0x1b
  · subst h1b
    exact wideSuite_sized h (by decide) (by decide)
  rw [if_neg h1b]
  by_cases hneg : 0x20 ≤ elem ∧ elem ≤ 0x37
  · have hbig : ¬ elem.toNat ≤ 0x17 := fun hle =>
      hsmall (UInt8.le_iff_toNat_le.mpr hle)
    rw [if_pos hneg, intSize?_of_small (.inr hneg)]
    simp [hone, Cbor.byte?, hbig]
  rw [if_neg hneg]
  by_cases h38 : elem = 0x38
  · subst h38
    exact wideSuite_sized h (by decide) (by decide)
  rw [if_neg h38]
  by_cases h39 : elem = 0x39
  · subst h39
    exact wideSuite_sized h (by decide) (by decide)
  rw [if_neg h39]
  by_cases h3a : elem = 0x3a
  · subst h3a
    exact wideSuite_sized h (by decide) (by decide)
  rw [if_neg h3a]
  by_cases h3b : elem = 0x3b
  · subst h3b
    exact wideSuite_sized h (by decide) (by decide)
  rw [if_neg h3b]
  have hwide : ∀ byte ∈ ([0x18, 0x19, 0x1a, 0x1b, 0x38, 0x39, 0x3a, 0x3b] :
      List UInt8), elem ≠ byte := by
    simp [hbyte, h19, h1a, h1b, h38, h39, h3a, h3b]
  rw [intSize?_eq_none (not_or.mpr ⟨hsmall, hneg⟩) hwide]
  rfl

theorem parseSuite_eq_ok {data : Bytes} {offset size : Nat}
    {value : Option UInt8} :
    parseSuite data offset = .ok (value, size) ↔
      ∃ item rest, data.drop offset = item ++ rest ∧
        (Cbor.int? item).isSome = true ∧ size = item.length ∧
        value = Cbor.byte? item := by
  cases h : data.drop offset with
  | nil =>
      have hnone : data[offset]? = none :=
        List.getElem?_eq_none (List.drop_eq_nil_iff.mp h)
      constructor
      · intro hparse
        rw [parseSuite, byteAt_eq, hnone] at hparse
        cases hparse
      · rintro ⟨item, rest, hsplit, hint, -⟩
        rw [(List.append_eq_nil_iff.mp hsplit.symm).1] at hint
        cases hint
  | cons elem tail =>
      rw [parseSuite_eq h]
      constructor
      · intro hparse
        split at hparse
        · rename_i size' hsize
          unfold sized at hparse
          split at hparse
          · rename_i hfit
            obtain ⟨rfl, rfl⟩ := Prod.mk.inj (Except.ok.inj hparse)
            obtain ⟨n, rfl⟩ := Nat.exists_eq_succ_of_ne_zero
              (Nat.pos_iff_ne_zero.mp (Cbor.intSize?_pos hsize))
            have hlength : (tail.take n).length = n :=
              List.length_take_of_le (by omega)
            refine ⟨elem :: tail.take n, tail.drop n, ?_, ?_, ?_, rfl⟩
            · rw [List.cons_append, List.take_append_drop]
            · rw [Cbor.isSome_int?_cons, hlength, hsize]
            · rw [List.length_cons, hlength]
          · cases hparse
        · cases hparse
      · rintro ⟨item, rest, hsplit, hint, rfl, rfl⟩
        cases item with
        | nil => cases hint
        | cons first more =>
            rw [List.cons_append] at hsplit
            obtain ⟨rfl, rfl⟩ := List.cons.inj hsplit
            rw [Cbor.isSome_int?_cons] at hint
            simp only [hint, sized]
            rw [if_pos (by simp), List.take_succ_cons, List.take_left]
            rfl

/-- The loop reads a run of integers and keeps the first byte it finds. -/
theorem parseSuites_eq_ok {data : Bytes} {count offset last : Nat}
    {selected found : Option UInt8} :
    parseSuites data count offset selected = .ok (found, last) ↔
      ∃ (items : List Bytes) (rest : Bytes), items.length = count ∧
        data.drop offset = items.flatten ++ rest ∧
        (∀ item ∈ items, (Cbor.int? item).isSome = true) ∧
        last = offset + items.flatten.length ∧
        found = selected.or (items.findSome? Cbor.byte?) := by
  induction count generalizing offset selected with
  | zero =>
      simp only [parseSuites, Outcome.pure_eq_ok, Except.ok.injEq,
        Prod.mk.injEq, List.length_eq_zero_iff]
      constructor
      · rintro ⟨rfl, rfl⟩
        exact ⟨[], data.drop offset, rfl, rfl, by simp, rfl, by simp⟩
      · rintro ⟨_, rest, rfl, -, -, rfl, rfl⟩
        exact ⟨by simp, rfl⟩
  | succ count ih =>
      have hkeep : ∀ value : Option UInt8,
          (if selected.isNone then value else selected) =
            selected.or value := by
        intro value
        cases selected <;> rfl
      simp only [parseSuites, Outcome.bind_eq_ok, Prod.exists, hkeep,
        parseSuite_eq_ok, ih]
      constructor
      · rintro ⟨_, _, ⟨item, behind, hitem, hint, rfl, rfl⟩, items, rest, rfl,
          hrest, hints, rfl, rfl⟩
        refine ⟨item :: items, rest, rfl, ?_, ?_, ?_, ?_⟩
        · have hbehind : behind = items.flatten ++ rest := by
            rw [← hrest, ← List.drop_drop, hitem, List.drop_left]
          rw [hitem, hbehind, List.flatten_cons, List.append_assoc]
        · intro elem hmem
          rcases List.mem_cons.mp hmem with rfl | hmem
          · exact hint
          · exact hints elem hmem
        · rw [List.flatten_cons, List.length_append, Nat.add_assoc]
        · rw [List.findSome?_cons]
          cases Cbor.byte? item <;> cases selected <;> rfl
      · rintro ⟨items, rest, hcount, hdrop, hints, rfl, rfl⟩
        cases items with
        | nil => cases hcount
        | cons item items =>
            rw [List.flatten_cons, List.append_assoc] at hdrop
            refine ⟨Cbor.byte? item, item.length,
              ⟨item, items.flatten ++ rest, hdrop,
                hints item List.mem_cons_self, rfl, rfl⟩,
              items, rest, Nat.succ.inj hcount, ?_, ?_, ?_, ?_⟩
            · rw [← List.drop_drop, hdrop, List.drop_left]
            · exact fun elem hmem => hints elem (List.mem_cons_of_mem _ hmem)
            · rw [List.flatten_cons, List.length_append, Nat.add_assoc]
            · rw [List.findSome?_cons]
              cases Cbor.byte? item <;> cases selected <;> rfl

theorem parseArrayHeader_eq_ok {tail : Bytes} {first : UInt8}
    {count size : Nat} :
    parseArrayHeader (first :: tail) first = .ok (count, size) ↔
      ∃ head rest, first :: tail = head ++ rest ∧
        Cbor.IsArrayHead head count ∧ size = head.length := by
  unfold parseArrayHeader
  have hbounds : 0x80 ≤ first ∧ first ≤ 0x97 ↔
      0x80 ≤ first.toNat ∧ first.toNat ≤ 0x97 := by
    rw [UInt8.le_iff_toNat_le, UInt8.le_iff_toNat_le]
    rfl
  by_cases hshort : 0x80 ≤ first ∧ first ≤ 0x97
  · have hle := hbounds.mp hshort
    have hcount : (first - 0x80).toNat = first.toNat - 0x80 :=
      UInt8.toNat_sub_of_le _ _ hshort.1
    rw [if_pos hshort, Outcome.pure_eq_ok, Except.ok.injEq, Prod.mk.injEq,
      hcount]
    constructor
    · rintro ⟨rfl, rfl⟩
      exact ⟨[first], tail, rfl, Or.inl ⟨by omega, first, rfl, by omega⟩, rfl⟩
    · rintro ⟨head, rest, hsplit, ⟨-, byte, rfl, hbyte⟩ | ⟨byte, rfl, -⟩, rfl⟩
      · obtain ⟨rfl, -⟩ := List.cons.inj hsplit
        exact ⟨by omega, rfl⟩
      · obtain ⟨rfl, -⟩ := List.cons.inj hsplit
        exact absurd hle.2 (by decide)
  · rw [if_neg hshort]
    by_cases hlong : first = 0x98
    · subst hlong
      rw [if_pos rfl]
      simp only [Outcome.bind_eq_ok, byteAt_eq_ok, Outcome.pure_eq_ok,
        Except.ok.injEq, Prod.mk.injEq, List.getElem?_cons_succ]
      constructor
      · rintro ⟨byte, hbyte, rfl, rfl⟩
        cases tail with
        | nil => cases hbyte
        | cons value rest =>
            cases Option.some.inj hbyte
            exact ⟨[0x98, byte], rest, rfl, Or.inr ⟨byte, rfl, rfl⟩, rfl⟩
      · rintro ⟨head, rest, hsplit, ⟨hle, byte, rfl, hbyte⟩ |
          ⟨byte, rfl, rfl⟩, rfl⟩
        · obtain ⟨rfl, -⟩ := List.cons.inj hsplit
          have hvalue : (0x98 : UInt8).toNat = 0x98 := rfl
          omega
        · obtain ⟨-, rfl⟩ := List.cons.inj hsplit
          exact ⟨byte, rfl, rfl, rfl⟩
    · rw [if_neg hlong]
      constructor
      · intro h
        cases h
      · rintro ⟨head, rest, hsplit, ⟨hle, byte, rfl, hbyte⟩ | ⟨byte, rfl, -⟩,
          rfl⟩
        · obtain ⟨rfl, -⟩ := List.cons.inj hsplit
          exact absurd (hbounds.mpr ⟨by omega, by omega⟩) hshort
        · obtain ⟨rfl, -⟩ := List.cons.inj hsplit
          exact absurd rfl hlong

/-- A list of suites in front of the input: its elements are integers, and the
first of them that a byte holds is `suite`. -/
def SuiteList (data : Bytes) (suite : UInt8) (n : Nat) : Prop :=
  ∃ (head : Bytes) (items : List Bytes) (rest : Bytes),
    Cbor.IsArrayHead head items.length ∧ items ≠ [] ∧
      data = head ++ (items.flatten ++ rest) ∧
      (∀ item ∈ items, (Cbor.int? item).isSome = true) ∧
      items.findSome? Cbor.byte? = some suite ∧
      n = head.length + items.flatten.length

theorem parseSuitesI_list {tail : Bytes} {first suite : UInt8} {n : Nat}
    (hsmall : ¬ first ≤ 0x17) (hbyte : first ≠ 0x18) :
    parseSuitesI (first :: tail) = .ok (suite, n) ↔
      SuiteList (first :: tail) suite n := by
  have hfirst : byteAt (first :: tail) 0 = .ok first := byteAt_eq_ok.mpr rfl
  rw [parseSuitesI, hfirst, Outcome.ok_bind, if_neg hsmall, if_neg hbyte]
  simp only [Outcome.bind_eq_ok, Prod.exists, parseArrayHeader_eq_ok,
    failIf_eq_ok, exists_const, parseSuites_eq_ok, okOr_eq_ok,
    Outcome.pure_eq_ok, Except.ok.injEq, Prod.mk.injEq, Option.none_or]
  constructor
  · rintro ⟨count, _, ⟨head, behind, hsplit, hhead, rfl⟩, hpos, found, _,
      ⟨items, rest, rfl, hdrop, hints, rfl, rfl⟩, _, hfound, rfl, rfl⟩
    refine ⟨head, items, rest, hhead, ?_, ?_, hints, hfound, rfl⟩
    · rintro rfl
      exact hpos rfl
    · rw [hsplit, List.drop_left] at hdrop
      rw [hsplit, hdrop]
  · rintro ⟨head, items, rest, hhead, hne, hsplit, hints, hfound, rfl⟩
    refine ⟨items.length, head.length, ⟨head, _, hsplit, hhead, rfl⟩, ?_,
      some suite, _, ⟨items, rest, rfl, ?_, hints, rfl, hfound.symm⟩, suite,
      rfl, rfl, rfl⟩
    · exact fun hzero => hne (List.length_eq_zero_iff.mp hzero)
    · rw [hsplit, List.drop_left]

/-- A single suite, or a list of them. -/
theorem SuiteList.first_gt {data : Bytes} {suite : UInt8} {n : Nat}
    (h : SuiteList data suite n) :
    ∃ first tail, data = first :: tail ∧ 0x18 < first.toNat := by
  obtain ⟨head, items, rest, hhead, -, hsplit, -⟩ := h
  exact hhead.first_gt _ hsplit

theorem parseSuitesI_eq_ok {data : Bytes} {suite : UInt8} {n : Nat} :
    parseSuitesI data = .ok (suite, n) ↔
      (∃ item rest, data = item ++ rest ∧ Cbor.byte? item = some suite ∧
        n = item.length) ∨ SuiteList data suite n := by
  change _ ↔ Cbor.StartsByte data suite n ∨ _
  cases data with
  | nil =>
      rw [or_iff_right (Cbor.not_startsByte_nil _ _)]
      constructor
      · intro h
        cases h
      · intro h
        obtain ⟨_, _, hnil, -⟩ := h.first_gt
        cases hnil
  | cons first tail =>
    have hfirst : byteAt (first :: tail) 0 = .ok first := byteAt_eq_ok.mpr rfl
    have hlist : first.toNat ≤ 0x18 → ¬ SuiteList (first :: tail) suite n := by
      intro hle h
      obtain ⟨_, _, hsplit, hlt⟩ := h.first_gt
      exact Nat.not_lt.mpr hle ((List.cons.inj hsplit).1 ▸ hlt)
    by_cases hsmall : first ≤ 0x17
    · have hle : first.toNat ≤ 0x17 := UInt8.le_iff_toNat_le.mp hsmall
      rw [parseSuitesI, hfirst, Outcome.ok_bind, if_pos hsmall,
        or_iff_left (hlist (by omega)), Cbor.startsByte_small hle,
        Outcome.pure_eq_ok, Except.ok.injEq, Prod.mk.injEq, eq_comm,
        @eq_comm _ n]
    by_cases hbyte : first = 0x18
    · subst hbyte
      rw [parseSuitesI, hfirst, Outcome.ok_bind, if_neg hsmall, if_pos rfl,
        or_iff_left (hlist (by decide)), Cbor.startsByte_wide]
      simp only [Outcome.bind_eq_ok, byteAt_eq_ok, Outcome.pure_eq_ok,
        Except.ok.injEq, Prod.mk.injEq, List.getElem?_cons_succ]
      constructor
      · rintro ⟨byte, hnext, rfl, rfl⟩
        exact ⟨hnext, rfl⟩
      · rintro ⟨hnext, rfl⟩
        exact ⟨suite, hnext, rfl, rfl⟩
    have hlarge : ¬ first.toNat ≤ 0x17 := fun hle =>
      hsmall (UInt8.le_iff_toNat_le.mpr hle)
    rw [parseSuitesI_list hsmall hbyte,
      or_iff_right (Cbor.not_startsByte hlarge hbyte)]

/-! The suite that stands first. -/

/-- The first `n` bytes are one integer, or one non-empty array of integers,
and `suite` is the value of that integer or of the first element. -/
def FirstSuite (data : Bytes) (suite : UInt8) (n : Nat) : Prop :=
  n ≤ data.length ∧
    (Cbor.int? (data.take n) = some (suite.toNat : Int) ∨
      Cbor.IsIntArray (data.take n) suite.toNat)

/-- A complete array of integers whose first element is not the value of the
first element that a byte holds. -/
def Misread (data : Bytes) : Prop :=
  ∃ (head first : Bytes) (items : List Bytes) (rest : Bytes) (byte : UInt8),
    Cbor.IsArrayHead head (items.length + 1) ∧
      data = head ++ (first ++ (items.flatten ++ rest)) ∧
      (∀ item ∈ items, (Cbor.int? item).isSome = true) ∧
      (Cbor.int? first).isSome = true ∧ Cbor.byte? first = none ∧
      items.findSome? Cbor.byte? = some byte ∧
      Cbor.int? first ≠ some (byte.toNat : Int)

theorem firstSuite_of_not_misread {data : Bytes} {suite : UInt8} {n : Nat}
    (h : ¬ Misread data) (hparse : parseSuitesI data = .ok (suite, n)) :
    FirstSuite data suite n := by
  rcases parseSuitesI_eq_ok.mp hparse with ⟨item, rest, rfl, hbyte, rfl⟩ |
    ⟨head, items, rest, hhead, hne, rfl, hints, hfound, rfl⟩
  · refine ⟨by simp, Or.inl ?_⟩
    rw [List.take_left]
    exact Cbor.int?_of_byte? hbyte
  · obtain ⟨first, items, rfl⟩ := List.exists_cons_of_ne_nil hne
    rw [← List.length_append, ← List.append_assoc]
    refine ⟨by simp, Or.inr ?_⟩
    rw [List.take_left, List.flatten_cons]
    refine ⟨head, first, items, hhead, rfl, ?_, fun item hmem =>
      hints item (List.mem_cons_of_mem _ hmem)⟩
    rw [List.findSome?_cons] at hfound
    cases hbyte : Cbor.byte? first with
    | some byte =>
        rw [hbyte] at hfound
        cases hfound
        exact Cbor.int?_of_byte? hbyte
    | none =>
        rw [hbyte] at hfound
        by_contra hvalue
        exact h ⟨head, first, items, rest, suite, hhead,
          by rw [List.flatten_cons, List.append_assoc],
          fun item hmem => hints item (List.mem_cons_of_mem _ hmem),
          hints first List.mem_cons_self, hbyte, hfound, hvalue⟩

theorem not_firstSuite_of_misread {data : Bytes} (h : Misread data) :
    ∃ suite n, parseSuitesI data = .ok (suite, n) ∧
      ¬ FirstSuite data suite n := by
  obtain ⟨head, first, items, rest, byte, hhead, rfl, hints, hfirst, hnone,
    hfound, hvalue⟩ := h
  refine ⟨byte, head.length + (first :: items).flatten.length,
    parseSuitesI_eq_ok.mpr (Or.inr ⟨head, first :: items, rest, hhead, by simp,
      ?_, ?_, ?_, rfl⟩), ?_⟩
  · rw [List.flatten_cons, List.append_assoc]
  · intro item hmem
    rcases List.mem_cons.mp hmem with rfl | hmem
    · exact hfirst
    · exact hints item hmem
  · rw [List.findSome?_cons, hnone]
    exact hfound
  · have htake : (head ++ (first ++ (items.flatten ++ rest))).take
        (head.length + (first :: items).flatten.length) =
          head ++ (first ++ items.flatten) := by
      rw [← List.length_append, ← List.append_assoc first,
        ← List.append_assoc head, List.flatten_cons, List.take_left]
    rintro ⟨-, hint | ⟨head', first', items', hhead', hsplit, hfirst', -⟩⟩
    · rw [htake, hhead.int?_eq_none] at hint
      cases hint
    · rw [htake] at hsplit
      obtain ⟨rfl, -, hrest⟩ := hhead.delimits hhead' hsplit
      obtain ⟨rfl, -⟩ := Cbor.int?_delimits first hfirst first'
        (by simp [hfirst']) _ _ hrest
      exact hvalue hfirst'

/-- The parser returns the first suite exactly on the inputs that it does not
misread. -/
theorem parseSuitesI_first_iff (data : Bytes) :
    (∀ suite n, parseSuitesI data = .ok (suite, n) →
      FirstSuite data suite n) ↔ ¬ Misread data := by
  constructor
  · intro h hmisread
    obtain ⟨suite, n, hparse, hnot⟩ := not_firstSuite_of_misread hmisread
    exact hnot (h suite n hparse)
  · intro h suite n hparse
    exact firstSuite_of_not_misread h hparse

end Oscore.Edhoc
