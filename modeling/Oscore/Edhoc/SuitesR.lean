/-
The suites of an error message.  Their parser counts one byte for each element,
so that it measures the list that the parser of SUITES_I walks through only
where every element is one byte.
-/
import Oscore.Edhoc.Initiator
import Oscore.Edhoc.Suites

namespace Oscore.Edhoc

open Rust Rust.Call

theorem compact_iff (byte : UInt8) :
    Compact byte ↔ (Cbor.int? [byte]).isSome = true := by
  revert byte
  apply forall_byte
  decide +kernel

/-- One integer, or one array of integers. -/
def IsSuites (item : Bytes) : Prop :=
  (Cbor.int? item).isSome = true ∨ Cbor.IsIntList item

/-- An array head that the parser knows, and behind it as many bytes as there
are elements, not all of them integers by themselves. -/
def Miscounted (data : Bytes) : Prop :=
  ∃ head count rest, Cbor.IsArrayHead head count ∧ data = head ++ rest ∧
    count ≤ rest.length ∧ ∃ byte ∈ rest.take count, ¬ Compact byte

/-- Suites behind an initial byte that the parser does not know. -/
def Unread (data : Bytes) : Prop :=
  IsSuites data ∧ ∃ first, data.head? = some first ∧ ¬ first ≤ 0x18 ∧
    ¬ (0x80 ≤ first ∧ first ≤ 0x98)

/-- The length behind an array head, on the assumption that every element is
one byte. -/
theorem parseSuitesR_array {tail : Bytes} {first : UInt8}
    (hsmall : ¬ first ≤ 0x17) (hbyte : first ≠ 0x18) :
    parseSuitesR (first :: tail) = (do
      let (count, size) ← parseArrayHeader (first :: tail) first
      failIf ((first :: tail).length < size + count) .invalidMessage
      return size + count) := by
  have hfirst : byteAt (first :: tail) 0 = .ok first := byteAt_eq_ok.mpr rfl
  rw [parseSuitesR, hfirst, Outcome.ok_bind, if_neg hsmall, if_neg hbyte,
    parseArrayHeader]
  by_cases hshort : 0x80 ≤ first ∧ first ≤ 0x97
  · rw [if_pos hshort, if_pos hshort]
    rfl
  rw [if_neg hshort, if_neg hshort]
  by_cases hlong : first = 0x98
  · rw [if_pos hlong, if_pos hlong, bind_assoc]
    rfl
  · rw [if_neg hlong, if_neg hlong]
    rfl

theorem parseSuitesR_list {tail : Bytes} {first : UInt8} {n : Nat}
    (hsmall : ¬ first ≤ 0x17) (hbyte : first ≠ 0x18) :
    parseSuitesR (first :: tail) = .ok n ↔
      ∃ head count rest, Cbor.IsArrayHead head count ∧
        first :: tail = head ++ rest ∧ count ≤ rest.length ∧
        n = head.length + count := by
  rw [parseSuitesR_array hsmall hbyte]
  simp only [Outcome.bind_eq_ok, Prod.exists, parseArrayHeader_eq_ok,
    failIf_eq_ok, exists_const, Outcome.pure_eq_ok, Except.ok.injEq,
    Nat.not_lt]
  constructor
  · rintro ⟨count, _, ⟨head, rest, hsplit, hhead, rfl⟩, hlen, rfl⟩
    rw [hsplit, List.length_append] at hlen
    exact ⟨head, count, rest, hhead, hsplit, by omega, rfl⟩
  · rintro ⟨head, count, rest, hhead, hsplit, hlen, rfl⟩
    refine ⟨count, _, ⟨head, rest, hsplit, hhead, rfl⟩, ?_, rfl⟩
    rw [hsplit, List.length_append]
    exact Nat.add_le_add_left hlen _

/-- What the parser measures: a value that one byte holds, or an array head and
as many bytes as it counts. -/
theorem parseSuitesR_eq_ok {data : Bytes} {n : Nat} :
    parseSuitesR data = .ok n ↔
      (∃ item rest byte, data = item ++ rest ∧ Cbor.byte? item = some byte ∧
        n = item.length) ∨
      ∃ head count rest, Cbor.IsArrayHead head count ∧ data = head ++ rest ∧
        count ≤ rest.length ∧ n = head.length + count := by
  have hbytes : (∃ item rest byte, data = item ++ rest ∧
      Cbor.byte? item = some byte ∧ n = item.length) ↔
        ∃ byte, Cbor.StartsByte data byte n := by
    constructor
    · rintro ⟨item, rest, byte, h⟩
      exact ⟨byte, item, rest, h⟩
    · rintro ⟨byte, item, rest, h⟩
      exact ⟨item, rest, byte, h⟩
  rw [hbytes]
  cases data with
  | nil =>
      constructor
      · intro h
        cases h
      · rintro (⟨byte, hbyte⟩ | ⟨head, count, rest, hhead, hsplit, -⟩)
        · exact absurd hbyte (Cbor.not_startsByte_nil _ _)
        · obtain ⟨_, _, hnil, -⟩ := hhead.first_gt _ hsplit
          cases hnil
  | cons first tail =>
    have hfirst : byteAt (first :: tail) 0 = .ok first := byteAt_eq_ok.mpr rfl
    have harray : first.toNat ≤ 0x18 → ¬ ∃ head count rest,
        Cbor.IsArrayHead head count ∧ first :: tail = head ++ rest ∧
          count ≤ rest.length ∧ n = head.length + count := by
      rintro hle ⟨head, count, rest, hhead, hsplit, -⟩
      obtain ⟨_, _, hcons, hlt⟩ := hhead.first_gt _ hsplit
      exact Nat.not_lt.mpr hle ((List.cons.inj hcons).1 ▸ hlt)
    by_cases hsmall : first ≤ 0x17
    · have hle : first.toNat ≤ 0x17 := UInt8.le_iff_toNat_le.mp hsmall
      rw [parseSuitesR, hfirst, Outcome.ok_bind, if_pos hsmall,
        or_iff_left (harray (by omega)), Outcome.pure_eq_ok, Except.ok.injEq]
      simp only [Cbor.startsByte_small hle, exists_eq_left]
      exact eq_comm
    by_cases hbyte : first = 0x18
    · subst hbyte
      rw [parseSuitesR, hfirst, Outcome.ok_bind, if_neg hsmall, if_pos rfl,
        or_iff_left (harray (by decide))]
      simp only [Outcome.bind_eq_ok, failIf_eq_ok, exists_const,
        Outcome.pure_eq_ok, Except.ok.injEq, Nat.not_lt, List.length_cons,
        Cbor.startsByte_wide, exists_and_right]
      constructor
      · rintro ⟨hlen, rfl⟩
        exact ⟨⟨_, List.getElem?_eq_getElem (by omega)⟩, rfl⟩
      · rintro ⟨⟨byte, hnext⟩, rfl⟩
        have hlen := (List.getElem?_eq_some_iff.mp hnext).1
        exact ⟨by omega, rfl⟩
    have hlarge : ¬ first.toNat ≤ 0x17 := fun hle =>
      hsmall (UInt8.le_iff_toNat_le.mpr hle)
    rw [parseSuitesR_list hsmall hbyte, or_iff_right fun ⟨byte, h⟩ =>
      Cbor.not_startsByte hlarge hbyte h]

theorem known_of_parseSuitesR {data : Bytes} {n : Nat} {first : UInt8}
    (h : parseSuitesR data = .ok n) (hfirst : data.head? = some first) :
    first ≤ 0x18 ∨ (0x80 ≤ first ∧ first ≤ 0x98) := by
  have hle : ∀ {a b : UInt8}, a.toNat ≤ b.toNat → a ≤ b :=
    UInt8.le_iff_toNat_le.mpr
  rcases parseSuitesR_eq_ok.mp h with ⟨item, rest, byte, rfl, hbyte, -⟩ |
    ⟨head, count, rest, hhead, rfl, -⟩
  · rcases Cbor.byte?_eq_some.mp hbyte with ⟨rfl, hsmall⟩ | rfl
    · cases Option.some.inj hfirst
      exact .inl (hle (le_trans hsmall (by decide)))
    · cases Option.some.inj hfirst
      exact .inl (by decide)
  · rcases hhead with ⟨hcount, own, rfl, hown⟩ | ⟨byte, rfl, -⟩
    · cases Option.some.inj hfirst
      have hlow : (0x80 : UInt8).toNat = 0x80 := rfl
      have hhigh : (0x98 : UInt8).toNat = 0x98 := rfl
      exact .inr ⟨hle (by omega), hle (by omega)⟩
    · cases Option.some.inj hfirst
      exact .inr ⟨by decide, by decide⟩

/-- Elements that are not miscounted are one byte each. -/
theorem length_of_not_miscounted {head rest : Bytes} {items : List Bytes}
    (hhead : Cbor.IsArrayHead head items.length)
    (hints : ∀ item ∈ items, (Cbor.int? item).isSome = true)
    (h : ¬ Miscounted (head ++ (items.flatten ++ rest))) :
    items.flatten.length = items.length := by
  have hbytes : ∀ byte ∈ (items.flatten ++ rest).take items.length,
      (Cbor.int? [byte]).isSome = true := by
    intro byte hmem
    rw [← compact_iff]
    by_contra hbyte
    refine h ⟨head, items.length, _, hhead, rfl, ?_, byte, hmem, hbyte⟩
    rw [List.length_append]
    exact Nat.le_add_right_of_le (Cbor.length_le_flatten hints)
  exact Cbor.length_flatten_eq hints hbytes

/-- What is measured is one item, unless it is miscounted. -/
theorem isSuites_of_not_miscounted {data : Bytes} {n : Nat}
    (h : ¬ Miscounted data) (hparse : parseSuitesR data = .ok n) :
    n ≤ data.length ∧ IsSuites (data.take n) := by
  rcases parseSuitesR_eq_ok.mp hparse with ⟨item, rest, byte, rfl, hbyte, rfl⟩ |
    ⟨head, count, rest, hhead, rfl, hcount, rfl⟩
  · refine ⟨by simp, .inl ?_⟩
    rw [List.take_left, Cbor.int?_of_byte? hbyte]
    rfl
  · have hlength : (rest.take count).length = count :=
      List.length_take_of_le hcount
    refine ⟨by simpa using hcount, .inr ?_⟩
    rw [List.take_length_add_append]
    refine Cbor.isIntList_of_bytes (hlength.symm ▸ hhead.arrayHead) ?_
    intro byte hmem
    rw [← compact_iff]
    by_contra hbyte
    exact h ⟨head, count, rest, hhead, rfl, hcount, byte, hmem, hbyte⟩

/-- What is miscounted is measured as something that is no item. -/
theorem not_isSuites_of_miscounted {data : Bytes} (h : Miscounted data) :
    ∃ n, parseSuitesR data = .ok n ∧ ¬ IsSuites (data.take n) := by
  obtain ⟨head, count, rest, hhead, rfl, hcount, byte, hmem, hbyte⟩ := h
  have hparse : parseSuitesR (head ++ rest) = .ok (head.length + count) :=
    parseSuitesR_eq_ok.mpr
      (.inr ⟨head, count, rest, hhead, rfl, hcount, rfl⟩)
  refine ⟨_, hparse, ?_⟩
  rw [List.take_length_add_append]
  rintro (hint | ⟨head', items, hhead', hsplit, hints⟩)
  · rw [hhead.int?_eq_none] at hint
    cases hint
  · obtain ⟨rfl, hitems, hrest⟩ := hhead.arrayHead.delimits hhead' hsplit
    have hlength : items.flatten.length ≤ items.length := by
      rw [← hrest, ← hitems]
      exact List.length_take_le _ _
    rw [hrest] at hmem
    exact hbyte ((compact_iff byte).mpr
      (Cbor.int?_of_mem_flatten hints hlength byte hmem))

/-- Suites that are neither miscounted nor unread are measured as a whole. -/
theorem parseSuitesR_of_isSuites {data : Bytes} (h : IsSuites data)
    (hcounted : ¬ Miscounted data) (hread : ¬ Unread data) :
    parseSuitesR data = .ok data.length := by
  have hknown : ∀ first, data.head? = some first →
      first ≤ 0x18 ∨ (0x80 ≤ first ∧ first ≤ 0x98) := by
    intro first hfirst
    by_contra hnot
    exact hread ⟨h, first, hfirst, not_or.mp hnot⟩
  rw [parseSuitesR_eq_ok]
  rcases h with hint | ⟨head, items, hhead, rfl, hints⟩
  · cases data with
    | nil => cases hint
    | cons first rest =>
        have hsize := (Cbor.isSome_int?_cons first rest).mp hint
        have hsmall : first.toNat ≤ 0x18 := by
          rcases hknown first rfl with hle | ⟨hle, -⟩
          · exact UInt8.le_iff_toNat_le.mp hle
          · have hlarge := UInt8.le_iff_toNat_le.mp hle
            have hvalue : (0x80 : UInt8).toNat = 0x80 := rfl
            rw [Cbor.intSize?, if_neg (by omega)] at hsize
            cases hsize
        obtain ⟨byte, hbyte⟩ := Cbor.exists_byte? hint hsmall
        exact .inl ⟨_, [], byte, (List.append_nil _).symm, hbyte, rfl⟩
  · obtain ⟨first, more, rfl, hmajor, hcount⟩ := hhead
    have hfirst : first.toNat ≤ 0x98 := by
      rcases hknown first rfl with hle | ⟨-, hle⟩
      · have := UInt8.le_iff_toNat_le.mp hle
        have hvalue : (0x18 : UInt8).toNat = 0x18 := rfl
        omega
      · exact UInt8.le_iff_toNat_le.mp hle
    have hhead : Cbor.ArrayHead (first :: more) items.length :=
      ⟨first, more, rfl, hmajor, hcount⟩
    have hshort := hhead.isArrayHead hfirst
    have hnot : ¬ Miscounted ((first :: more) ++ (items.flatten ++ [])) := by
      rwa [List.append_nil]
    have hlength := length_of_not_miscounted hshort hints hnot
    refine .inr ⟨_, items.length, _, hshort, rfl, le_of_eq hlength.symm, ?_⟩
    rw [List.length_append, hlength]

/-! What the initiator makes of an error message. -/

variable {X : Suite}

/-- An initiator that waits for message 2. -/
def Waits (self : EdhocInitiator) : Prop :=
  self.lifecycle = .message1Created ∧ self.ephSecret ≠ none

theorem outcome_errorMessage {self : EdhocInitiator} (h : Waits self)
    (data : Bytes) :
    outcome (EdhocInitiator.beginProcessMessage2 X (2 :: data)) self =
      .error (.err (errorMessage2 (2 :: data))) := by
  have hrun : (EdhocInitiator.beginProcessMessage2 X (2 :: data)).run self =
      .error (.err (errorMessage2 (2 :: data))) self.poison := by
    rw [EdhocInitiator.beginProcessMessage2, bind_eq_error]
    refine .inr ⟨self, self, rfl, ?_⟩
    have hhead : (2 :: data).head? = some 2 := rfl
    rw [failIf_of_not _ (by simp [h.1, h.2]), if_pos hhead]
    rfl
  rw [outcome, hrun]

theorem errorMessage2_eq_iff (data : Bytes) :
    errorMessage2 (2 :: data) = .unsupportedSuite ↔
      parseSuitesR data = .ok data.length := by
  rw [errorMessage2, List.drop_succ_cons, List.drop_zero, List.length_cons]
  cases parseSuitesR data with
  | error fault => simp
  | ok consumed =>
      simp only [Nat.add_right_cancel_iff, Except.ok.injEq]
      by_cases h : consumed = data.length <;> simp [h]

/-- What the two parsers owe each other and the initiator on one input. -/
structure SuitesAgree (X : Suite) (data : Bytes) : Prop where
  same_length : ∀ suite n, parseSuitesI data = .ok (suite, n) →
    parseSuitesR data = .ok n
  measured : ∀ n, parseSuitesR data = .ok n →
    n ≤ data.length ∧ IsSuites (data.take n)
  reported : IsSuites data → ∀ self : EdhocInitiator, Waits self →
    outcome (EdhocInitiator.beginProcessMessage2 X (2 :: data)) self =
      .error (.err .unsupportedSuite)

/-- The parsers agree, and the initiator reports the suites, exactly on the
inputs that are neither miscounted nor unread. -/
theorem suitesAgree_iff (X : Suite) (data : Bytes) :
    SuitesAgree X data ↔ ¬ Miscounted data ∧ ¬ Unread data := by
  constructor
  · intro h
    constructor
    · intro hmiscounted
      obtain ⟨n, hparse, hnot⟩ := not_isSuites_of_miscounted hmiscounted
      exact hnot (h.measured n hparse).2
    · rintro ⟨hsuites, first, hfirst, hsmall, hlarge⟩
      let self : EdhocInitiator :=
        { EdhocInitiator.new X (zeros 32) (zeros 32) HVec.empty with
          lifecycle := .message1Created }
      have hwaits : Waits self := ⟨rfl, Option.some_ne_none _⟩
      have hreport := h.reported hsuites self hwaits
      rw [outcome_errorMessage hwaits, Except.error.injEq, Fault.err.injEq,
        errorMessage2_eq_iff] at hreport
      rcases known_of_parseSuitesR hreport hfirst with hle | hle
      · exact hsmall hle
      · exact hlarge hle
  · rintro ⟨hcounted, hread⟩
    refine ⟨?_, fun n => isSuites_of_not_miscounted hcounted, ?_⟩
    · intro suite n hparse
      rw [parseSuitesR_eq_ok]
      rcases parseSuitesI_eq_ok.mp hparse with ⟨item, rest, rfl, hbyte, rfl⟩ |
        ⟨head, items, rest, hhead, -, rfl, hints, -, rfl⟩
      · exact .inl ⟨item, rest, suite, rfl, hbyte, rfl⟩
      · have hlength := length_of_not_miscounted hhead hints hcounted
        refine .inr ⟨head, items.length, _, hhead, rfl, ?_, ?_⟩
        · rw [List.length_append, hlength]
          exact Nat.le_add_right _ _
        · rw [hlength]
    · intro hsuites self hwaits
      rw [outcome_errorMessage hwaits, (errorMessage2_eq_iff data).mpr
        (parseSuitesR_of_isSuites hsuites hcounted hread)]

/-- A suite of two bytes in the list: the parsers disagree on its length, and
what one of them measures is no list. -/
theorem wide_suite_separates_parsers :
    parseSuitesI [0x82, 0x18, 0x19, 0x00] = .ok (0x19, 4) ∧
      parseSuitesR [0x82, 0x18, 0x19, 0x00] = .ok 3 ∧
      ¬ SuitesAgree .standIn [0x82, 0x18, 0x19, 0x00] := by
  refine ⟨rfl, rfl, fun h => ?_⟩
  have hlength := h.same_length 0x19 4 rfl
  exact absurd (Except.ok.inj hlength) (by decide)

end Oscore.Edhoc
