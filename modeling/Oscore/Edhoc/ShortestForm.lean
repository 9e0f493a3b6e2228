/-
Which accepted ID_CREDs are in shortest form and free of repeated labels.  The
parser checks the labels it knows and the `kid`; the rest is measured only, and
is as short, and as distinct, as its sender made it.
-/
import Oscore.Edhoc.SkipValue

namespace Oscore.Edhoc

open Rust Cbor

variable {data : Bytes} {n : Nat}

/-! Labels, and what the parser leaves unchecked. -/

/-- The label that the parser reads from a key, if it knows its form. -/
def labelOf (key : Item) : Option Int :=
  (tryParseCborInt key.encode).map Prod.fst

/-- The parts of a value that are only measured. -/
def uncheckedValue (label : Int) (value : Item) : List Item :=
  match label with
  | 4 => []
  | 2 | 34 =>
      if value.head.major = 4 then
        value.children.filter fun item => labelOf item = none
      else [value]
  | _ => [value]

/-- The parts of a pair that are only measured. -/
def unchecked (pair : Item × Item) : List Item :=
  match labelOf pair.1 with
  | some label => uncheckedValue label pair.2
  | none => [pair.1, pair.2]

theorem uncheckedValue_array {label : Int} {value : Item}
    (hlabel : label = 2 ∨ label = 34) (hvalue : value.head.major = 4) :
    uncheckedValue label value =
      value.children.filter fun item => labelOf item = none := by
  rcases hlabel with rfl | rfl <;> simp [uncheckedValue, hvalue]

theorem uncheckedValue_noArray {label : Int} {value : Item}
    (hlabel : label = 2 ∨ label = 34) (hvalue : value.head.major ≠ 4) :
    uncheckedValue label value = [value] := by
  rcases hlabel with rfl | rfl <;> simp [uncheckedValue, hvalue]

theorem uncheckedValue_other {label : Int} {value : Item}
    (hlabel : label ≠ 2 ∧ label ≠ 4 ∧ label ≠ 34) :
    uncheckedValue label value = [value] := by
  obtain ⟨hne, hkid, hne'⟩ := hlabel
  simp [uncheckedValue]

theorem unchecked_of_label {key value : Item} {label : Int}
    (h : labelOf key = some label) :
    unchecked (key, value) = uncheckedValue label value := by
  simp only [unchecked, h]

theorem unchecked_of_none {key value : Item} (h : labelOf key = none) :
    unchecked (key, value) = [key, value] := by
  simp only [unchecked, h]

theorem sameTo_of_item {item : Item} (h : ReadsItem data n item) :
    SameTo n data item.encode := by
  have hsame := SameTo.append h.2.1 []
  rwa [List.append_nil, ← h.1] at hsame

theorem labelOf_eq_some {item : Item} {val : Int} (h : ReadsItem data n item)
    (hint : tryParseCborInt data = some (val, n)) :
    labelOf item = some val := by
  rw [labelOf, tryParseCborInt_same hint (sameTo_of_item h)]
  rfl

theorem labelOf_eq_none {item : Item} (h : ReadsItem data n item)
    (hint : tryParseCborInt data = none)
    (hskip : skipCborValue data = .ok n) : labelOf item = none := by
  rw [labelOf, tryParseCborInt_same_none hint hskip (sameTo_of_item h)]
  rfl

/-- An item that is read as an integer is one as a whole. -/
theorem whole_of_tryParseCborInt {item : Item} {val : Int} {size : Nat}
    (h : tryParseCborInt item.encode = some (val, size)) :
    item.Shortest ∧ size = item.encode.length := by
  obtain ⟨other, hother, hshort⟩ := tryParseCborInt_item h
  have hsplit : other.encode ++ item.encode.drop size = item.encode ++ [] := by
    rw [hother.1, List.take_append_drop, List.append_nil]
  have heq := (Item.delimits other item _ _ hsplit).1
  have hlength := congrArg List.length hother.1
  rw [heq, List.length_take, Nat.min_eq_left hother.2.1] at hlength
  exact ⟨heq ▸ hshort, hlength.symm⟩

/-- A key of a known form is in its shortest form. -/
theorem shortest_of_labelOf {item : Item} {label : Int}
    (h : labelOf item = some label) : item.Shortest := by
  obtain ⟨⟨val, size⟩, hint, -⟩ := Option.map_eq_some_iff.mp h
  exact (whole_of_tryParseCborInt hint).1

/-! The same without the parser. -/

/-- The item is no integer of up to 16 bits in its shortest form. -/
def NoShortInt (item : Item) : Prop := ∀ label, ¬ IntForm item.encode label

/-- The parts of a pair that are only measured: a key that is not read, with its
value; and the value of a key that is read, unless it is the `kid` (label 4), or
of an array in the place of an `alg` or `x5t` value (labels 2 and 34) the
elements that are not read. -/
inductive OnlyMeasured : Item × Item → Item → Prop
  | unreadKey {key value : Item} (h : NoShortInt key) :
      OnlyMeasured (key, value) key
  | unreadValue {key value : Item} (h : NoShortInt key) :
      OnlyMeasured (key, value) value
  | value {key value : Item} {label : Int} (h : IntForm key.encode label)
      (hlabel : label ≠ 2 ∧ label ≠ 4 ∧ label ≠ 34) :
      OnlyMeasured (key, value) value
  | noArray {key value : Item} {label : Int} (h : IntForm key.encode label)
      (hlabel : label = 2 ∨ label = 34) (hvalue : value.head.major ≠ 4) :
      OnlyMeasured (key, value) value
  | element {key value elem : Item} {label : Int}
      (h : IntForm key.encode label) (hlabel : label = 2 ∨ label = 34)
      (hvalue : value.head.major = 4) (helem : elem ∈ value.children)
      (hunread : NoShortInt elem) : OnlyMeasured (key, value) elem

theorem labelOf_eq_some_iff {item : Item} {label : Int} :
    labelOf item = some label ↔ IntForm item.encode label := by
  constructor
  · intro h
    obtain ⟨⟨val, size⟩, hint, rfl⟩ := Option.map_eq_some_iff.mp h
    have hsize := (whole_of_tryParseCborInt hint).2
    obtain ⟨form, rest, hsplit, hform, rfl⟩ := tryParseCborInt_eq_some.mp hint
    have hrest : rest = [] := by
      rw [hsplit, List.length_append] at hsize
      exact List.eq_nil_of_length_eq_zero (by omega)
    rwa [hsplit, hrest, List.append_nil]
  · intro h
    have hint := tryParseCborInt_eq_some.mpr
      ⟨item.encode, [], (List.append_nil _).symm, h, rfl⟩
    rw [labelOf, hint]
    rfl

theorem labelOf_eq_none_iff {item : Item} :
    labelOf item = none ↔ NoShortInt item := by
  rw [Option.eq_none_iff_forall_not_mem]
  exact forall_congr' fun label => not_congr labelOf_eq_some_iff

theorem mem_uncheckedValue {key value part : Item} {label : Int}
    (h : IntForm key.encode label) :
    part ∈ uncheckedValue label value ↔ OnlyMeasured (key, value) part := by
  have hsame : ∀ {other}, IntForm key.encode other → other = label := by
    intro other hother
    exact Option.some.inj ((labelOf_eq_some_iff.mpr hother).symm.trans
      (labelOf_eq_some_iff.mpr h))
  have hread : ¬ NoShortInt key := fun hunread => hunread label h
  constructor
  · intro hmem
    by_cases harray : label = 2 ∨ label = 34
    · by_cases hvalue : value.head.major = 4
      · rw [uncheckedValue_array harray hvalue] at hmem
        obtain ⟨helem, hnone⟩ := List.mem_filter.mp hmem
        exact .element h harray hvalue helem
          (labelOf_eq_none_iff.mp (of_decide_eq_true hnone))
      · rw [uncheckedValue_noArray harray hvalue] at hmem
        obtain rfl := List.mem_singleton.mp hmem
        exact .noArray h harray hvalue
    · obtain ⟨hne, hne'⟩ := not_or.mp harray
      by_cases hkid : label = 4
      · rw [hkid] at hmem
        exact absurd hmem List.not_mem_nil
      · rw [uncheckedValue_other ⟨hne, hkid, hne'⟩] at hmem
        obtain rfl := List.mem_singleton.mp hmem
        exact .value h ⟨hne, hkid, hne'⟩
  · intro hmeasured
    cases hmeasured with
    | unreadKey hunread => exact absurd hunread hread
    | unreadValue hunread => exact absurd hunread hread
    | value hform hlabel =>
        rw [uncheckedValue_other (hsame hform ▸ hlabel)]
        exact .head _
    | noArray hform hlabel hvalue =>
        rw [uncheckedValue_noArray (hsame hform ▸ hlabel) hvalue]
        exact .head _
    | element hform hlabel hvalue helem hunread =>
        rw [uncheckedValue_array (hsame hform ▸ hlabel) hvalue]
        exact List.mem_filter.mpr
          ⟨helem, decide_eq_true (labelOf_eq_none_iff.mpr hunread)⟩

theorem mem_unchecked {pair : Item × Item} {part : Item} :
    part ∈ unchecked pair ↔ OnlyMeasured pair part := by
  obtain ⟨key, value⟩ := pair
  cases hlabel : labelOf key with
  | some label =>
      rw [unchecked_of_label hlabel]
      exact mem_uncheckedValue (labelOf_eq_some_iff.mp hlabel)
  | none =>
      have hunread := labelOf_eq_none_iff.mp hlabel
      rw [unchecked_of_none hlabel]
      constructor
      · intro hmem
        rcases List.mem_cons.mp hmem with rfl | hmem
        · exact .unreadKey hunread
        · exact List.mem_singleton.mp hmem ▸ .unreadValue hunread
      · intro hmeasured
        cases hmeasured with
        | unreadKey => exact .head _
        | unreadValue => exact .tail _ (.head _)
        | value hform => exact absurd hform (hunread _)
        | noArray hform => exact absurd hform (hunread _)
        | element hform => exact absurd hform (hunread _)

/-- The initial byte of an item. -/
theorem ReadsItem.first {item : Item} (h : ReadsItem data n item) :
    data[0]? = some item.head.first := by
  obtain ⟨head, body, children, fits⟩ := item
  have hbytes := h.1
  rw [Item.encode, Head.bytes, List.cons_append] at hbytes
  cases data with
  | nil => simp at hbytes
  | cons byte rest =>
      cases n with
      | zero => simp at hbytes
      | succ n =>
          rw [List.take_succ_cons, List.cons.injEq] at hbytes
          exact congrArg some hbytes.1.symm

/-- An integer of up to 16 bits, in any form. -/
theorem skipIntValue_item (h : skipIntValue data = .ok n) :
    ∃ item, ReadsItem data n item ∧ item.head.major ≠ 4 := by
  obtain ⟨first, hbyte, h⟩ := Outcome.bind_eq_ok.mp h
  have hfirst := byteAt_eq_ok.mp hbyte
  have hmajor : ∀ {item}, ReadsItem data n item → first.toNat / 32 ≠ 4 →
      item.head.major ≠ 4 := by
    intro item hitem hne
    rw [Head.major, ← Option.some.inj (hfirst.symm.trans hitem.first)]
    exact hne
  have hfinish : first.toNat / 32 ≠ 4 → (∃ item, ReadsItem data n item) →
      ∃ item, ReadsItem data n item ∧ item.head.major ≠ 4 := by
    rintro hne ⟨item, hitem⟩
    exact ⟨item, hitem, hmajor hitem hne⟩
  obtain ⟨hpos, hneg, -⟩ := initial_byte first
  rcases ite_eq_iff.mp h with ⟨hsmall, h⟩ | ⟨-, h⟩
  · cases h
    have hvalue := hpos hsmall
    obtain ⟨item, hitem, -⟩ := exists_smallInt hfirst (Or.inl hsmall)
    exact hfinish (by omega) ⟨item, hitem⟩
  rcases ite_eq_iff.mp h with ⟨hkind, h⟩ | ⟨-, h⟩
  · exact hfinish (by rw [hkind]; decide)
      (measured_byteInt hfirst (Or.inl hkind) h)
  rcases ite_eq_iff.mp h with ⟨hkind, h⟩ | ⟨-, h⟩
  · exact hfinish (by rw [hkind]; decide)
      (measured_wordInt hfirst (Or.inl hkind) h)
  rcases ite_eq_iff.mp h with ⟨hsmall, h⟩ | ⟨-, h⟩
  · cases h
    have hvalue := hneg hsmall
    obtain ⟨item, hitem, -⟩ := exists_smallInt hfirst (Or.inr hsmall)
    exact hfinish (by omega) ⟨item, hitem⟩
  rcases ite_eq_iff.mp h with ⟨hkind, h⟩ | ⟨-, h⟩
  · exact hfinish (by rw [hkind]; decide)
      (measured_byteInt hfirst (Or.inr hkind) h)
  rcases ite_eq_iff.mp h with ⟨hkind, h⟩ | ⟨-, h⟩
  · exact hfinish (by rw [hkind]; decide)
      (measured_wordInt hfirst (Or.inr hkind) h)
  · cases h

theorem validateAlgElements_row {count offset last : Nat} {seen : List Int}
    (h : validateAlgElements data count offset seen = .ok last)
    (hoffset : offset ≤ data.length) :
    ∃ items, items.length = count ∧ ReadsRow data offset last items := by
  induction count generalizing offset seen with
  | zero =>
      cases h
      exact ⟨[], rfl, .nil hoffset⟩
  | succ count ih =>
      obtain ⟨_, -, h⟩ := Outcome.bind_eq_ok.mp h
      obtain ⟨rest, hrest, h⟩ := Outcome.bind_eq_ok.mp h
      obtain ⟨-, rfl⟩ := sliceFrom_eq_ok.mp hrest
      have hstep : ∀ {item size seen}, ReadsItem (data.drop offset) size item →
          validateAlgElements data count (offset + size) seen = .ok last →
          ∃ items, items.length = count + 1 ∧
            ReadsRow data offset last items := by
        intro item size seen hitem hrun
        have hle := hitem.2.1
        rw [List.length_drop] at hle
        obtain ⟨items, hcount, hrow⟩ := ih hrun (by omega)
        exact ⟨item :: items, congrArg Nat.succ hcount, .cons hitem hrow⟩
      split at h
      · rename_i val len hint
        obtain ⟨_, -, h⟩ := Outcome.bind_eq_ok.mp h
        obtain ⟨_, -, h⟩ := Outcome.bind_eq_ok.mp h
        obtain ⟨_, -, h⟩ := Outcome.bind_eq_ok.mp h
        obtain ⟨item, hitem, -⟩ := tryParseCborInt_item hint
        exact hstep hitem h
      · obtain ⟨len, hlen, h⟩ := Outcome.bind_eq_ok.mp h
        obtain ⟨item, hitem⟩ := skipCborValue_item hlen
        exact hstep hitem h

/-- Of an array with a short head only the elements of unknown form are left
to their sender. -/
theorem shortest_iff_filter {item : Item} {items : List Item}
    (h : item.Shortest ↔ ∀ elem ∈ items, elem.Shortest) :
    item.Shortest ↔
      ∀ elem ∈ items.filter fun elem => labelOf elem = none, elem.Shortest := by
  rw [h]
  constructor
  · intro hall elem helem
    exact hall elem (List.mem_filter.mp helem).1
  · intro hall elem helem
    cases hlabel : labelOf elem with
    | none =>
        exact hall elem (List.mem_filter.mpr ⟨helem, by simpa using hlabel⟩)
    | some label => exact shortest_of_labelOf hlabel

/-- A value is in shortest form when the parts that are only measured are. -/
def Judged (label : Int) (value : Item) : Prop :=
  value.Shortest ↔ ∀ part ∈ uncheckedValue label value, part.Shortest

theorem judged_of_eq {label : Int} {value : Item}
    (h : uncheckedValue label value = [value]) : Judged label value := by
  rw [Judged, h]
  simp

theorem judged_array {label : Int} {value : Item} {head : Head}
    {items : List Item} (hlabel : label = 2 ∨ label = 34)
    (hhead : value.head = head) (hmajor : head.major = 4)
    (hitems : value.children = items)
    (hshort : value.Shortest ↔ head.Shortest ∧ ∀ item ∈ items, item.Shortest)
    (hown : head.Shortest) : Judged label value := by
  have hvalue : value.head.major = 4 := by rw [hhead, hmajor]
  rw [Judged, uncheckedValue_array hlabel hvalue, hitems]
  exact shortest_iff_filter (hshort.trans (and_iff_right hown))

theorem validateAlgValue_item (h : validateAlgValue data = .ok n) :
    ∃ item, ReadsItem data n item ∧ Judged 2 item := by
  obtain ⟨first, hbyte, h⟩ := Outcome.bind_eq_ok.mp h
  have hfirst := byteAt_eq_ok.mp hbyte
  have hone : 1 ≤ data.length := (List.getElem?_eq_some_iff.mp hfirst).1
  split at h
  · rename_i len hskip
    cases h
    obtain ⟨item, hitem, hmajor⟩ := skipIntValue_item hskip
    exact ⟨item, hitem, judged_of_eq
      (uncheckedValue_noArray (.inl rfl) (by simp [hmajor]))⟩
  · rcases ite_eq_iff.mp h with ⟨harray, h⟩ | ⟨-, h⟩
    · obtain ⟨head, hbytes, hmajor, harg, hown⟩ :=
        exists_arrayHead hfirst harray
      obtain ⟨items, hcount, hrow⟩ := validateAlgElements_row h hone
      obtain ⟨item, hitem, hhead, hitems, hshort⟩ :=
        hrow.array hbytes hmajor (hcount.trans harg.symm)
      exact ⟨item, hitem,
        judged_array (Or.inl rfl) hhead hmajor hitems hshort hown⟩
    · cases h

theorem parseX5tValue_item {value : Int × HVec idCredMaxLen}
    (h : parseX5tValue data = .ok (value, n)) :
    ∃ item, ReadsItem data n item ∧ Judged 34 item := by
  obtain ⟨algLen, hashLen, hparts, rfl⟩ := parseX5tValue_eq_ok.mp h
  have hfirst := hparts.head
  have hlength := hparts.alg_le
  obtain ⟨algItem, hAlg, -⟩ := tryParseCborInt_item hparts.alg
  obtain ⟨hashItem, hHash, -⟩ := parseBstr_item hparts.hash
  have hlast := hHash.2.1
  rw [List.length_drop] at hlast
  have hrow : ReadsRow data 1 (1 + algLen + hashLen) [algItem, hashItem] :=
    .cons hAlg (.cons hHash (.nil (by omega)))
  obtain ⟨head, hbytes, hmajor, harg, hown⟩ :=
    exists_arrayHead hfirst (by decide)
  have htwo : (0x82 - 0x80 : UInt8).toNat = 2 := by decide
  obtain ⟨item, hitem, hown', hitems, hshort⟩ :=
    hrow.array hbytes hmajor
      (show [algItem, hashItem].length = _ from (harg.trans htwo).symm)
  exact ⟨item, hitem,
    judged_array (Or.inr rfl) hown' hmajor hitems hshort hown⟩

/-- The value behind a label. -/
theorem parseLabelled_item {found : Parameters} {label : Int}
    {r : Parameters × Nat} (h : parseLabelled found label data = .ok r) :
    ∃ item, ReadsItem data r.2 item ∧ Judged label item ∧
      r.1.seenLabels = found.seenLabels := by
  unfold parseLabelled at h
  split at h
  · obtain ⟨size, hsize, h⟩ := Outcome.bind_eq_ok.mp h
    cases h
    obtain ⟨item, hitem, -⟩ := skipIntValue_item hsize
    exact ⟨item, hitem, judged_of_eq rfl, rfl⟩
  · obtain ⟨size, hsize, h⟩ := Outcome.bind_eq_ok.mp h
    cases h
    obtain ⟨item, hitem, hjudged⟩ := validateAlgValue_item hsize
    exact ⟨item, hitem, hjudged, rfl⟩
  · obtain ⟨_, -, h⟩ := Outcome.bind_eq_ok.mp h
    obtain ⟨⟨value, size⟩, hvalue, h⟩ := Outcome.bind_eq_ok.mp h
    obtain ⟨kid, -, h⟩ := Outcome.bind_eq_ok.mp h
    cases h
    obtain ⟨item, hitem, hshort⟩ := parseCanonicalBstr_item hvalue
    refine ⟨item, hitem, ?_, rfl⟩
    exact iff_of_true hshort fun _ hpart => absurd hpart List.not_mem_nil
  · obtain ⟨_, -, h⟩ := Outcome.bind_eq_ok.mp h
    obtain ⟨⟨value, size⟩, hvalue, h⟩ := Outcome.bind_eq_ok.mp h
    cases h
    obtain ⟨item, hitem, hjudged⟩ := parseX5tValue_item hvalue
    exact ⟨item, hitem, hjudged, rfl⟩
  · rename_i hother1 hother2 hother4 hother34
    obtain ⟨size, hsize, h⟩ := Outcome.bind_eq_ok.mp h
    cases h
    obtain ⟨item, hitem⟩ := skipCborValue_item hsize
    refine ⟨item, hitem, judged_of_eq (uncheckedValue_other ?_), rfl⟩
    exact ⟨hother2, hother4, hother34⟩

/-! Pairs, and the map they make up. -/

/-- A pair as the parser accepts it: it is in shortest form when the parts that
are only measured are. -/
def JudgedPair (pair : Item × Item) : Prop :=
  pair.1.Shortest ∧ pair.2.Shortest ↔
    ∀ part ∈ unchecked pair, part.Shortest

theorem judgedPair_of_label {key value : Item} {label : Int}
    (hlabel : labelOf key = some label) (h : Judged label value) :
    JudgedPair (key, value) := by
  rw [JudgedPair, unchecked_of_label hlabel,
    and_iff_right (shortest_of_labelOf hlabel)]
  exact h

theorem judgedPair_of_opaque {key value : Item} (hlabel : labelOf key = none) :
    JudgedPair (key, value) := by
  rw [JudgedPair, unchecked_of_none hlabel]
  simp

theorem parseParameter_pair {offset : Nat} {found : Parameters}
    {r : Parameters × Nat} (h : parseParameter data offset found = .ok r)
    (hnodup : found.seenLabels.Nodup) :
    ∃ pair : Item × Item, ReadsRow data offset r.2 [pair.1, pair.2] ∧
      JudgedPair pair ∧ r.1.seenLabels.Nodup ∧
      r.1.seenLabels = found.seenLabels ++ (labelOf pair.1).toList := by
  cases (parseParameter_eq_ok.mp h).2 with
  | labelled label len size next hint hnew hroom hle hvalue =>
      obtain ⟨key, hkey, -⟩ := tryParseCborInt_item hint
      obtain ⟨value, hitem, hjudged, hlabels⟩ := parseLabelled_item hvalue
      have hlabel := labelOf_eq_some hkey hint
      have hlast := hitem.2.1
      rw [List.length_drop] at hlast
      have hsum : offset + len + size ≤ data.length := by
        omega
      refine ⟨(key, value), .cons hkey (.cons hitem (.nil hsum)),
        judgedPair_of_label hlabel hjudged, ?_, ?_⟩
      · rw [hlabels]
        exact List.nodup_append.mpr ⟨hnodup, List.nodup_singleton label,
          fun a ha b hb hab => hnew (List.mem_singleton.mp hb ▸ hab ▸ ha)⟩
      · rw [hlabels, hlabel]
        rfl
  | measured len size hint hlen hle hsize =>
      obtain ⟨key, hkey⟩ := skipCborValue_item hlen
      obtain ⟨value, hvalue⟩ := skipCborValue_item hsize
      have hlabel := labelOf_eq_none hkey hint hlen
      have hlast := hvalue.2.1
      rw [List.length_drop] at hlast
      have hsum : offset + len + size ≤ data.length := by
        omega
      refine ⟨(key, value), .cons hkey (.cons hvalue (.nil hsum)),
        judgedPair_of_opaque hlabel, hnodup, ?_⟩
      rw [hlabel]
      exact (List.append_nil _).symm

/-- The labels of some pairs. -/
def labels (pairs : List (Item × Item)) : List Int :=
  pairs.flatMap fun pair => (labelOf pair.1).toList

theorem ReadsRow.append {offset middle last : Nat} {xs ys : List Item}
    (hx : ReadsRow data offset middle xs) (hy : ReadsRow data middle last ys) :
    ReadsRow data offset last (xs ++ ys) where
  bytes := by
    have hle := hx.offset_le
    have hle' := hy.offset_le
    have hsplit : last - offset = (middle - offset) + (last - middle) := by omega
    have hdrop : offset + (middle - offset) = middle := by omega
    rw [List.map_append, List.flatten_append, hx.bytes, hy.bytes, hsplit,
      List.take_add, List.drop_drop, hdrop]
  offset_le := le_trans hx.offset_le hy.offset_le
  last_le := hy.last_le
  mapFree := by
    intro item hitem
    rcases List.mem_append.mp hitem with hitem | hitem
    · exact hx.mapFree item hitem
    · exact hy.mapFree item hitem

theorem parseParameters_pairs {count offset : Nat} {found : Parameters}
    {r : Parameters × Nat} (h : parseParameters data count offset found = .ok r)
    (hnodup : found.seenLabels.Nodup) (hoffset : offset ≤ data.length) :
    ∃ pairs, pairs.length = count ∧
      ReadsRow data offset r.2 (Item.unpair pairs) ∧
      (∀ pair ∈ pairs, JudgedPair pair) ∧ r.1.seenLabels.Nodup ∧
      r.1.seenLabels = found.seenLabels ++ labels pairs := by
  induction count generalizing offset found with
  | zero =>
      cases h
      exact ⟨[], rfl, .nil hoffset, fun _ h => absurd h List.not_mem_nil,
        hnodup, (List.append_nil _).symm⟩
  | succ count ih =>
      obtain ⟨⟨next, middle⟩, hfirst, h⟩ := Outcome.bind_eq_ok.mp h
      obtain ⟨pair, hrow, hjudged, hnext, hlabels⟩ :=
        parseParameter_pair hfirst hnodup
      obtain ⟨pairs, hcount, hrows, hall, hlast, hseen⟩ :=
        ih h hnext hrow.last_le
      refine ⟨pair :: pairs, congrArg Nat.succ hcount, hrow.append hrows, ?_,
        hlast, ?_⟩
      · intro other hother
        rcases List.mem_cons.mp hother with rfl | hother
        · exact hjudged
        · exact hall other hother
      · rw [hseen, hlabels, List.append_assoc]
        rfl

/-- The keys whose form the parser does not know, as bytes. -/
def unknownKeys (pairs : List (Item × Item)) : List Bytes :=
  ((pairs.map Prod.fst).filter fun key => labelOf key = none).map Item.encode

theorem nodup_unknownKeys {pairs : List (Item × Item)} :
    (unknownKeys pairs).Nodup ↔ pairs.Pairwise fun pair other =>
      NoShortInt pair.1 → NoShortInt other.1 →
        pair.1.encode ≠ other.1.encode := by
  simp only [unknownKeys, List.Nodup, List.pairwise_map, List.pairwise_filter,
    decide_eq_true_eq, labelOf_eq_none_iff]

/-- The keys of a map in shortest form mean different things when its labels
differ and its unknown keys differ. -/
theorem nodup_meaning_iff {pairs : List (Item × Item)}
    (hshort : ∀ pair ∈ pairs, pair.1.Shortest)
    (hlabels : (labels pairs).Nodup) :
    (pairs.map (·.1.meaning)).Nodup ↔ (unknownKeys pairs).Nodup := by
  induction pairs with
  | nil => exact iff_of_true List.nodup_nil List.nodup_nil
  | cons pair pairs ih =>
      have hrest : ∀ other ∈ pairs, other.1.Shortest :=
        fun other hother => hshort other (List.mem_cons_of_mem _ hother)
      have hown := hshort pair List.mem_cons_self
      have hsame : ∀ other ∈ pairs, other.1.meaning = pair.1.meaning →
          other.1 = pair.1 :=
        fun other hother h => Item.meaning_injective (hrest other hother) hown h
      have hsplit : labels (pair :: pairs) =
          (labelOf pair.1).toList ++ labels pairs := rfl
      rw [hsplit] at hlabels
      have ih := ih hrest (List.nodup_append.mp hlabels).2.1
      rw [List.map_cons, List.nodup_cons, ih]
      cases hlabel : labelOf pair.1 with
      | none =>
          have hkeys : unknownKeys (pair :: pairs) =
              pair.1.encode :: unknownKeys pairs := by
            simp [unknownKeys, hlabel]
          rw [hkeys, List.nodup_cons]
          apply and_congr_left
          intro _
          rw [not_iff_not]
          constructor
          · intro hmem
            obtain ⟨other, hother, hmeaning⟩ := List.mem_map.mp hmem
            have heq := hsame other hother hmeaning
            refine List.mem_map.mpr ⟨pair.1, List.mem_filter.mpr ⟨?_, ?_⟩, rfl⟩
            · exact List.mem_map.mpr ⟨other, hother, heq⟩
            · simpa using hlabel
          · intro hmem
            obtain ⟨key, hkey, hencode⟩ := List.mem_map.mp hmem
            obtain ⟨other, hother, rfl⟩ :=
              List.mem_map.mp (List.mem_filter.mp hkey).1
            have heq := Item.encode_injective hencode
            exact List.mem_map.mpr ⟨other, hother, by rw [heq]⟩
      | some label =>
          have hkeys : unknownKeys (pair :: pairs) = unknownKeys pairs := by
            simp [unknownKeys, hlabel]
          rw [hkeys]
          apply and_iff_right
          intro hmem
          obtain ⟨other, hother, hmeaning⟩ := List.mem_map.mp hmem
          have heq := hsame other hother hmeaning
          rw [hlabel] at hlabels
          refine (List.nodup_append.mp hlabels).2.2 label
            (List.mem_singleton_self label) label ?_ rfl
          refine List.mem_flatMap.mpr ⟨other, hother, ?_⟩
          rw [heq, hlabel]
          exact List.mem_singleton_self label

/-! The ID_CRED as a whole. -/

/-- The first `n` bytes are one data item, all its heads are as short as they
can be, and no two keys of a map denote the same label. -/
def CanonicalItem (data : Bytes) (n : Nat) : Prop :=
  ∃ item : Item, item.encode = data.take n ∧ item.Shortest ∧ item.KeysDistinct

/-- What the parser leaves to the sender: that a compact form of two bytes or a
compact string is not longer than it needs to be, that the parts it only
measures are in shortest form, and that the keys it does not read differ. -/
structure Tight (data : Bytes) : Prop where
  compact : ∀ first second rest, data = first :: second :: rest →
    first = 0x18 ∨ first = 0x38 ∨ first = 0x58 → 24 ≤ second.toNat
  parts : ∀ (item : Item) rest, data = item.encode ++ rest →
    ∀ pair ∈ item.entries, ∀ part, OnlyMeasured pair part → part.Shortest
  keys : ∀ (item : Item) rest, data = item.encode ++ rest →
    item.entries.Pairwise fun pair other =>
      NoShortInt pair.1 → NoShortInt other.1 →
        pair.1.encode ≠ other.1.encode

theorem ReadsItem.eq {item other : Item} {rest : Bytes}
    (h : ReadsItem data n item) (hdata : data = other.encode ++ rest) :
    other = item := by
  have hsplit : item.encode ++ data.drop n = other.encode ++ rest := by
    rw [h.1, List.take_append_drop, hdata]
  exact (Item.delimits item other _ _ hsplit).1.symm

/-- A compact form is no map. -/
theorem canonicalItem_iff_of_mapFree {item : Item} (h : ReadsItem data n item)
    (hshort : item.Shortest ↔ ∀ first second rest,
      data = first :: second :: rest →
      first = 0x18 ∨ first = 0x38 ∨ first = 0x58 → 24 ≤ second.toNat) :
    CanonicalItem data n ↔ Tight data := by
  have hentries : ∀ (other : Item) rest, data = other.encode ++ rest →
      other.entries = [] := by
    intro other rest hdata
    rw [h.eq hdata]
    obtain ⟨head, body, children, fits⟩ := item
    exact if_neg h.2.2.1
  have hcanonical : CanonicalItem data n ↔ item.Shortest := by
    constructor
    · rintro ⟨other, hencode, hother, -⟩
      have heq := Item.encode_injective (hencode.trans h.1.symm)
      exact heq ▸ hother
    · intro hitem
      exact ⟨item, h.1, hitem, h.2.2.keysDistinct⟩
  rw [hcanonical, hshort]
  constructor
  · intro hcompact
    refine ⟨hcompact, fun other rest hdata pair hpair => ?_,
      fun other rest hdata => ?_⟩
    · rw [hentries other rest hdata] at hpair
      exact absurd hpair List.not_mem_nil
    · rw [hentries other rest hdata]
      exact List.Pairwise.nil
  · exact Tight.compact

/-- The item a map of parameters is. -/
theorem parseIdCredMap_item {first : UInt8} {cred : IdCred}
    (hfirst : data[0]? = some first) (hrange : 0xa1 ≤ first ∧ first ≤ 0xa8)
    (h : parseIdCredMap data first = .ok (cred, n)) :
    ∃ (item : Item) (pairs : List (Item × Item)),
      item.encode = data.take n ∧ n ≤ data.length ∧ item.entries = pairs ∧
      (item.Shortest ↔ ∀ pair ∈ pairs, pair.1.Shortest ∧ pair.2.Shortest) ∧
      (item.KeysDistinct ↔ (pairs.map (·.1.meaning)).Nodup) ∧
      (∀ pair ∈ pairs, JudgedPair pair) ∧ (labels pairs).Nodup := by
  have hbyte : ∀ byte : UInt8, 0xa1 ≤ byte ∧ byte ≤ 0xa8 →
      byte.toNat / 32 = 5 ∧ byte.toNat % 32 = (byte - 0xa0).toNat ∧
        byte.toNat % 32 < 24 := by
    apply forall_byte
    decide +kernel
  obtain ⟨hmajor, hinfo, hlt⟩ := hbyte first hrange
  have hone : 1 ≤ data.length := (List.getElem?_eq_some_iff.mp hfirst).1
  obtain ⟨head, hown, hrest, hbytes⟩ :=
    exists_head hfirst (Or.inl ⟨hlt, rfl⟩) hone
  obtain ⟨⟨found, last⟩, hfound, h⟩ := Outcome.bind_eq_ok.mp h
  obtain ⟨reference, -, h⟩ := Outcome.bind_eq_ok.mp h
  obtain ⟨bytes, -, h⟩ := Outcome.bind_eq_ok.mp h
  obtain ⟨encoded, -, h⟩ := Outcome.bind_eq_ok.mp h
  cases h
  obtain ⟨pairs, hcount, hrow, hjudged, hnodup, hlabels⟩ :=
    parseParameters_pairs hfound List.nodup_nil hone
  have hkind : head.major = 5 := by
    rw [Head.major, hown]
    exact hmajor
  have hchildren : (Item.unpair pairs).length = head.childCount := by
    rw [Item.length_unpair, hcount, Head.childCount, if_neg (by omega),
      if_pos hkind, (Head.arg_of_rest_nil hrest).1, hown, hinfo]
  have hbody : ([] : Bytes).length = head.bodyLength := by
    rw [Head.bodyLength, if_neg (by omega)]
    rfl
  have hentries : (Item.ofList head [] (Item.unpair pairs) hbody
      hchildren).entries = pairs := by
    rw [Item.entries, Item.head_ofList, if_pos hkind, Item.children_ofList,
      Item.pairUp_unpair]
  refine ⟨Item.ofList head [] (Item.unpair pairs) hbody hchildren, pairs, ?_,
    hrow.last_le, hentries, ?_, ?_, hjudged, ?_⟩
  · have hle := hrow.offset_le
    rw [Item.encode_ofList, hbytes, hrow.bytes, List.nil_append,
      ← List.take_add]
    congr 1
    exact Nat.add_sub_cancel' hle
  · rw [Item.shortest_ofList, Item.forall_mem_unpair]
    exact and_iff_right (Or.inl hrest)
  · rw [Item.keysDistinct_ofList, hentries]
    exact and_iff_left fun item hitem =>
      (hrow.mapFree item hitem).keysDistinct
  · rw [← List.nil_append (labels pairs)]
    exact hlabels ▸ hnodup

/-- A map of parameters is no compact form. -/
theorem parseIdCredMap_canonical {first : UInt8} {cred : IdCred}
    (hfirst : data[0]? = some first) (hrange : 0xa1 ≤ first ∧ first ≤ 0xa8)
    (h : parseIdCredMap data first = .ok (cred, n)) :
    CanonicalItem data n ↔ Tight data := by
  obtain ⟨item, pairs, hencode, -, hentries, hshort, hkeys, hjudged,
    hlabels⟩ := parseIdCredMap_item hfirst hrange h
  have hown : ∀ (other : Item) rest, data = other.encode ++ rest →
      other = item := by
    intro other rest hdata
    have hsplit : item.encode ++ data.drop n = other.encode ++ rest := by
      rw [hencode, List.take_append_drop, hdata]
    exact (Item.delimits item other _ _ hsplit).1.symm
  have hdata : data = item.encode ++ data.drop n := by
    rw [hencode, List.take_append_drop]
  constructor
  · rintro ⟨other, hother, hall, hdistinct⟩
    cases Item.encode_injective (hother.trans hencode.symm)
    have hpairs := hshort.mp hall
    refine ⟨fun byte second rest hbytes hkind => ?_,
      fun other rest hbytes => ?_, fun other rest hbytes => ?_⟩
    · rw [hbytes] at hfirst
      cases Option.some.inj hfirst
      rcases hkind with rfl | rfl | rfl <;> exact absurd hrange (by decide)
    · rw [hown other rest hbytes, hentries]
      exact fun pair hpair part hpart => (hjudged pair hpair).mp
        (hpairs pair hpair) part (mem_unchecked.mpr hpart)
    · rw [hown other rest hbytes, hentries]
      exact nodup_unknownKeys.mp ((nodup_meaning_iff
        (fun pair hpair => (hpairs pair hpair).1) hlabels).mp
          (hkeys.mp hdistinct))
  · intro htight
    have hparts := htight.parts item _ hdata
    have hunknown := htight.keys item _ hdata
    rw [hentries] at hparts hunknown
    have hpairs : ∀ pair ∈ pairs, pair.1.Shortest ∧ pair.2.Shortest :=
      fun pair hpair => (hjudged pair hpair).mpr fun part hpart =>
        hparts pair hpair part (mem_unchecked.mp hpart)
    exact ⟨item, hencode, hshort.mpr hpairs, hkeys.mpr
      ((nodup_meaning_iff (fun pair hpair => (hpairs pair hpair).1)
        hlabels).mpr (nodup_unknownKeys.mpr hunknown))⟩

/-- A compact form that the first condition is not about. -/
theorem canonicalItem_of_otherForm {first : UInt8} {item : Item}
    (hfirst : data[0]? = some first) (hitem : ReadsItem data n item)
    (hshort : item.Shortest)
    (hother : ¬ (first = 0x18 ∨ first = 0x38 ∨ first = 0x58)) :
    CanonicalItem data n ↔ Tight data := by
  refine canonicalItem_iff_of_mapFree hitem (iff_of_true hshort ?_)
  rintro own second rest rfl hkind
  cases Option.some.inj hfirst
  exact absurd hkind hother

/-- A compact form that it is about. -/
theorem canonicalItem_of_secondByte {first byte : UInt8} {item : Item}
    (hfirst : data[0]? = some first) (hsecond : data[1]? = some byte)
    (hitem : ReadsItem data n item)
    (hiff : item.Shortest ↔ 24 ≤ byte.toNat)
    (hkind : first = 0x18 ∨ first = 0x38 ∨ first = 0x58) :
    CanonicalItem data n ↔ Tight data := by
  refine canonicalItem_iff_of_mapFree hitem (hiff.trans ?_)
  constructor
  · rintro hle own second rest rfl -
    cases Option.some.inj hsecond
    exact hle
  · intro hall
    obtain ⟨rest, rfl⟩ : ∃ rest, data = first :: byte :: rest := by
      match data, hfirst, hsecond with
      | own :: second :: rest, hown, hnext =>
          cases Option.some.inj hown
          cases Option.some.inj hnext
          exact ⟨rest, rfl⟩
    exact hall first byte rest rfl hkind

/-- A `kid` that is an integer of two bytes. -/
theorem compactPair_canonical {first : UInt8} {cred : IdCred}
    (hfirst : data[0]? = some first) (hkind : first = 0x18 ∨ first = 0x38)
    (h : (do
      failIf (data.length < 2) EdhocError.invalidMessage
      let kid ← slice data 0 2
      let cred ← compactKid 0x42 kid
      return (cred, 2)) = .ok (cred, n)) :
    CanonicalItem data n ↔ Tight data := by
  obtain ⟨_, hlong, h⟩ := Outcome.bind_eq_ok.mp h
  obtain ⟨_, -, h⟩ := Outcome.bind_eq_ok.mp h
  obtain ⟨_, -, h⟩ := Outcome.bind_eq_ok.mp h
  cases h
  obtain ⟨byte, hsecond⟩ :=
    exists_byte (i := 1) (Nat.not_lt.mp (failIf_eq_ok.mp hlong))
  obtain ⟨item, hitem, hiff⟩ := exists_byteInt hfirst hkind hsecond
  refine canonicalItem_of_secondByte hfirst hsecond hitem hiff ?_
  rcases hkind with hkind | hkind
  · exact Or.inl hkind
  · exact Or.inr (Or.inl hkind)

/-- A `kid` that is a byte string. -/
theorem compactBstr_canonical {first : UInt8} {value : Bytes}
    (hfirst : data[0]? = some first)
    (hstring : (0x40 ≤ first ∧ first ≤ 0x57) ∨ first = 0x58)
    (h : parseBstr data = .ok (value, n)) :
    CanonicalItem data n ↔ Tight data := by
  obtain ⟨item, hitem, hlong, hshort⟩ := parseBstr_item h
  by_cases hkind : first = 0x58
  · obtain ⟨len, hlen, hiff⟩ := hlong (hkind ▸ hfirst)
    exact canonicalItem_of_secondByte hfirst hlen hitem hiff
      (Or.inr (Or.inr hkind))
  · have hsmall := hstring.resolve_right hkind
    have hne : ∀ byte : UInt8, ¬ (0x40 ≤ byte ∧ byte ≤ 0x57) →
        first ≠ byte := by
      rintro byte hbyte rfl
      exact hbyte hsmall
    have hread : ∀ byte : UInt8, first ≠ byte → data[0]? ≠ some byte := by
      intro byte hbyte hother
      exact hbyte (Option.some.inj (hfirst.symm.trans hother))
    refine canonicalItem_of_otherForm hfirst hitem
      (hshort (hread _ hkind) (hread _ (hne 0x59 (by decide)))) ?_
    rintro (hother | hother | hother)
    · exact hne _ (by decide) hother
    · exact hne _ (by decide) hother
    · exact hkind hother

/-- An accepted ID_CRED is canonical exactly when the sender wrote the parts
that the parser does not check in canonical form. -/
theorem parseIdCred_canonical_iff_tight {cred : IdCred}
    (h : parseIdCred data = .ok (cred, n)) :
    CanonicalItem data n ↔ Tight data := by
  obtain ⟨first, hbyte, h⟩ := Outcome.bind_eq_ok.mp h
  have hfirst := byteAt_eq_ok.mp hbyte
  -- By the initial byte, in the order of the source.
  rcases ite_eq_iff.mp h with ⟨hsmall, h⟩ | ⟨hsmall, h⟩
  · obtain ⟨_, -, h⟩ := Outcome.bind_eq_ok.mp h
    cases h
    obtain ⟨item, hitem, hshort⟩ := exists_smallInt hfirst (Or.inl hsmall)
    refine canonicalItem_of_otherForm hfirst hitem hshort ?_
    rintro (rfl | rfl | rfl) <;> exact absurd hsmall (by decide)
  rcases ite_eq_iff.mp h with ⟨hneg, h⟩ | ⟨-, h⟩
  · obtain ⟨_, -, h⟩ := Outcome.bind_eq_ok.mp h
    cases h
    obtain ⟨item, hitem, hshort⟩ := exists_smallInt hfirst (Or.inr hneg)
    refine canonicalItem_of_otherForm hfirst hitem hshort ?_
    rintro (rfl | rfl | rfl) <;> exact absurd hneg (by decide)
  rcases ite_eq_iff.mp h with ⟨hkind, h⟩ | ⟨-, h⟩
  · exact compactPair_canonical hfirst (Or.inl hkind) h
  rcases ite_eq_iff.mp h with ⟨hkind, h⟩ | ⟨-, h⟩
  · exact compactPair_canonical hfirst (Or.inr hkind) h
  rcases ite_eq_iff.mp h with ⟨hstring, h⟩ | ⟨-, h⟩
  · obtain ⟨⟨value, size⟩, hvalue, h⟩ := Outcome.bind_eq_ok.mp h
    obtain ⟨_, -, h⟩ := Outcome.bind_eq_ok.mp h
    obtain ⟨_, -, h⟩ := Outcome.bind_eq_ok.mp h
    obtain ⟨_, -, h⟩ := Outcome.bind_eq_ok.mp h
    cases h
    exact compactBstr_canonical hfirst hstring hvalue
  · obtain ⟨_, hrange, h⟩ := Outcome.bind_eq_ok.mp h
    exact parseIdCredMap_canonical hfirst (not_not.mp (failIf_eq_ok.mp hrange))
      h

/-- A `kid` with an algorithm, an array of label 2, a label that nothing checks
and a key that is not read. -/
def sampleKid : Bytes :=
  [0xa5, 0x04, 0x41, 0x01, 0x01, 0x26, 0x02, 0x82, 0x03, 0x61, 0x79, 0x18, 0x64,
    0x81, 0x05, 0x61, 0x78, 0x18, 0x2a]

theorem parseIdCred_canonical_iff_tight_kid :
    ∃ cred n, parseIdCred sampleKid = .ok (cred, n) ∧
      (CanonicalItem sampleKid n ↔ Tight sampleKid) := by
  obtain ⟨⟨cred, n⟩, h⟩ := Outcome.exists_ok_iff.mpr
    (by decide +kernel : (parseIdCred sampleKid).isOk = true)
  exact ⟨cred, n, h, parseIdCred_canonical_iff_tight h⟩

/-- The label of the `kid` twice, once in two bytes. -/
def repeatedKid : Bytes := [0xa2, 0x04, 0x41, 0x01, 0x18, 0x04, 0x41, 0x02]

/-- The items of `repeatedKid` behind the head. -/
def repeatedKidItems : List Item :=
  let kid (byte : UInt8) : Item :=
    .ofList (.narrow 0x41 (by decide)) [byte] [] rfl rfl
  [.ofList (.narrow 0x04 (by decide)) [] [] rfl rfl, kid 0x01,
    .ofList (.wide 0x18 [0x04] (by decide)) [] [] rfl rfl, kid 0x02]

/-- A second `kid` is taken for a key of unknown form. -/
theorem parseIdCred_accepts_repeatedKid :
    (∃ cred, parseIdCred repeatedKid = .ok (cred, 8)) ∧
      ¬ CanonicalItem repeatedKid 8 := by
  constructor
  · obtain ⟨⟨cred, n⟩, h⟩ := Outcome.exists_ok_iff.mpr
      (by decide +kernel : (parseIdCred repeatedKid).isOk = true)
    have hsize : (parseIdCred repeatedKid).map Prod.snd = .ok 8 := by
      decide +kernel
    rw [h] at hsize
    cases hsize
    exact ⟨cred, h⟩
  · rintro ⟨other, hother, hshort, -⟩
    let item : Item := .ofList (.narrow 0xa2 (by decide)) [] repeatedKidItems
      rfl rfl
    have hencode : item.encode = repeatedKid := rfl
    have hitem : other = item :=
      Item.encode_injective (hother.trans hencode.symm)
    have hitems := (Item.shortest_ofList.mp (hitem ▸ hshort)).2
    have hlabel := hitems _ (List.mem_of_getElem? (i := 2) rfl)
    rcases (Item.shortest_ofList.mp hlabel).1 with h | ⟨-, h⟩ | ⟨h, -⟩
    · exact absurd h (List.cons_ne_nil _ _)
    · exact absurd h (by decide)
    · exact absurd h (by decide)

end Oscore.Edhoc
