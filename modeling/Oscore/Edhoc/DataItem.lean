/-
The sub-parsers of an ID_CRED against the data items of CBOR: whatever they
accept is one item, without maps, and some of them accept its shortest form
only.
-/
import Oscore.Edhoc.FixedPoint
import Oscore.Lib.CborItem

namespace Oscore.Edhoc

open Rust Cbor

variable {data : Bytes} {n : Nat}

/-! What is measured is a data item. -/

/-- The first `n` bytes are a data item without maps. -/
def ReadsItem (data : Bytes) (n : Nat) (item : Item) : Prop :=
  item.encode = data.take n ∧ n ≤ data.length ∧ item.MapFree

/-- The head at the front of the input. -/
theorem exists_head {first : UInt8} {width : Nat}
    (hfirst : data[0]? = some first)
    (hwidth : (first.toNat % 32 < 24 ∧ width = 0) ∨
      (24 ≤ first.toNat % 32 ∧ first.toNat % 32 ≤ 27 ∧
        width = 2 ^ (first.toNat % 32 - 24)))
    (hle : 1 + width ≤ data.length) :
    ∃ head : Head, head.first = first ∧
      head.rest = (data.drop 1).take width ∧
      head.bytes = data.take (1 + width) := by
  have hdata : data = first :: data.drop 1 := by
    cases data with
    | nil => cases hfirst
    | cons byte rest =>
        cases hfirst
        rfl
  have htake : data.take (1 + width) = first :: (data.drop 1).take width := by
    conv_lhs => rw [hdata]
    rw [Nat.add_comm, List.take_succ_cons]
  have hlength : ((data.drop 1).take width).length = width := by
    rw [List.length_take_of_le]
    rw [List.length_drop]
    omega
  rcases hwidth with ⟨hinfo, rfl⟩ | ⟨hinfo, hge, rfl⟩
  · exact ⟨.narrow first hinfo, rfl, rfl, htake.symm⟩
  · exact ⟨.wide first _ ⟨hinfo, hge, hlength⟩, rfl, rfl, htake.symm⟩

/-- An item that is a head and a string of bytes. -/
theorem exists_string {head : Head} {size : Nat}
    (hbytes : head.bytes = data.take size) (hmajor : head.major ≤ 3)
    (hle : size + head.bodyLength ≤ data.length) :
    ∃ item : Item, ReadsItem data (size + head.bodyLength) item ∧
      item.head = head ∧ item.children = [] ∧
      (item.Shortest ↔ head.Shortest) := by
  have hchildren : ([] : List Item).length = head.childCount := by
    simp only [Head.childCount, if_neg (show head.major ≠ 4 by omega),
      if_neg (show head.major ≠ 5 by omega),
      if_neg (show head.major ≠ 6 by omega), List.length_nil]
  have hbody : ((data.drop size).take head.bodyLength).length =
      head.bodyLength := by
    rw [List.length_take_of_le]
    rw [List.length_drop]
    omega
  refine ⟨Item.ofList head _ [] hbody hchildren, ⟨?_, hle, ?_⟩, rfl,
    Item.children_ofList, ?_⟩
  · rw [Item.encode_ofList, hbytes, List.map_nil, List.flatten_nil,
      List.append_nil, List.take_add]
  · rw [Item.mapFree_ofList]
    exact ⟨by omega, fun _ h => absurd h List.not_mem_nil⟩
  · rw [Item.shortest_ofList]
    exact and_iff_left fun _ h => absurd h List.not_mem_nil

/-- What the initial bytes that the parser knows announce. -/
theorem initial_byte (first : UInt8) :
    (first ≤ 0x17 → first.toNat / 32 = 0 ∧ first.toNat % 32 < 24) ∧
    (0x20 ≤ first ∧ first ≤ 0x37 →
      first.toNat / 32 = 1 ∧ first.toNat % 32 < 24) ∧
    (0x40 ≤ first ∧ first ≤ 0x57 → first.toNat / 32 = 2 ∧
      first.toNat % 32 = (first - 0x40).toNat ∧ first.toNat % 32 < 24) ∧
    (0x60 ≤ first ∧ first ≤ 0x77 → first.toNat / 32 = 3 ∧
      first.toNat % 32 = (first - 0x60).toNat ∧ first.toNat % 32 < 24) ∧
    (0x80 ≤ first ∧ first ≤ 0x97 → first.toNat / 32 = 4 ∧
      first.toNat % 32 = (first - 0x80).toNat ∧ first.toNat % 32 < 24) := by
  revert first
  apply forall_byte
  decide +kernel

/-- An integer of either sign. -/
theorem exists_int {first : UInt8} {width : Nat}
    (hfirst : data[0]? = some first) (hmajor : first.toNat / 32 ≤ 1)
    (hwidth : (first.toNat % 32 < 24 ∧ width = 0) ∨
      (24 ≤ first.toNat % 32 ∧ first.toNat % 32 ≤ 27 ∧
        width = 2 ^ (first.toNat % 32 - 24)))
    (hle : 1 + width ≤ data.length) :
    ∃ item : Item, ReadsItem data (1 + width) item ∧
      item.head.first = first ∧ item.head.rest = (data.drop 1).take width ∧
      (item.Shortest ↔ item.head.Shortest) := by
  obtain ⟨head, hown, hrest, hbytes⟩ := exists_head hfirst hwidth hle
  have hkind : head.major ≤ 1 := by
    rw [Head.major, hown]
    exact hmajor
  have hbody : head.bodyLength = 0 := by
    rw [Head.bodyLength, if_neg (by omega)]
  obtain ⟨item, hitem, rfl, -, hshort⟩ :=
    exists_string hbytes (by omega) (by rwa [hbody])
  rw [hbody] at hitem
  exact ⟨item, hitem, hown, hrest, hshort⟩

/-- An integer in its initial byte. -/
theorem exists_smallInt {first : UInt8} (hfirst : data[0]? = some first)
    (hsmall : first ≤ 0x17 ∨ (0x20 ≤ first ∧ first ≤ 0x37)) :
    ∃ item : Item, ReadsItem data 1 item ∧ item.Shortest := by
  have hbyte : first.toNat / 32 ≤ 1 ∧ first.toNat % 32 < 24 := by
    rcases hsmall with h | h
    · have hvalue := (initial_byte first).1 h
      exact ⟨by omega, hvalue.2⟩
    · have hvalue := (initial_byte first).2.1 h
      exact ⟨by omega, hvalue.2⟩
  have hle : 1 ≤ data.length := (List.getElem?_eq_some_iff.mp hfirst).1
  obtain ⟨item, hitem, -, hrest, hshort⟩ :=
    exists_int hfirst hbyte.1 (Or.inl ⟨hbyte.2, rfl⟩) hle
  exact ⟨item, hitem, hshort.mpr (Or.inl hrest)⟩

theorem arg_of_rest_byte {head : Head} {byte : UInt8}
    (h : head.rest = [byte]) : head.arg = byte.toNat := by
  have hrest : head.rest ≠ [] := by
    rw [h]
    exact List.cons_ne_nil _ _
  rw [(Head.arg_of_rest_ne_nil hrest).2.2.2, h]
  simp [beNat]

theorem arg_of_rest_word {head : Head} {high low : UInt8}
    (h : head.rest = [high, low]) :
    head.arg = high.toNat * 256 + low.toNat := by
  have hrest : head.rest ≠ [] := by
    rw [h]
    exact List.cons_ne_nil _ _
  rw [(Head.arg_of_rest_ne_nil hrest).2.2.2, h]
  simp [beNat]

theorem shortest_of_rest_byte {head : Head} {byte : UInt8}
    (h : head.rest = [byte]) : head.Shortest ↔ 24 ≤ byte.toNat := by
  rw [Head.Shortest, arg_of_rest_byte h, h]
  simp

theorem shortest_of_rest_word {head : Head} {high low : UInt8}
    (h : head.rest = [high, low]) :
    head.Shortest ↔ 256 ≤ high.toNat * 256 + low.toNat := by
  rw [Head.Shortest, arg_of_rest_word h, h]
  simp

theorem take_one {byte : UInt8} (h : data[1]? = some byte) :
    (data.drop 1).take 1 = [byte] := by
  rw [List.take_one, List.head?_drop, h]
  rfl

theorem take_two {high low : UInt8} (hhigh : data[1]? = some high)
    (hlow : data[2]? = some low) : (data.drop 1).take 2 = [high, low] := by
  have hone := take_one hhigh
  rw [show 2 = 1 + 1 from rfl, List.take_add, hone, List.drop_drop,
    List.take_one, List.head?_drop, hlow]
  rfl

/-- An integer in the byte behind the initial byte. -/
theorem exists_byteInt {first byte : UInt8} (hfirst : data[0]? = some first)
    (hkind : first = 0x18 ∨ first = 0x38) (hbyte : data[1]? = some byte) :
    ∃ item : Item, ReadsItem data 2 item ∧
      (item.Shortest ↔ 24 ≤ byte.toNat) := by
  have hle : 2 ≤ data.length := (List.getElem?_eq_some_iff.mp hbyte).1
  have hinfo : first.toNat / 32 ≤ 1 ∧ first.toNat % 32 = 24 := by
    rcases hkind with rfl | rfl <;> decide
  obtain ⟨item, hitem, -, hrest, hshort⟩ := exists_int hfirst hinfo.1
    (Or.inr ⟨hinfo.2.ge, by omega, rfl⟩) (by rw [hinfo.2]; exact hle)
  rw [hinfo.2] at hitem hrest
  rw [show 2 ^ (24 - 24) = 1 from rfl, take_one hbyte] at hrest
  rw [shortest_of_rest_byte hrest] at hshort
  exact ⟨item, hitem, hshort⟩

/-- An integer in the two bytes behind the initial byte. -/
theorem exists_wordInt {first high low : UInt8}
    (hfirst : data[0]? = some first) (hkind : first = 0x19 ∨ first = 0x39)
    (hhigh : data[1]? = some high) (hlow : data[2]? = some low) :
    ∃ item : Item, ReadsItem data 3 item ∧
      (item.Shortest ↔ 256 ≤ high.toNat * 256 + low.toNat) := by
  have hle : 3 ≤ data.length := (List.getElem?_eq_some_iff.mp hlow).1
  have hinfo : first.toNat / 32 ≤ 1 ∧ first.toNat % 32 = 25 := by
    rcases hkind with rfl | rfl <;> decide
  obtain ⟨item, hitem, -, hrest, hshort⟩ := exists_int hfirst hinfo.1
    (Or.inr ⟨by omega, by omega, rfl⟩) (by rw [hinfo.2]; exact hle)
  rw [hinfo.2] at hitem hrest
  rw [show 2 ^ (25 - 24) = 2 from rfl, take_two hhigh hlow] at hrest
  rw [shortest_of_rest_word hrest] at hshort
  exact ⟨item, hitem, hshort⟩

/-- A string of either kind behind its initial byte. -/
theorem exists_smallString {first : UInt8} {len : Nat}
    (hfirst : data[0]? = some first)
    (hmajor : first.toNat / 32 = 2 ∨ first.toNat / 32 = 3)
    (hlen : first.toNat % 32 = len ∧ first.toNat % 32 < 24)
    (hle : 1 + len ≤ data.length) :
    ∃ item : Item, ReadsItem data (1 + len) item ∧ item.Shortest := by
  obtain ⟨head, hown, hrest, hbytes⟩ :=
    exists_head hfirst (Or.inl ⟨hlen.2, rfl⟩) (by omega)
  have hbody : head.bodyLength = len := by
    rw [Head.bodyLength, Head.major, hown, if_pos hmajor,
      (Head.arg_of_rest_nil hrest).1, hown, hlen.1]
  obtain ⟨item, hitem, -, -, hshort⟩ := exists_string hbytes
    (by rw [Head.major, hown]; omega) (by rw [hbody]; exact hle)
  rw [hbody] at hitem
  exact ⟨item, hitem, hshort.mpr (Or.inl hrest)⟩

/-- A string of either kind behind a length of one byte. -/
theorem exists_byteString {first len : UInt8}
    (hfirst : data[0]? = some first) (hkind : first = 0x58 ∨ first = 0x78)
    (hlen : data[1]? = some len) (hle : 2 + len.toNat ≤ data.length) :
    ∃ item : Item, ReadsItem data (2 + len.toNat) item ∧
      (item.Shortest ↔ 24 ≤ len.toNat) := by
  have hinfo : (first.toNat / 32 = 2 ∨ first.toNat / 32 = 3) ∧
      first.toNat % 32 = 24 := by
    rcases hkind with rfl | rfl <;> decide
  obtain ⟨head, hown, hrest, hbytes⟩ := exists_head hfirst
    (Or.inr ⟨hinfo.2.ge, by omega, rfl⟩) (by rw [hinfo.2]; omega)
  rw [hinfo.2] at hrest hbytes
  rw [show 2 ^ (24 - 24) = 1 from rfl, take_one hlen] at hrest
  have hbody : head.bodyLength = len.toNat := by
    rw [Head.bodyLength, Head.major, hown, if_pos hinfo.1,
      arg_of_rest_byte hrest]
  obtain ⟨item, hitem, -, -, hshort⟩ := exists_string hbytes
    (by rw [Head.major, hown]; omega) (by rw [hbody]; exact hle)
  rw [hbody] at hitem
  rw [shortest_of_rest_byte hrest] at hshort
  exact ⟨item, hitem, hshort⟩

/-- A byte string behind a length of two bytes. -/
theorem exists_wordString {high low : UInt8} (hfirst : data[0]? = some 0x59)
    (hhigh : data[1]? = some high) (hlow : data[2]? = some low)
    (hle : 3 + (high.toNat * 256 + low.toNat) ≤ data.length) :
    ∃ item : Item,
      ReadsItem data (3 + (high.toNat * 256 + low.toNat)) item ∧
      (item.Shortest ↔ 256 ≤ high.toNat * 256 + low.toNat) := by
  obtain ⟨head, hown, hrest, hbytes⟩ := exists_head hfirst
    (Or.inr ⟨by decide, by decide, rfl⟩) (by
      rw [show 2 ^ ((0x59 : UInt8).toNat % 32 - 24) = 2 from rfl]
      omega)
  rw [show 2 ^ ((0x59 : UInt8).toNat % 32 - 24) = 2 from rfl] at hrest hbytes
  rw [take_two hhigh hlow] at hrest
  have hbody : head.bodyLength = high.toNat * 256 + low.toNat := by
    rw [Head.bodyLength, Head.major, hown, if_pos (Or.inl (by decide)),
      arg_of_rest_word hrest]
  obtain ⟨item, hitem, -, -, hshort⟩ := exists_string hbytes
    (by rw [Head.major, hown]; decide) (by rw [hbody]; exact hle)
  rw [hbody] at hitem
  rw [shortest_of_rest_word hrest] at hshort
  exact ⟨item, hitem, hshort⟩

/-! Items in a row, and arrays of them. -/

/-- The bytes from `offset` to `last` are a row of items without maps. -/
structure ReadsRow (data : Bytes) (offset last : Nat) (items : List Item) :
    Prop where
  bytes : (items.map Item.encode).flatten =
    (data.drop offset).take (last - offset)
  offset_le : offset ≤ last
  last_le : last ≤ data.length
  mapFree : ∀ item ∈ items, item.MapFree

namespace ReadsRow

variable {offset last size : Nat} {item : Item} {items : List Item}

theorem nil (h : offset ≤ data.length) : ReadsRow data offset offset [] where
  bytes := by simp
  offset_le := le_rfl
  last_le := h
  mapFree := fun _ h => absurd h List.not_mem_nil

theorem cons (hitem : ReadsItem (data.drop offset) size item)
    (hrow : ReadsRow data (offset + size) last items) :
    ReadsRow data offset last (item :: items) where
  bytes := by
    have hle := hrow.offset_le
    have hsplit : last - offset = size + (last - (offset + size)) := by omega
    rw [List.map_cons, List.flatten_cons, hitem.1, hrow.bytes, hsplit,
      List.take_add, List.drop_drop]
  offset_le := le_trans (Nat.le_add_right _ _) hrow.offset_le
  last_le := hrow.last_le
  mapFree := by
    intro other hother
    rcases List.mem_cons.mp hother with rfl | hother
    · exact hitem.2.2
    · exact hrow.mapFree other hother

/-- A head of an array in front of a row. -/
theorem array {head : Head} (hbytes : head.bytes = data.take offset)
    (hmajor : head.major = 4) (harg : items.length = head.arg)
    (hrow : ReadsRow data offset last items) :
    ∃ item : Item, ReadsItem data last item ∧ item.head = head ∧
      item.children = items ∧
      (item.Shortest ↔ head.Shortest ∧ ∀ item ∈ items, item.Shortest) := by
  have hchildren : items.length = head.childCount := by
    rw [Head.childCount, if_pos hmajor, harg]
  have hbody : ([] : Bytes).length = head.bodyLength := by
    rw [Head.bodyLength, if_neg (by omega)]
    rfl
  have hle := hrow.offset_le
  refine ⟨Item.ofList head [] items hbody hchildren, ⟨?_, hrow.last_le, ?_⟩,
    rfl, Item.children_ofList, Item.shortest_ofList⟩
  · rw [Item.encode_ofList, hbytes, hrow.bytes, List.nil_append,
      ← List.take_add]
    congr 1
    omega
  · rw [Item.mapFree_ofList]
    exact ⟨by omega, hrow.mapFree⟩

end ReadsRow

theorem skipRun_row {skip : Bytes → Outcome EdhocError Nat}
    {good : Item → Prop} (hskip : ∀ rest size, skip rest = .ok size →
      ∃ item, ReadsItem rest size item ∧ good item)
    {count offset last : Nat} (h : skipRun skip data count offset = .ok last)
    (hoffset : offset ≤ data.length) :
    ∃ items, items.length = count ∧ ReadsRow data offset last items ∧
      ∀ item ∈ items, good item := by
  induction count generalizing offset with
  | zero =>
      cases h
      exact ⟨[], rfl, .nil hoffset, fun _ h => absurd h List.not_mem_nil⟩
  | succ count ih =>
      obtain ⟨rest, hrest, h⟩ := Outcome.bind_eq_ok.mp h
      obtain ⟨-, rfl⟩ := sliceFrom_eq_ok.mp hrest
      obtain ⟨size, hsize, h⟩ := Outcome.bind_eq_ok.mp h
      obtain ⟨item, hitem, hgood⟩ := hskip _ size hsize
      have hle := hitem.2.1
      rw [List.length_drop] at hle
      obtain ⟨items, hcount, hrow, hall⟩ := ih h (by omega)
      exact ⟨item :: items, congrArg Nat.succ hcount, .cons hitem hrow,
        List.forall_mem_cons.mpr ⟨hgood, hall⟩⟩

/-- The head of an array of at most 23 items. -/
theorem exists_arrayHead {first : UInt8} (hfirst : data[0]? = some first)
    (harray : 0x80 ≤ first ∧ first ≤ 0x97) :
    ∃ head : Head, head.bytes = data.take 1 ∧ head.major = 4 ∧
      head.arg = (first - 0x80).toNat ∧ head.Shortest := by
  obtain ⟨hmajor, hinfo, hlt⟩ := (initial_byte first).2.2.2.2 harray
  have hle : 1 ≤ data.length := (List.getElem?_eq_some_iff.mp hfirst).1
  obtain ⟨head, hown, hrest, hbytes⟩ :=
    exists_head hfirst (Or.inl ⟨hlt, rfl⟩) hle
  refine ⟨head, hbytes, by rw [Head.major, hown]; exact hmajor, ?_,
    Or.inl hrest⟩
  rw [(Head.arg_of_rest_nil hrest).1, hown, hinfo]

theorem exists_byte {i : Nat} (h : i < data.length) :
    ∃ byte, data[i]? = some byte :=
  ⟨_, List.getElem?_eq_getElem h⟩

theorem measured_byteInt {first : UInt8} (hfirst : data[0]? = some first)
    (hkind : first = 0x18 ∨ first = 0x38) (h : measured data 2 = .ok n) :
    ∃ item, ReadsItem data n item := by
  obtain ⟨rfl, hle⟩ := measured_eq_ok.mp h
  obtain ⟨byte, hbyte⟩ := exists_byte (i := 1) hle
  obtain ⟨item, hitem, -⟩ := exists_byteInt hfirst hkind hbyte
  exact ⟨item, hitem⟩

theorem measured_wordInt {first : UInt8} (hfirst : data[0]? = some first)
    (hkind : first = 0x19 ∨ first = 0x39) (h : measured data 3 = .ok n) :
    ∃ item, ReadsItem data n item := by
  obtain ⟨rfl, hle⟩ := measured_eq_ok.mp h
  obtain ⟨high, hhigh⟩ := exists_byte (i := 1) (lt_of_lt_of_le (by decide) hle)
  obtain ⟨low, hlow⟩ := exists_byte (i := 2) hle
  obtain ⟨item, hitem, -⟩ := exists_wordInt hfirst hkind hhigh hlow
  exact ⟨item, hitem⟩

/-- What is read as an integer is one in its shortest form. -/
theorem tryParseCborInt_item {val : Int}
    (h : tryParseCborInt data = some (val, n)) :
    ∃ item, ReadsItem data n item ∧ item.Shortest := by
  obtain ⟨item, rest, rfl, hform, rfl⟩ := tryParseCborInt_eq_some.mp h
  have hval : ∀ {byte : UInt8}, ¬ byte < 24 → 24 ≤ byte.toNat := by
    intro byte hbyte
    rw [UInt8.lt_iff_toNat_lt] at hbyte
    exact Nat.not_lt.mp hbyte
  cases hform with
  | small first hsmall => exact exists_smallInt rfl (Or.inl hsmall)
  | byte byte hshort =>
      have hfirst : ([0x18, byte] ++ rest)[0]? = some 0x18 := rfl
      obtain ⟨item, hitem, hiff⟩ := exists_byteInt hfirst (Or.inl rfl) rfl
      exact ⟨item, hitem, hiff.mpr (hval hshort)⟩
  | word high low hshort =>
      have hfirst : ([0x19, high, low] ++ rest)[0]? = some 0x19 := rfl
      obtain ⟨item, hitem, hiff⟩ := exists_wordInt hfirst (Or.inl rfl) rfl rfl
      exact ⟨item, hitem, hiff.mpr (by omega)⟩
  | negative first hneg => exact exists_smallInt rfl (Or.inr hneg)
  | negativeByte byte hshort =>
      have hfirst : ([0x38, byte] ++ rest)[0]? = some 0x38 := rfl
      obtain ⟨item, hitem, hiff⟩ := exists_byteInt hfirst (Or.inr rfl) rfl
      exact ⟨item, hitem, hiff.mpr (hval hshort)⟩
  | negativeWord high low hshort =>
      have hfirst : ([0x39, high, low] ++ rest)[0]? = some 0x39 := rfl
      obtain ⟨item, hitem, hiff⟩ := exists_wordInt hfirst (Or.inr rfl) rfl rfl
      exact ⟨item, hitem, hiff.mpr (by omega)⟩

/-- A byte string whose length is checked. -/
theorem parseCanonicalBstr_item {value : Bytes}
    (h : parseCanonicalBstr data = .ok (value, n)) :
    ∃ item, ReadsItem data n item ∧ item.Shortest := by
  obtain ⟨first, hbyte, h⟩ := Outcome.bind_eq_ok.mp h
  have hfirst := byteAt_eq_ok.mp hbyte
  obtain ⟨-, -, hbstr, -, -⟩ := initial_byte first
  rcases ite_eq_iff.mp h with ⟨hsmall, h⟩ | ⟨-, h⟩
  · obtain ⟨rfl, hle, -⟩ := takeItem_eq_ok.mp h
    obtain ⟨hmajor, hlen⟩ := hbstr hsmall
    exact exists_smallString hfirst (Or.inl hmajor) hlen hle
  rcases ite_eq_iff.mp h with ⟨hkind, h⟩ | ⟨-, h⟩
  · obtain ⟨len, hlen, h⟩ := Outcome.bind_eq_ok.mp h
    obtain ⟨_, hshort, h⟩ := Outcome.bind_eq_ok.mp h
    obtain ⟨rfl, hle, -⟩ := takeItem_eq_ok.mp h
    obtain ⟨item, hitem, hiff⟩ :=
      exists_byteString hfirst (Or.inl hkind) (byteAt_eq_ok.mp hlen) hle
    exact ⟨item, hitem, hiff.mpr (Nat.not_lt.mp (failIf_eq_ok.mp hshort))⟩
  rcases ite_eq_iff.mp h with ⟨hkind, h⟩ | ⟨-, h⟩
  · obtain ⟨high, hhigh, h⟩ := Outcome.bind_eq_ok.mp h
    obtain ⟨low, hlow, h⟩ := Outcome.bind_eq_ok.mp h
    obtain ⟨_, hshort, h⟩ := Outcome.bind_eq_ok.mp h
    obtain ⟨rfl, hle, -⟩ := takeItem_eq_ok.mp h
    rw [hkind] at hfirst
    obtain ⟨item, hitem, hiff⟩ := exists_wordString hfirst
      (byteAt_eq_ok.mp hhigh) (byteAt_eq_ok.mp hlow) hle
    have hwide := Nat.not_le.mp (failIf_eq_ok.mp hshort)
    exact ⟨item, hitem, hiff.mpr hwide⟩
  · cases h

/-- A byte string whose length may be in any form. -/
theorem parseBstr_item {value : Bytes} (h : parseBstr data = .ok (value, n)) :
    ∃ item, ReadsItem data n item ∧ (data[0]? = some 0x58 →
      ∃ len, data[1]? = some len ∧ (item.Shortest ↔ 24 ≤ len.toNat)) ∧
      (data[0]? ≠ some 0x58 → data[0]? ≠ some 0x59 → item.Shortest) := by
  obtain ⟨first, hbyte, h⟩ := Outcome.bind_eq_ok.mp h
  have hfirst := byteAt_eq_ok.mp hbyte
  obtain ⟨-, -, hbstr, -, -⟩ := initial_byte first
  rcases ite_eq_iff.mp h with ⟨hsmall, h⟩ | ⟨-, h⟩
  · obtain ⟨rfl, hle, -⟩ := takeItem_eq_ok.mp h
    obtain ⟨hmajor, hlen⟩ := hbstr hsmall
    obtain ⟨item, hitem, hshort⟩ :=
      exists_smallString hfirst (Or.inl hmajor) hlen hle
    refine ⟨item, hitem, fun hown => ?_, fun _ _ => hshort⟩
    cases Option.some.inj (hfirst.symm.trans hown)
    exact absurd hsmall (by decide)
  rcases ite_eq_iff.mp h with ⟨hkind, h⟩ | ⟨-, h⟩
  · obtain ⟨len, hlen, h⟩ := Outcome.bind_eq_ok.mp h
    obtain ⟨rfl, hle, -⟩ := takeItem_eq_ok.mp h
    have hsecond := byteAt_eq_ok.mp hlen
    obtain ⟨item, hitem, hiff⟩ :=
      exists_byteString hfirst (Or.inl hkind) hsecond hle
    rw [hkind] at hfirst
    exact ⟨item, hitem, fun _ => ⟨len, hsecond, hiff⟩,
      fun hnot => absurd hfirst hnot⟩
  rcases ite_eq_iff.mp h with ⟨hkind, h⟩ | ⟨-, h⟩
  · obtain ⟨high, hhigh, h⟩ := Outcome.bind_eq_ok.mp h
    obtain ⟨low, hlow, h⟩ := Outcome.bind_eq_ok.mp h
    obtain ⟨rfl, hle, -⟩ := takeItem_eq_ok.mp h
    rw [hkind] at hfirst
    obtain ⟨item, hitem, -⟩ := exists_wordString hfirst
      (byteAt_eq_ok.mp hhigh) (byteAt_eq_ok.mp hlow) hle
    refine ⟨item, hitem, fun hown => ?_, fun _ hnot => absurd hfirst hnot⟩
    exact absurd (Option.some.inj (hfirst.symm.trans hown)) (by decide)
  · cases h

end Oscore.Edhoc
