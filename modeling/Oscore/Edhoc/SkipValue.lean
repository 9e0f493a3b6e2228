/-
What `skip_cbor_value` measures: one item of the kinds it knows, whatever
follows it.  An array is measured item by item, so that both directions go by
the nesting of the item.
-/
import Oscore.Edhoc.DataItem

namespace Oscore.Edhoc

open Rust Cbor

variable {data : Bytes} {n : Nat}

/-- Integers of up to 16 bits; strings and arrays with a length of up to 8
bits. -/
def KnownHead (head : Head) : Prop :=
  (head.major ≤ 1 ∧ head.rest.length ≤ 2) ∨
    (2 ≤ head.major ∧ head.major ≤ 4 ∧ head.rest.length ≤ 1)

/-- Every head in the item is known. -/
def Supported : Item → Prop
  | .node head _ children _ => KnownHead head ∧ ∀ i, Supported (children i)

/-! By major type. -/

/-- The conditions of the source on the initial byte. -/
theorem branch_iff (first : UInt8) :
    (first ≤ 0x17 ↔ first.toNat / 32 = 0 ∧ first.toNat % 32 < 24) ∧
    (first = 0x18 ↔ first.toNat / 32 = 0 ∧ first.toNat % 32 = 24) ∧
    (first = 0x19 ↔ first.toNat / 32 = 0 ∧ first.toNat % 32 = 25) ∧
    (0x20 ≤ first ∧ first ≤ 0x37 ↔
      first.toNat / 32 = 1 ∧ first.toNat % 32 < 24) ∧
    (first = 0x38 ↔ first.toNat / 32 = 1 ∧ first.toNat % 32 = 24) ∧
    (first = 0x39 ↔ first.toNat / 32 = 1 ∧ first.toNat % 32 = 25) ∧
    (0x40 ≤ first ∧ first ≤ 0x57 ↔
      first.toNat / 32 = 2 ∧ first.toNat % 32 < 24) ∧
    (first = 0x58 ↔ first.toNat / 32 = 2 ∧ first.toNat % 32 = 24) ∧
    (0x60 ≤ first ∧ first ≤ 0x77 ↔
      first.toNat / 32 = 3 ∧ first.toNat % 32 < 24) ∧
    (first = 0x78 ↔ first.toNat / 32 = 3 ∧ first.toNat % 32 = 24) ∧
    (0x80 ≤ first ∧ first ≤ 0x97 ↔
      first.toNat / 32 = 4 ∧ first.toNat % 32 < 24) ∧
    (first = 0x98 ↔ first.toNat / 32 = 4 ∧ first.toNat % 32 = 24) := by
  revert first
  apply forall_byte
  decide +kernel

/-- The body of `skip_cbor_value`, by major type and what the initial byte says
about the argument. -/
def skipMajor (skip : Bytes → Outcome EdhocError Nat) (data : Bytes)
    (major info : Nat) : Outcome EdhocError Nat :=
  if major ≤ 1 then
    if info < 24 then .ok 1
    else if info = 24 then measured data 2
    else if info = 25 then measured data 3
    else .error (.err .invalidMessage)
  else if major ≤ 3 then
    if info < 24 then measured data (1 + info)
    else if info = 24 then do
      let len ← byteAt data 1
      measured data (2 + len.toNat)
    else .error (.err .invalidMessage)
  else if major = 4 then
    if info < 24 then skipRun skip data info 1
    else if info = 24 then do
      let count ← byteAt data 1
      skipRun skip data count.toNat 2
    else .error (.err .invalidMessage)
  else .error (.err .invalidMessage)

theorem skipValue_succ (fuel : Nat) (data : Bytes) :
    skipValue (fuel + 1) data = (do
      let first ← byteAt data 0
      skipMajor (skipValue fuel) data (first.toNat / 32)
        (first.toNat % 32)) := by
  rw [skipValue]
  refine congrArg (byteAt data 0 >>= ·) (funext fun first => ?_)
  obtain ⟨-, -, hbstr, htext, harray⟩ := initial_byte first
  obtain ⟨h1, h2, h3, h4, h5, h6, h7, h8, h9, h10, h11, h12⟩ :=
    branch_iff first
  have hbstr' : first.toNat / 32 = 2 → first.toNat % 32 < 24 →
      (first - 0x40).toNat = first.toNat % 32 :=
    fun hmajor hinfo => (hbstr (h7.mpr ⟨hmajor, hinfo⟩)).2.1.symm
  have htext' : first.toNat / 32 = 3 → first.toNat % 32 < 24 →
      (first - 0x60).toNat = first.toNat % 32 :=
    fun hmajor hinfo => (htext (h9.mpr ⟨hmajor, hinfo⟩)).2.1.symm
  have harray' : first.toNat / 32 = 4 → first.toNat % 32 < 24 →
      (first - 0x80).toNat = first.toNat % 32 :=
    fun hmajor hinfo => (harray (h11.mpr ⟨hmajor, hinfo⟩)).2.1.symm
  simp only [h1, h2, h3, h4, h5, h6, h7, h8, h9, h10, h11, h12, skipMajor]
  generalize (first - 0x40).toNat = bstrLen at *
  generalize (first - 0x60).toNat = textLen at *
  generalize (first - 0x80).toNat = count at *
  generalize first.toNat / 32 = major at *
  generalize first.toNat % 32 = info at *
  clear hbstr htext harray h1 h2 h3 h4 h5 h6 h7 h8 h9 h10 h11 h12
  have hmajor : major = 0 ∨ major = 1 ∨ major = 2 ∨ major = 3 ∨ major = 4 ∨
      (¬ major ≤ 1 ∧ ¬ major ≤ 3 ∧ major ≠ 0 ∧ major ≠ 1 ∧ major ≠ 2 ∧
        major ≠ 3 ∧ major ≠ 4) := by omega
  by_cases hinfo : info < 24
  · have h24 : info ≠ 24 := by omega
    have h25 : info ≠ 25 := by omega
    rcases hmajor with rfl | rfl | rfl | rfl | rfl | hmajor <;> simp [*]
  · clear hbstr' htext' harray'
    rcases hmajor with rfl | rfl | rfl | rfl | rfl | hmajor <;> simp [*]

/-! Known heads. -/

theorem length_headBytes (head : Head) :
    head.bytes.length = 1 + head.rest.length := by
  rw [Head.bytes, List.length_cons, Nat.add_comm]

/-- The argument of a known head is in its initial byte, or in one or two bytes
behind it. -/
theorem KnownHead.width {head : Head} (h : KnownHead head) :
    (head.first.toNat % 32 < 24 ∧ head.rest = [] ∧
        head.arg = head.first.toNat % 32) ∨
      (head.first.toNat % 32 = 24 ∧ ∃ byte, head.rest = [byte] ∧
        head.arg = byte.toNat) ∨
      (head.first.toNat % 32 = 25 ∧ head.rest.length = 2 ∧ head.major ≤ 1) := by
  rcases head.width with ⟨hinfo, hrest⟩ | ⟨hle, hge, hrest⟩
  · exact Or.inl ⟨hinfo, hrest, (Head.arg_of_rest_nil hrest).1⟩
  · have hlength : head.rest.length ≤ 2 := by
      rcases h with h | h <;> omega
    rcases (by omega : head.first.toNat % 32 = 24 ∨
      head.first.toNat % 32 = 25 ∨ head.first.toNat % 32 = 26 ∨
      head.first.toNat % 32 = 27) with hinfo | hinfo | hinfo | hinfo <;>
      rw [hinfo] at hrest
    · obtain ⟨byte, hbyte⟩ := List.length_eq_one_iff.mp hrest
      exact Or.inr (Or.inl ⟨hinfo, byte, hbyte, arg_of_rest_byte hbyte⟩)
    · refine Or.inr (Or.inr ⟨hinfo, hrest, ?_⟩)
      rcases h with h | h
      · exact h.1
      · exact absurd h.2.2 (by rw [hrest]; decide)
    · omega
    · omega

/-- Behind a known head the body of `skip_cbor_value` goes by the major type
alone. -/
theorem skipMajor_of_known {head : Head} (h : KnownHead head)
    (skip : Bytes → Outcome EdhocError Nat) (rest : Bytes) :
    skipMajor skip (head.bytes ++ rest) head.major (head.first.toNat % 32) =
      if head.major ≤ 1 then .ok head.bytes.length
      else if head.major ≤ 3 then
        measured (head.bytes ++ rest) (head.bytes.length + head.arg)
      else skipRun skip (head.bytes ++ rest) head.arg head.bytes.length := by
  have hmajor : head.major ≤ 4 := by
    rcases h with h | h <;> omega
  have hfour : ¬ head.major ≤ 3 → head.major = 4 := by omega
  have hlength := length_headBytes head
  rw [skipMajor]
  rcases h.width with ⟨hinfo, hrest, harg⟩ | ⟨hinfo, byte, hrest, harg⟩ |
    ⟨hinfo, hrest, hone⟩
  · rw [hrest] at hlength
    split_ifs with hone hthree hlast
    · rw [hlength]
      rfl
    · rw [hlength, harg]
      rfl
    · rw [hlength, harg]
      rfl
    · exact absurd (hfour hthree) hlast
  · have hsecond : byteAt (head.bytes ++ rest) 1 = .ok byte := by
      rw [byteAt_eq_ok, Head.bytes, hrest]
      rfl
    rw [hrest] at hlength
    have hmeasured : measured (head.bytes ++ rest) 2 = .ok 2 :=
      measured_eq_ok.mpr ⟨rfl, by rw [List.length_append, hlength]; simp⟩
    simp only [hinfo, hsecond, hmeasured, Outcome.ok_bind, hlength, harg,
      List.length_cons, List.length_nil, Nat.lt_irrefl, ↓reduceIte]
    split_ifs with hone hthree hlast
    · rfl
    · rfl
    · rfl
    · exact absurd (hfour hthree) hlast
  · have hmeasured : measured (head.bytes ++ rest) 3 = .ok 3 :=
      measured_eq_ok.mpr
        ⟨rfl, by rw [List.length_append, hlength, hrest]; omega⟩
    simp [hinfo, hone, hmeasured, hlength, hrest]

/-- What is measured begins with a known head. -/
theorem exists_known_head {skip : Bytes → Outcome EdhocError Nat}
    {first : UInt8} (hfirst : data[0]? = some first)
    (h : skipMajor skip data (first.toNat / 32) (first.toNat % 32) = .ok n) :
    ∃ head rest, KnownHead head ∧ head.first = first ∧
      data = head.bytes ++ rest := by
  have hone : 1 ≤ data.length := (List.getElem?_eq_some_iff.mp hfirst).1
  have htwo : ∀ {α : Type} {f : UInt8 → Outcome EdhocError α} {a : α},
      (byteAt data 1 >>= f) = .ok a → 2 ≤ data.length := by
    intro α f a h
    obtain ⟨byte, hbyte, -⟩ := Outcome.bind_eq_ok.mp h
    exact (List.getElem?_eq_some_iff.mp (byteAt_eq_ok.mp hbyte)).1
  have hknown : ∀ width, (first.toNat % 32 < 24 ∧ width = 0 ∨
        first.toNat % 32 = 24 ∧ width = 1 ∨
        first.toNat % 32 = 25 ∧ width = 2) → 1 + width ≤ data.length →
      (first.toNat / 32 ≤ 1 ∧ width ≤ 2 ∨
        2 ≤ first.toNat / 32 ∧ first.toNat / 32 ≤ 4 ∧ width ≤ 1) →
      ∃ head rest, KnownHead head ∧ head.first = first ∧
        data = head.bytes ++ rest := by
    intro width hwidth hle hkind
    have hform : (first.toNat % 32 < 24 ∧ width = 0) ∨
        (24 ≤ first.toNat % 32 ∧ first.toNat % 32 ≤ 27 ∧
          width = 2 ^ (first.toNat % 32 - 24)) := by
      rcases hwidth with hsmall | ⟨hinfo, rfl⟩ | ⟨hinfo, rfl⟩
      · exact Or.inl hsmall
      · exact Or.inr ⟨by omega, by omega, by rw [hinfo]; rfl⟩
      · exact Or.inr ⟨by omega, by omega, by rw [hinfo]; rfl⟩
    obtain ⟨head, rfl, hrest, hbytes⟩ := exists_head hfirst hform hle
    have hlength : head.rest.length = width := by
      rw [hrest, List.length_take_of_le]
      rw [List.length_drop]
      omega
    refine ⟨head, data.drop (1 + width), ?_, rfl, ?_⟩
    · rw [KnownHead, hlength]
      exact hkind
    · rw [hbytes, List.take_append_drop]
  unfold skipMajor at h
  split_ifs at h with hint hsmall hbyte hword hstring hsmall hbyte harray
    hsmall hbyte
  · exact hknown 0 (Or.inl ⟨hsmall, rfl⟩) hone (by omega)
  · exact hknown 1 (Or.inr (Or.inl ⟨hbyte, rfl⟩))
      (measured_eq_ok.mp h).2 (by omega)
  · exact hknown 2 (Or.inr (Or.inr ⟨hword, rfl⟩))
      (measured_eq_ok.mp h).2 (by omega)
  · exact hknown 0 (Or.inl ⟨hsmall, rfl⟩) hone (by omega)
  · exact hknown 1 (Or.inr (Or.inl ⟨hbyte, rfl⟩)) (htwo h)
      (by omega)
  · exact hknown 0 (Or.inl ⟨hsmall, rfl⟩) hone (by omega)
  · exact hknown 1 (Or.inr (Or.inl ⟨hbyte, rfl⟩)) (htwo h)
      (by omega)

/-! Supported items. -/

theorem supported_iff (item : Item) :
    Supported item ↔ KnownHead item.head ∧
      ∀ child ∈ item.children, Supported child := by
  cases item with
  | node head body children fits =>
      rw [Supported, Item.head, Item.children, List.forall_mem_ofFn_iff]

/-- An item without items in it is as good as its head. -/
theorem supported_of_leaf {item : Item} (h : KnownHead item.head)
    (hleaf : item.children = []) : Supported item := by
  rw [supported_iff, hleaf]
  exact ⟨h, fun _ hmem => absurd hmem List.not_mem_nil⟩

theorem skipValue_supported (fuel : Nat) {data : Bytes} {n : Nat}
    (h : skipValue fuel data = .ok n) :
    ∃ item, ReadsItem data n item ∧ Supported item := by
  induction fuel generalizing data n with
  | zero => cases h
  | succ fuel ih =>
      rw [skipValue_succ] at h
      obtain ⟨first, hbyte, h⟩ := Outcome.bind_eq_ok.mp h
      obtain ⟨head, rest, hknown, rfl, rfl⟩ :=
        exists_known_head (byteAt_eq_ok.mp hbyte) h
      rw [show head.first.toNat / 32 = head.major from rfl,
        skipMajor_of_known hknown] at h
      have hbytes : head.bytes = (head.bytes ++ rest).take head.bytes.length :=
        (List.take_left' rfl).symm
      have hle : head.bytes.length ≤ (head.bytes ++ rest).length := by
        rw [List.length_append]
        exact Nat.le_add_right _ _
      split_ifs at h with hint hstring
      · cases h
        have hbody : head.bodyLength = 0 := by
          rw [Head.bodyLength, if_neg (by omega)]
        obtain ⟨item, hitem, rfl, hleaf, -⟩ :=
          exists_string hbytes (by omega) (by rwa [hbody])
        rw [hbody] at hitem
        exact ⟨item, hitem, supported_of_leaf hknown hleaf⟩
      · obtain ⟨rfl, hfits⟩ := measured_eq_ok.mp h
        have hbody : head.bodyLength = head.arg := by
          rw [Head.bodyLength, if_pos (by omega)]
        obtain ⟨item, hitem, rfl, hleaf, -⟩ :=
          exists_string hbytes hstring (by rwa [hbody])
        rw [hbody] at hitem
        exact ⟨item, hitem, supported_of_leaf hknown hleaf⟩
      · have hmajor : head.major = 4 := by
          rcases hknown with hknown | hknown <;> omega
        obtain ⟨items, hcount, hrow, hall⟩ :=
          skipRun_row (fun _ _ => ih) h hle
        obtain ⟨item, hitem, rfl, hchildren, -⟩ :=
          hrow.array hbytes hmajor hcount
        refine ⟨item, hitem, (supported_iff item).mpr ⟨hknown, ?_⟩⟩
        rw [hchildren]
        exact hall

/-- Whatever is skipped is a data item. -/
theorem skipCborValue_item (h : skipCborValue data = .ok n) :
    ∃ item, ReadsItem data n item := by
  obtain ⟨item, hitem, -⟩ := skipValue_supported _ h
  exact ⟨item, hitem⟩

/-- A row of items that are measured one by one. -/
theorem skipRun_items {skip : Bytes → Outcome EdhocError Nat}
    {items : List Item} (hskip : ∀ item ∈ items, ∀ rest,
      skip (item.encode ++ rest) = .ok item.encode.length)
    (before rest : Bytes) :
    skipRun skip (before ++ ((items.map Item.encode).flatten ++ rest))
        items.length before.length =
      .ok (before.length + (items.map Item.encode).flatten.length) := by
  induction items generalizing before with
  | nil => rfl
  | cons item items ih =>
      have hitem := hskip item List.mem_cons_self
        ((items.map Item.encode).flatten ++ rest)
      have hrow := ih (fun other hmem =>
        hskip other (List.mem_cons_of_mem _ hmem)) (before ++ item.encode)
      rw [List.append_assoc, List.length_append] at hrow
      rw [List.map_cons, List.flatten_cons, List.append_assoc,
        List.length_cons, skipRun, sliceFrom_append, Outcome.ok_bind, hitem,
        Outcome.ok_bind, hrow, List.length_append, Nat.add_assoc]

theorem encode_eq (item : Item) : item.encode =
    item.head.bytes ++
      (item.body ++ (item.children.map Item.encode).flatten) := by
  cases item with
  | node head body children fits =>
      rw [Item.encode, Item.head, Item.body, Item.children, List.map_ofFn]
      rfl

theorem length_children (item : Item) :
    item.children.length = item.head.childCount := by
  cases item
  exact List.length_ofFn

theorem length_body (item : Item) :
    item.body.length = item.head.bodyLength := by
  cases item with
  | node head body children fits => exact fits

/-- An item that is in another one is shorter. -/
theorem length_child_lt {item child : Item} (h : child ∈ item.children) :
    child.encode.length < item.encode.length := by
  have hpart : child.encode.length ≤
      (item.children.map Item.encode).flatten.length :=
    (List.sublist_flatten_of_mem (List.mem_map_of_mem h)).length_le
  have hhead := length_headBytes item.head
  rw [encode_eq item, List.length_append, List.length_append]
  omega

/-- One call measures the item, if the calls on what is in it do. -/
theorem skipValue_step {item : Item} (h : KnownHead item.head) {fuel : Nat}
    (hskip : ∀ child ∈ item.children, ∀ rest,
      skipValue fuel (child.encode ++ rest) = .ok child.encode.length)
    (rest : Bytes) :
    skipValue (fuel + 1) (item.encode ++ rest) = .ok item.encode.length := by
  have hbody := length_body item
  have hchildren := length_children item
  have hbyte : byteAt (item.encode ++ rest) 0 = .ok item.head.first := by
    rw [byteAt_eq_ok, encode_eq]
    rfl
  rw [skipValue_succ, hbyte, Outcome.ok_bind,
    show item.head.first.toNat / 32 = item.head.major from rfl, encode_eq,
    List.append_assoc, skipMajor_of_known h, List.length_append,
    List.length_append]
  by_cases hleaf : item.head.major ≤ 3
  · rw [Head.childCount, if_neg (by omega), if_neg (by omega),
      if_neg (by omega), List.length_eq_zero_iff] at hchildren
    rw [hchildren]
    by_cases hint : item.head.major ≤ 1
    · rw [Head.bodyLength, if_neg (by omega)] at hbody
      rw [if_pos hint, hbody]
      rfl
    · rw [Head.bodyLength, if_pos (by omega)] at hbody
      rw [if_neg hint, if_pos hleaf, ← hbody, measured_eq_ok]
      refine ⟨rfl, ?_⟩
      simp only [List.length_append]
      omega
  · have hmajor : item.head.major = 4 := by
      rcases h with h | h <;> omega
    rw [Head.bodyLength, if_neg (by omega), List.length_eq_zero_iff] at hbody
    rw [Head.childCount, if_pos hmajor] at hchildren
    rw [if_neg (by omega), if_neg hleaf, hbody, ← hchildren, List.nil_append,
      skipRun_items hskip]
    rw [List.length_nil, Nat.zero_add]

/-- A supported item is measured, whatever follows it. -/
theorem skipValue_encode (fuel : Nat) {item : Item} (h : Supported item)
    (hfuel : item.encode.length ≤ fuel) (rest : Bytes) :
    skipValue fuel (item.encode ++ rest) = .ok item.encode.length := by
  induction fuel generalizing item rest with
  | zero =>
      have hhead := length_headBytes item.head
      rw [encode_eq, List.length_append] at hfuel
      omega
  | succ fuel ih =>
      obtain ⟨hknown, hall⟩ := (supported_iff item).mp h
      apply skipValue_step hknown
      intro child hmem rest
      exact ih (hall child hmem) (by have := length_child_lt hmem; omega) rest

theorem skipCborValue_encode {item : Item} (h : Supported item)
    (rest : Bytes) :
    skipCborValue (item.encode ++ rest) = .ok item.encode.length := by
  apply skipValue_encode _ h
  rw [List.length_append]
  exact Nat.le_add_right _ _

/-- The body calls itself on shorter input only. -/
theorem skipMajor_congr {skip skip' : Bytes → Outcome EdhocError Nat}
    (h : ∀ rest : Bytes, rest.length < data.length → skip rest = skip' rest)
    (major info : Nat) :
    skipMajor skip data major info = skipMajor skip' data major info := by
  have hone : ∀ count, skipRun skip data count 1 = skipRun skip' data count 1 :=
    fun count => skipRun_congr h count (by decide)
  have htwo : ∀ count, skipRun skip data count 2 = skipRun skip' data count 2 :=
    fun count => skipRun_congr h count (by decide)
  simp only [skipMajor, hone, htwo]

/-- The calls end by themselves: the fuel decides on no input. -/
theorem skipCborValue_unfolds (data : Bytes) :
    skipCborValue data = (do
      let first ← byteAt data 0
      skipMajor skipCborValue data (first.toNat / 32)
        (first.toNat % 32)) := by
  cases data with
  | nil => rfl
  | cons byte rest =>
      rw [skipCborValue, List.length_cons, skipValue_succ]
      refine congrArg (byteAt (byte :: rest) 0 >>= ·) (funext fun first => ?_)
      apply skipMajor_congr
      intro other hlt
      rw [List.length_cons] at hlt
      exact skipValue_fuel (by omega) le_rfl

theorem KnownHead.arg_le {head : Head} (h : KnownHead head) :
    (head.major ≤ 1 → head.arg < 2 ^ 16) ∧
      (2 ≤ head.major → head.major ≤ 4 ∧ head.arg ≤ 255) := by
  rcases h.width with ⟨hinfo, -, harg⟩ | ⟨-, byte, -, harg⟩ |
    ⟨hinfo, hrest, hone⟩
  · rcases h with h | h <;> omega
  · have hbyte := byte.toNat_lt
    rcases h with h | h <;> omega
  · have hne : head.rest ≠ [] := by
      intro hnil
      rw [hnil] at hrest
      cases hrest
    have hvalue := (Head.arg_of_rest_ne_nil hne).2.2.2
    have hlt := beNat_lt head.rest
    rw [hrest, ← hvalue] at hlt
    exact ⟨fun _ => hlt, fun htwo => by omega⟩

/-- What `skip_cbor_value` does on any input. -/
structure SkipsOneItem : Prop where
  exact : ∀ (data : Bytes) (n : Nat), skipCborValue data = .ok n ↔
    ∃ item, Supported item ∧ n ≤ data.length ∧ item.encode = data.take n
  otherwise : ∀ data : Bytes, (∃ n, skipCborValue data = .ok n) ∨
    ∃ error, skipCborValue data = .error (.err error)
  behind : ∀ item : Item, Supported item → ∀ rest,
    skipCborValue (item.encode ++ rest) = .ok item.encode.length
  /-- The arguments that a supported item may hold. -/
  bounds : ∀ head : Head, KnownHead head →
    (head.major ≤ 1 → head.arg < 2 ^ 16) ∧
      (2 ≤ head.major → head.major ≤ 4 ∧ head.arg ≤ 255)
  ends : ∀ data : Bytes, skipCborValue data = (do
    let first ← byteAt data 0
    skipMajor skipCborValue data (first.toNat / 32) (first.toNat % 32))
  fuel : ∀ (data : Bytes) (fuel : Nat), data.length ≤ fuel →
    skipValue fuel data = skipCborValue data

theorem skipCborValue_eq_ok :
    skipCborValue data = .ok n ↔
      ∃ item, Supported item ∧ n ≤ data.length ∧
        item.encode = data.take n := by
  constructor
  · intro h
    obtain ⟨item, ⟨hbytes, hle, -⟩, hitem⟩ := skipValue_supported _ h
    exact ⟨item, hitem, hle, hbytes⟩
  · rintro ⟨item, hitem, hle, hbytes⟩
    have hskip := skipCborValue_encode hitem (data.drop n)
    rwa [hbytes, List.take_append_drop, List.length_take_of_le hle] at hskip

theorem skips_one_item : SkipsOneItem where
  exact _ _ := skipCborValue_eq_ok
  otherwise data := by
    have hmeets := skipCborValue_meets data
    cases h : skipCborValue data with
    | ok n => exact Or.inl ⟨n, rfl⟩
    | error fault =>
        cases fault with
        | err error => exact Or.inr ⟨error, rfl⟩
        | panic => exact absurd h hmeets.ne_panic
  behind _ hitem rest := skipCborValue_encode hitem rest
  bounds _ h := h.arg_le
  ends := skipCborValue_unfolds
  fuel _ _ h := skipValue_fuel h le_rfl

end Oscore.Edhoc
