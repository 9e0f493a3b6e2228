/-
The part of CBOR that byte protocols sign and hash: byte strings behind their
heads, and integers of any width.  A head says how long its item is, so that
items in a row can be told apart.
-/
import Oscore.Lib.Prefix
import Mathlib.Tactic

namespace Cbor

/-- The head of a byte string below 2^16 bytes, in its shortest form. -/
def bstrHead (length : Nat) : List UInt8 :=
  if length ≤ 23 then [0x40 ||| UInt8.ofNat length]
  else if length ≤ 0xff then [0x58, UInt8.ofNat length]
  else [0x59, UInt8.ofNat (length >>> 8), UInt8.ofNat (length &&& 0xff)]

/-- A byte string as a data item. -/
def bstr (bytes : List UInt8) : List UInt8 := bstrHead bytes.length ++ bytes

/-- The largest byte string `bstr` encodes. -/
abbrev bstrMax : Nat := 0xffff

theorem bstrHead_small {n : Nat} (h : n ≤ 23) :
    (0x40 ||| UInt8.ofNat n : UInt8).toNat = 0x40 + n := by
  have hall : ∀ k : Fin 24,
      (0x40 ||| UInt8.ofNat k : UInt8).toNat = 0x40 + k := by decide
  exact hall ⟨n, by omega⟩

theorem toNat_high {n : Nat} (h : n ≤ bstrMax) :
    (UInt8.ofNat (n >>> 8)).toNat = n / 256 := by
  simp only [bstrMax] at h
  rw [UInt8.toNat_ofNat', Nat.shiftRight_eq_div_pow]
  omega

theorem toNat_low (n : Nat) : (UInt8.ofNat (n &&& 0xff)).toNat = n % 256 := by
  have hand : n &&& 0xff = n % 256 := Nat.and_two_pow_sub_one_eq_mod n 8
  rw [UInt8.toNat_ofNat', hand]
  omega

/-- The length in front of a string of bytes, and the bytes behind its head. -/
def readHead : List UInt8 → Option (Nat × List UInt8)
  | first :: rest =>
      if 0x40 ≤ first.toNat ∧ first.toNat ≤ 0x57 then
        some (first.toNat - 0x40, rest)
      else
        match first.toNat, rest with
        | 0x58, byte :: rest => some (byte.toNat, rest)
        | 0x59, high :: low :: rest => some (high.toNat * 256 + low.toNat, rest)
        | _, _ => none
  | [] => none

theorem readHead_bstrHead {n : Nat} (h : n ≤ bstrMax) (rest : List UInt8) :
    readHead (bstrHead n ++ rest) = some (n, rest) := by
  unfold bstrHead
  by_cases hsmall : n ≤ 23
  · have hbyte := bstrHead_small hsmall
    have hread : readHead ((0x40 ||| UInt8.ofNat n) :: rest) =
        some ((0x40 ||| UInt8.ofNat n : UInt8).toNat - 0x40, rest) :=
      if_pos ⟨by omega, by omega⟩
    rw [if_pos hsmall, List.singleton_append, hread, hbyte,
      Nat.add_sub_cancel_left]
  · rw [if_neg hsmall]
    by_cases hbyte : n ≤ 0xff
    · have hvalue : (UInt8.ofNat n).toNat = n := by
        rw [UInt8.toNat_ofNat']
        omega
      rw [if_pos hbyte]
      change some ((UInt8.ofNat n).toNat, rest) = _
      rw [hvalue]
    · rw [if_neg hbyte]
      change some ((UInt8.ofNat (n >>> 8)).toNat * 256 +
        (UInt8.ofNat (n &&& 0xff)).toNat, rest) = _
      rw [toNat_high h, toNat_low, Nat.div_add_mod']

theorem bstrHead_delimits : Prefix.Delimits (· ≤ bstrMax) bstrHead :=
  .ofRead fun _ => readHead_bstrHead

/-- A byte string tells where it ends. -/
theorem bstr_delimits :
    Prefix.Delimits (fun bytes => bytes.length ≤ bstrMax) bstr :=
  bstrHead_delimits.lengthPrefix

theorem length_bstrHead_le (n : Nat) : (bstrHead n).length ≤ 3 := by
  unfold bstrHead
  split
  · simp
  · split <;> simp

theorem length_bstr_le (bytes : List UInt8) :
    (bstr bytes).length ≤ 3 + bytes.length := by
  rw [bstr, List.length_append]
  exact Nat.add_le_add_right (length_bstrHead_le _) _

theorem length_bstr_ge (bytes : List UInt8) :
    bytes.length ≤ (bstr bytes).length := by
  simp [bstr]

/-! Integers. -/

/-- A big-endian number. -/
def beNat (bytes : List UInt8) : Nat :=
  bytes.foldl (fun acc byte => acc * 256 + byte.toNat) 0

/-- The argument of a head: in the initial byte, or in the 1, 2, 4 or 8 bytes
that are the rest of the item. -/
def argument? (info : Nat) (rest : List UInt8) : Option Nat :=
  if info < 24 then
    if rest = [] then some info else none
  else if info ≤ 27 ∧ rest.length = 2 ^ (info - 24) then
    some (beNat rest)
  else
    none

/-- The value of a data item that is an unsigned or a negative integer. -/
def int? : List UInt8 → Option Int
  | [] => none
  | first :: rest =>
      match first.toNat / 32 with
      | 0 => (argument? (first.toNat % 32) rest).map Int.ofNat
      | 1 => (argument? (first.toNat % 32) rest).map Int.negSucc
      | _ => none

/-- The size of an integer with this initial byte. -/
def intSize? (first : UInt8) : Option Nat :=
  if first.toNat / 32 ≤ 1 then
    if first.toNat % 32 < 24 then some 1
    else if first.toNat % 32 ≤ 27 then some (1 + 2 ^ (first.toNat % 32 - 24))
    else none
  else
    none

theorem intSize?_pos {first : UInt8} {size : Nat}
    (h : intSize? first = some size) : 0 < size := by
  unfold intSize? at h
  split at h
  · split at h
    · cases h
      exact Nat.one_pos
    · split at h
      · cases h
        exact Nat.add_pos_left Nat.one_pos _
      · cases h
  · cases h

theorem isSome_argument? (info : Nat) (rest : List UInt8) :
    (argument? info rest).isSome = true ↔
      (info < 24 ∧ rest = []) ∨
        (24 ≤ info ∧ info ≤ 27 ∧ rest.length = 2 ^ (info - 24)) := by
  unfold argument?
  by_cases hsmall : info < 24
  · rw [if_pos hsmall]
    by_cases hrest : rest = [] <;> simp [hsmall, hrest]
  · rw [if_neg hsmall]
    by_cases hwide : info ≤ 27 ∧ rest.length = 2 ^ (info - 24)
    · simp only [hwide, and_self, ↓reduceIte, Option.isSome_some, true_iff]
      exact Or.inr ⟨Nat.not_lt.mp hsmall, trivial⟩
    · simp only [hwide, ↓reduceIte, Option.isSome_none, Bool.false_eq_true,
        hsmall, false_and, false_or, and_false]

/-- The initial byte says how long an integer is. -/
theorem isSome_int?_cons (first : UInt8) (rest : List UInt8) :
    (int? (first :: rest)).isSome = true ↔
      intSize? first = some (rest.length + 1) := by
  have hsome : (int? (first :: rest)).isSome = true ↔
      first.toNat / 32 ≤ 1 ∧
        (argument? (first.toNat % 32) rest).isSome = true := by
    simp only [int?]
    split
    · rename_i hmajor
      simp [hmajor]
    · rename_i hmajor
      simp [hmajor]
    · rename_i hzero hone
      have hmajor : ¬ first.toNat / 32 ≤ 1 := by
        intro hle
        rcases Nat.le_one_iff_eq_zero_or_eq_one.mp hle with h | h
        · exact hzero h
        · exact hone h
      simp [hmajor]
  rw [hsome, isSome_argument?, intSize?]
  by_cases hmajor : first.toNat / 32 ≤ 1
  · rw [if_pos hmajor, and_iff_right hmajor]
    by_cases hsmall : first.toNat % 32 < 24
    · rw [if_pos hsmall]
      cases rest <;> simp [hsmall, Nat.not_le.mpr hsmall]
    · rw [if_neg hsmall]
      by_cases hwide : first.toNat % 32 ≤ 27
      · rw [if_pos hwide]
        simp only [hsmall, false_and, false_or, Nat.not_lt.mp hsmall, hwide,
          true_and, Option.some.injEq]
        omega
      · simp [hsmall, hwide]
  · simp [hmajor]

/-- Integers tell where they end. -/
theorem int?_delimits : Prefix.Delimits
    (fun item => (int? item).isSome = true) id := by
  intro a ha b hb s t heq
  cases a with
  | nil => exact absurd ha (by decide)
  | cons first rest =>
      cases b with
      | nil => exact absurd hb (by decide)
      | cons first' rest' =>
          simp only [id_eq, List.cons_append, List.cons.injEq] at heq
          obtain ⟨rfl, heq⟩ := heq
          rw [isSome_int?_cons] at ha hb
          have hlength := Option.some.inj (ha.symm.trans hb)
          obtain ⟨rfl, rfl⟩ := List.append_inj heq (by omega)
          exact ⟨rfl, rfl⟩

/-- The byte that an item holds as its value, if it holds one. -/
def byte? : List UInt8 → Option UInt8
  | [first] => if first.toNat ≤ 0x17 then some first else none
  | [first, byte] => if first.toNat = 0x18 then some byte else none
  | _ => none

theorem byte?_eq_some {item : List UInt8} {byte : UInt8} :
    byte? item = some byte ↔
      (item = [byte] ∧ byte.toNat ≤ 0x17) ∨ item = [0x18, byte] := by
  constructor
  · intro h
    unfold byte? at h
    split at h
    · split at h
      · rename_i hle
        cases h
        exact Or.inl ⟨rfl, hle⟩
      · cases h
    · rename_i first value
      split at h
      · rename_i hfirst
        cases h
        have hvalue : first = 0x18 := UInt8.toNat_inj.mp hfirst
        exact Or.inr (by rw [hvalue])
      · cases h
    · cases h
  · rintro (⟨rfl, hle⟩ | rfl)
    · exact if_pos hle
    · rfl

theorem int?_of_byte? {item : List UInt8} {byte : UInt8}
    (h : byte? item = some byte) : int? item = some (byte.toNat : Int) := by
  rcases byte?_eq_some.mp h with ⟨rfl, hle⟩ | rfl
  · have hmajor : byte.toNat / 32 = 0 := by omega
    have hinfo : byte.toNat < 24 := by omega
    have hmod : byte.toNat % 32 = byte.toNat := by omega
    simp [int?, hmajor, argument?, hinfo, hmod]
  · simp [int?, argument?, beNat]

/-- An integer in the first two forms is one that a byte holds. -/
theorem exists_byte? {first : UInt8} {rest : List UInt8}
    (h : (int? (first :: rest)).isSome = true) (hsmall : first.toNat ≤ 0x18) :
    ∃ byte, byte? (first :: rest) = some byte := by
  have hsize := (isSome_int?_cons first rest).mp h
  simp only [byte?_eq_some]
  rw [intSize?, if_pos (by omega)] at hsize
  split at hsize
  · have hone := Option.some.inj hsize
    have hrest : rest = [] := List.length_eq_zero_iff.mp (by omega)
    exact ⟨first, .inl ⟨by rw [hrest], by omega⟩⟩
  · have hvalue : (0x18 : UInt8).toNat = 0x18 := rfl
    have hfirst : first = 0x18 := UInt8.toNat_inj.mp (by omega)
    rw [hfirst] at hsize
    have hone := Option.some.inj hsize
    obtain ⟨byte, rfl⟩ := List.length_eq_one_iff.mp
      (by simpa using hone.symm : rest.length = 1)
    exact ⟨byte, .inr (by rw [hfirst])⟩

/-- The head of an array of this many items, in the two forms of up to 255. -/
def IsArrayHead (head : List UInt8) (count : Nat) : Prop :=
  (count ≤ 23 ∧ ∃ first : UInt8, head = [first] ∧ first.toNat = 0x80 + count) ∨
    ∃ byte : UInt8, head = [0x98, byte] ∧ byte.toNat = count

/-- The head of an array of definite length, in any form. -/
def ArrayHead (head : List UInt8) (count : Nat) : Prop :=
  ∃ first rest, head = first :: rest ∧ first.toNat / 32 = 4 ∧
    argument? (first.toNat % 32) rest = some count

theorem IsArrayHead.arrayHead {head : List UInt8} {count : Nat}
    (h : IsArrayHead head count) : ArrayHead head count := by
  rcases h with ⟨hle, first, rfl, hfirst⟩ | ⟨byte, rfl, rfl⟩
  · have hinfo : first.toNat % 32 = count := by omega
    refine ⟨first, [], rfl, by omega, ?_⟩
    rw [hinfo, argument?, if_pos (by omega), if_pos rfl]
  · refine ⟨0x98, [byte], rfl, rfl, ?_⟩
    simp [argument?, beNat]

/-- Array heads tell where they end. -/
theorem ArrayHead.delimits {head head' s t : List UInt8} {count count' : Nat}
    (h : ArrayHead head count) (h' : ArrayHead head' count')
    (heq : head ++ s = head' ++ t) :
    head = head' ∧ count = count' ∧ s = t := by
  obtain ⟨first, rest, rfl, -, hcount⟩ := h
  obtain ⟨first', rest', rfl, -, hcount'⟩ := h'
  rw [List.cons_append, List.cons_append, List.cons.injEq] at heq
  obtain ⟨rfl, heq⟩ := heq
  have hlen := (isSome_argument? (first.toNat % 32) rest).mp
    (by rw [hcount]; rfl)
  have hlen' := (isSome_argument? (first.toNat % 32) rest').mp
    (by rw [hcount']; rfl)
  have hlength : rest.length = rest'.length := by
    rcases hlen with ⟨hinfo, rfl⟩ | ⟨hinfo, -, hrest⟩ <;>
    rcases hlen' with ⟨hinfo', rfl⟩ | ⟨hinfo', -, hrest'⟩
    · rfl
    · omega
    · omega
    · omega
  obtain ⟨rfl, rfl⟩ := List.append_inj heq hlength
  exact ⟨rfl, Option.some.inj (hcount.symm.trans hcount'), rfl⟩

/-- The initial byte tells an array from an integer. -/
theorem ArrayHead.ne_int {head item s t : List UInt8} {count : Nat}
    (h : ArrayHead head count) (hint : (int? item).isSome = true) :
    head ++ s ≠ item ++ t := by
  obtain ⟨first, rest, rfl, hmajor, -⟩ := h
  intro heq
  cases item with
  | nil => cases hint
  | cons first' rest' =>
      obtain ⟨rfl, -⟩ := List.cons.inj heq
      rw [isSome_int?_cons, intSize?, if_neg (by omega)] at hint
      cases hint

/-- The string starts with an integer that a byte holds, in `n` bytes. -/
def StartsByte (data : List UInt8) (byte : UInt8) (n : Nat) : Prop :=
  ∃ item rest, data = item ++ rest ∧ byte? item = some byte ∧ n = item.length

theorem not_startsByte_nil (byte : UInt8) (n : Nat) :
    ¬ StartsByte [] byte n := by
  rintro ⟨item, rest, hsplit, hbyte, -⟩
  rw [(List.append_eq_nil_iff.mp hsplit.symm).1] at hbyte
  cases hbyte

theorem startsByte_small {first byte : UInt8} {tail : List UInt8} {n : Nat}
    (h : first.toNat ≤ 0x17) :
    StartsByte (first :: tail) byte n ↔ byte = first ∧ n = 1 := by
  simp only [StartsByte, byte?_eq_some]
  constructor
  · rintro ⟨_, rest, hsplit, ⟨rfl, -⟩ | rfl, rfl⟩
    · obtain ⟨rfl, -⟩ := List.cons.inj hsplit
      exact ⟨rfl, rfl⟩
    · obtain ⟨rfl, -⟩ := List.cons.inj hsplit
      exact absurd h (by decide)
  · rintro ⟨rfl, rfl⟩
    exact ⟨[byte], tail, rfl, .inl ⟨rfl, h⟩, rfl⟩

theorem startsByte_wide {byte : UInt8} {tail : List UInt8} {n : Nat} :
    StartsByte (0x18 :: tail) byte n ↔ tail[0]? = some byte ∧ n = 2 := by
  simp only [StartsByte, byte?_eq_some]
  constructor
  · rintro ⟨_, rest, hsplit, ⟨rfl, hle⟩ | rfl, rfl⟩
    · obtain ⟨rfl, -⟩ := List.cons.inj hsplit
      exact absurd hle (by decide)
    · obtain ⟨-, rfl⟩ := List.cons.inj hsplit
      exact ⟨rfl, rfl⟩
  · rintro ⟨hnext, rfl⟩
    cases tail with
    | nil => cases hnext
    | cons value rest =>
        cases Option.some.inj hnext
        exact ⟨[0x18, byte], rest, rfl, .inr rfl, rfl⟩

theorem not_startsByte {first byte : UInt8} {tail : List UInt8} {n : Nat}
    (hsmall : ¬ first.toNat ≤ 0x17) (hwide : first ≠ 0x18) :
    ¬ StartsByte (first :: tail) byte n := by
  simp only [StartsByte, byte?_eq_some]
  rintro ⟨_, rest, hsplit, ⟨rfl, hle⟩ | rfl, -⟩
  · obtain ⟨rfl, -⟩ := List.cons.inj hsplit
    exact hsmall hle
  · obtain ⟨rfl, -⟩ := List.cons.inj hsplit
    exact hwide rfl

/-- An array does not start as such an integer does. -/
theorem IsArrayHead.first_gt {head data : List UInt8} {count : Nat}
    (h : IsArrayHead head count) (rest : List UInt8)
    (hsplit : data = head ++ rest) :
    ∃ first tail, data = first :: tail ∧ 0x18 < first.toNat := by
  rcases h with ⟨-, byte, rfl, hbyte⟩ | ⟨byte, rfl, -⟩
  · exact ⟨byte, rest, hsplit, by omega⟩
  · exact ⟨0x98, byte :: rest, hsplit, by decide⟩

theorem IsArrayHead.delimits {head head' s t : List UInt8} {count count' : Nat}
    (h : IsArrayHead head count) (h' : IsArrayHead head' count')
    (heq : head ++ s = head' ++ t) :
    head = head' ∧ count = count' ∧ s = t :=
  h.arrayHead.delimits h'.arrayHead heq

/-- An array is no integer. -/
theorem IsArrayHead.int?_eq_none {head : List UInt8} {count : Nat}
    (h : IsArrayHead head count) (rest : List UInt8) :
    int? (head ++ rest) = none := by
  obtain ⟨first, more, rfl, hmajor, -⟩ := h.arrayHead
  simp only [List.cons_append, int?, hmajor]

/-- A non-empty array of integers, and the value of its first element. -/
def IsIntArray (item : List UInt8) (value : Int) : Prop :=
  ∃ (head first : List UInt8) (items : List (List UInt8)),
    IsArrayHead head (items.length + 1) ∧
      item = head ++ (first ++ items.flatten) ∧ int? first = some value ∧
      ∀ elem ∈ items, (int? elem).isSome = true

/-- An array of integers, in any form of its head. -/
def IsIntList (item : List UInt8) : Prop :=
  ∃ (head : List UInt8) (items : List (List UInt8)),
    ArrayHead head items.length ∧ item = head ++ items.flatten ∧
      ∀ elem ∈ items, (int? elem).isSome = true

theorem ne_nil_of_int? {item : List UInt8}
    (h : (int? item).isSome = true) : item ≠ [] := by
  rintro rfl
  cases h

/-- Integers in a row are at least as many bytes. -/
theorem length_le_flatten {items : List (List UInt8)}
    (h : ∀ item ∈ items, (int? item).isSome = true) :
    items.length ≤ items.flatten.length := by
  induction items with
  | nil => exact Nat.le_refl 0
  | cons item items ih =>
      have hitem := ne_nil_of_int? (h item List.mem_cons_self)
      have hpos := List.length_pos_iff.mpr hitem
      have hrest := ih fun elem hmem => h elem (List.mem_cons_of_mem _ hmem)
      rw [List.length_cons, List.flatten_cons, List.length_append]
      omega

/-- Integers that are no more bytes than integers are one byte each. -/
theorem int?_of_mem_flatten {items : List (List UInt8)}
    (h : ∀ item ∈ items, (int? item).isSome = true)
    (hlength : items.flatten.length ≤ items.length) :
    ∀ byte ∈ items.flatten, (int? [byte]).isSome = true := by
  induction items with
  | nil =>
      intro byte hmem
      cases hmem
  | cons item items ih =>
      have hints : ∀ elem ∈ items, (int? elem).isSome = true :=
        fun elem hmem => h elem (List.mem_cons_of_mem _ hmem)
      have hitem := h item List.mem_cons_self
      have hpos := List.length_pos_iff.mpr (ne_nil_of_int? hitem)
      have hrest := length_le_flatten hints
      rw [List.flatten_cons, List.length_append, List.length_cons] at hlength
      obtain ⟨first, rfl⟩ := List.length_eq_one_iff.mp
        (by omega : item.length = 1)
      intro byte hmem
      rcases List.mem_append.mp (List.flatten_cons ▸ hmem) with hfirst | hmem
      · rw [List.mem_singleton.mp hfirst]
        exact hitem
      · exact ih hints (by omega) byte hmem

/-- Integers in a row whose bytes, as many as there are integers, are integers
by themselves. -/
theorem length_flatten_eq {items : List (List UInt8)} {rest : List UInt8}
    (h : ∀ item ∈ items, (int? item).isSome = true)
    (hbytes : ∀ byte ∈ (items.flatten ++ rest).take items.length,
      (int? [byte]).isSome = true) : items.flatten.length = items.length := by
  induction items with
  | nil => rfl
  | cons item items ih =>
      have hints : ∀ elem ∈ items, (int? elem).isSome = true :=
        fun elem hmem => h elem (List.mem_cons_of_mem _ hmem)
      have hitem := h item List.mem_cons_self
      obtain ⟨first, tail, rfl⟩ :=
        List.exists_cons_of_ne_nil (ne_nil_of_int? hitem)
      rw [List.flatten_cons, List.append_assoc, List.cons_append,
        List.length_cons, List.take_succ_cons] at hbytes
      have hfirst := hbytes first List.mem_cons_self
      rw [isSome_int?_cons] at hitem hfirst
      have htail : tail = [] := by
        have hsize := Option.some.inj (hitem.symm.trans hfirst)
        exact List.length_eq_zero_iff.mp (Nat.succ.inj hsize)
      subst htail
      rw [List.nil_append] at hbytes
      rw [List.flatten_cons, List.length_append,
        ih hints fun byte hmem => hbytes byte (List.mem_cons_of_mem _ hmem)]
      exact Nat.add_comm 1 _

theorem flatten_singletons (bytes : List UInt8) :
    (bytes.map fun byte => [byte]).flatten = bytes := by
  induction bytes with
  | nil => rfl
  | cons byte bytes ih =>
      rw [List.map_cons, List.flatten_cons, ih, List.singleton_append]

/-- Bytes that are integers by themselves, behind a head that counts them. -/
theorem isIntList_of_bytes {head bytes : List UInt8}
    (hhead : ArrayHead head bytes.length)
    (h : ∀ byte ∈ bytes, (int? [byte]).isSome = true) :
    IsIntList (head ++ bytes) := by
  refine ⟨head, bytes.map fun byte => [byte], ?_, ?_, ?_⟩
  · rw [List.length_map]
    exact hhead
  · rw [flatten_singletons]
  · intro elem hmem
    obtain ⟨byte, hbyte, rfl⟩ := List.mem_map.mp hmem
    exact h byte hbyte

/-- The heads of up to 255 items by their initial byte. -/
theorem ArrayHead.isArrayHead {first : UInt8} {rest : List UInt8}
    {count : Nat} (h : ArrayHead (first :: rest) count)
    (hfirst : first.toNat ≤ 0x98) : IsArrayHead (first :: rest) count := by
  obtain ⟨own, tail, heq, hmajor, hcount⟩ := h
  obtain ⟨rfl, rfl⟩ := List.cons.inj heq
  unfold argument? at hcount
  split at hcount
  · rename_i hsmall
    split at hcount
    · rename_i hrest
      have hvalue := Option.some.inj hcount
      exact .inl ⟨by omega, first, by rw [hrest], by omega⟩
    · cases hcount
  · split at hcount
    · rename_i hwide
      have hinfo : first.toNat % 32 = 24 := by omega
      rw [hinfo] at hwide
      obtain ⟨byte, rfl⟩ := List.length_eq_one_iff.mp hwide.2
      have hvalue : (0x98 : UInt8).toNat = 0x98 := rfl
      have hbyte : first = 0x98 := UInt8.toNat_inj.mp (by omega)
      refine .inr ⟨byte, by rw [hbyte], ?_⟩
      rw [← Option.some.inj hcount]
      simp [beNat]
    · cases hcount

end Cbor
