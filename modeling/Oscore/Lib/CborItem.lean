/-
Data items of CBOR as trees.  A head announces how many bytes or items follow
it, in any of the widths the format has for that number, and a tree holds just
what its head announces.
-/
import Oscore.Lib.Cbor

namespace Cbor

/-! Big-endian numbers. -/

theorem beNat_snoc (bytes : List UInt8) (byte : UInt8) :
    beNat (bytes ++ [byte]) = beNat bytes * 256 + byte.toNat := by
  simp [beNat, List.foldl_append]

theorem beNat_lt (bytes : List UInt8) : beNat bytes < 256 ^ bytes.length := by
  induction bytes using List.reverseRecOn with
  | nil => exact Nat.one_pos
  | append_singleton bytes byte ih =>
      have hbyte := byte.toNat_lt
      rw [beNat_snoc, List.length_append, List.length_singleton, pow_succ]
      omega

/-- Numbers of one width have one representation each. -/
theorem beNat_injective {bytes bytes' : List UInt8}
    (hlength : bytes.length = bytes'.length)
    (h : beNat bytes = beNat bytes') : bytes = bytes' := by
  induction bytes using List.reverseRecOn generalizing bytes' with
  | nil => exact (List.length_eq_zero_iff.mp hlength.symm).symm
  | append_singleton bytes byte ih =>
      rcases List.eq_nil_or_concat bytes' with rfl | ⟨init, last, rfl⟩
      · simp at hlength
      · rw [List.concat_eq_append] at hlength h ⊢
        rw [beNat_snoc, beNat_snoc] at h
        have hbyte := byte.toNat_lt
        have hlast := last.toNat_lt
        have hlow : byte.toNat = last.toNat := by omega
        rw [ih (by simpa using hlength) (by omega), UInt8.toNat_inj.mp hlow]

/-! Heads. -/

/-- The head of a data item: its initial byte and the bytes of its argument. -/
structure Head where
  first : UInt8
  rest : List UInt8
  valid : (argument? (first.toNat % 32) rest).isSome = true

namespace Head

def major (head : Head) : Nat := head.first.toNat / 32

def arg (head : Head) : Nat := (argument? (head.first.toNat % 32) head.rest).get
  head.valid

def bytes (head : Head) : List UInt8 := head.first :: head.rest

/-- The argument would not fit into a narrower head. -/
def Shortest (head : Head) : Prop :=
  head.rest = [] ∨ (head.rest.length = 1 ∧ 24 ≤ head.arg) ∨
    (1 < head.rest.length ∧ 256 ^ (head.rest.length / 2) ≤ head.arg)

/-- The bytes of a byte string or of a text string. -/
def bodyLength (head : Head) : Nat :=
  if head.major = 2 ∨ head.major = 3 then head.arg else 0

/-- The items of an array, the keys and values of a map, what a tag is about. -/
def childCount (head : Head) : Nat :=
  if head.major = 4 then head.arg
  else if head.major = 5 then 2 * head.arg
  else if head.major = 6 then 1
  else 0

@[ext]
theorem ext {head head' : Head} (hfirst : head.first = head'.first)
    (hrest : head.rest = head'.rest) : head = head' := by
  cases head
  cases head'
  cases hfirst
  cases hrest
  rfl

/-- An argument in the initial byte. -/
def narrow (first : UInt8) (h : first.toNat % 32 < 24) : Head :=
  ⟨first, [], (isSome_argument? _ _).mpr (Or.inl ⟨h, rfl⟩)⟩

/-- An argument in the 1, 2, 4 or 8 bytes behind the initial byte. -/
def wide (first : UInt8) (rest : List UInt8)
    (h : 24 ≤ first.toNat % 32 ∧ first.toNat % 32 ≤ 27 ∧
      rest.length = 2 ^ (first.toNat % 32 - 24)) : Head :=
  ⟨first, rest, (isSome_argument? _ _).mpr (Or.inr h)⟩

/-- The widths of an argument. -/
theorem width (head : Head) :
    (head.first.toNat % 32 < 24 ∧ head.rest = []) ∨
      (24 ≤ head.first.toNat % 32 ∧ head.first.toNat % 32 ≤ 27 ∧
        head.rest.length = 2 ^ (head.first.toNat % 32 - 24)) :=
  (isSome_argument? _ _).mp head.valid

theorem arg_of_rest_nil {head : Head} (h : head.rest = []) :
    head.arg = head.first.toNat % 32 ∧ head.arg < 24 := by
  have hinfo : head.first.toNat % 32 < 24 := by
    rcases head.width with ⟨hinfo, -⟩ | ⟨-, -, hlength⟩
    · exact hinfo
    · rw [h] at hlength
      exact absurd hlength.symm (Nat.two_pow_pos _).ne'
  have harg : head.arg = head.first.toNat % 32 := by
    simp [arg, argument?, hinfo, h]
  exact ⟨harg, harg ▸ hinfo⟩

theorem arg_of_rest_ne_nil {head : Head} (h : head.rest ≠ []) :
    24 ≤ head.first.toNat % 32 ∧ head.first.toNat % 32 ≤ 27 ∧
      head.rest.length = 2 ^ (head.first.toNat % 32 - 24) ∧
      head.arg = beNat head.rest := by
  rcases head.width with ⟨-, hrest⟩ | ⟨hle, hge, hlength⟩
  · exact absurd hrest h
  · refine ⟨hle, hge, hlength, ?_⟩
    simp [arg, argument?, Nat.not_lt.mpr hle, hge, hlength]

/-- Heads tell where they end. -/
theorem delimits {head head' : Head} {s t : List UInt8}
    (h : head.bytes ++ s = head'.bytes ++ t) : head = head' ∧ s = t := by
  rw [bytes, bytes, List.cons_append, List.cons_append, List.cons.injEq] at h
  obtain ⟨hfirst, h⟩ := h
  have hlength : head.rest.length = head'.rest.length := by
    rcases head.width with ⟨hinfo, hrest⟩ | ⟨hinfo, -, hrest⟩ <;>
    rcases head'.width with ⟨hinfo', hrest'⟩ | ⟨hinfo', -, hrest'⟩
    · rw [hrest, hrest']
    · rw [← hfirst] at hinfo'
      omega
    · rw [← hfirst] at hinfo'
      omega
    · rw [hrest, hrest', hfirst]
  obtain ⟨hrest, hst⟩ := List.append_inj h hlength
  exact ⟨ext hfirst hrest, hst⟩

/-- A narrower head leaves no room for the argument of a shortest one. -/
theorem Shortest.length_le {head head' : Head} (h : head.Shortest)
    (harg : head.arg = head'.arg) :
    head.rest.length ≤ head'.rest.length := by
  by_cases hnil : head.rest = []
  · rw [hnil]
    exact Nat.zero_le _
  · obtain ⟨hle, hge, hlength, -⟩ := arg_of_rest_ne_nil hnil
    by_cases hnil' : head'.rest = []
    · have hsmall := (arg_of_rest_nil hnil').2
      rcases h with h | ⟨-, h⟩ | ⟨hwide, h⟩
      · exact absurd h hnil
      · omega
      · have hpow : 256 ^ 1 ≤ 256 ^ (head.rest.length / 2) :=
          Nat.pow_le_pow_right (by decide) (by omega)
        omega
    · obtain ⟨hle', hge', hlength', hvalue'⟩ := arg_of_rest_ne_nil hnil'
      by_contra hlt
      have hfits := beNat_lt head'.rest
      rcases h with h | ⟨hone, h⟩ | ⟨hwide, h⟩
      · exact hnil h
      · have hpos := List.length_pos_iff.mpr hnil'
        omega
      · have hhalf : head'.rest.length ≤ head.rest.length / 2 := by
          rw [hlength, hlength'] at hlt ⊢
          have hexp : head'.first.toNat % 32 - 24 <
              head.first.toNat % 32 - 24 := by
            by_contra hexp
            exact hlt (Nat.pow_le_pow_right (by decide) (Nat.not_lt.mp hexp))
          rw [Nat.le_div_iff_mul_le (by decide), ← pow_succ]
          exact Nat.pow_le_pow_right (by decide) hexp
        have hpow : 256 ^ head'.rest.length ≤ 256 ^ (head.rest.length / 2) :=
          Nat.pow_le_pow_right (by decide) hhalf
        omega

/-- The shortest head for an argument is one. -/
theorem eq_of_shortest {head head' : Head} (h : head.Shortest)
    (h' : head'.Shortest) (hmajor : head.major = head'.major)
    (harg : head.arg = head'.arg) : head = head' := by
  have hlength : head.rest.length = head'.rest.length :=
    le_antisymm (h.length_le harg) (h'.length_le harg.symm)
  have hbyte : head.first.toNat % 32 = head'.first.toNat % 32 ∧
      head.rest = head'.rest := by
    by_cases hnil : head.rest = []
    · have hnil' : head'.rest = [] :=
        List.length_eq_zero_iff.mp (by rw [← hlength, hnil]; rfl)
      rw [← (arg_of_rest_nil hnil).1, ← (arg_of_rest_nil hnil').1, hnil, hnil']
      exact ⟨harg, rfl⟩
    · have hnil' : head'.rest ≠ [] := by
        intro hnil'
        rw [hnil'] at hlength
        exact hnil (List.length_eq_zero_iff.mp hlength)
      obtain ⟨hle, -, hwide, hvalue⟩ := arg_of_rest_ne_nil hnil
      obtain ⟨hle', -, hwide', hvalue'⟩ := arg_of_rest_ne_nil hnil'
      have hinfo := Nat.pow_right_injective (le_refl 2)
        (hwide.symm.trans (hlength.trans hwide'))
      refine ⟨by omega, beNat_injective hlength ?_⟩
      rw [← hvalue, ← hvalue', harg]
  simp only [major] at hmajor
  exact ext (UInt8.toNat_inj.mp (by omega)) hbyte.2

end Head

/-! Items. -/

/-- A data item: a head, the bytes of a string, the items it is made of. -/
inductive Item where
  | node (head : Head) (body : List UInt8)
      (children : Fin head.childCount → Item)
      (fits : body.length = head.bodyLength)

namespace Item

def head : Item → Head
  | node head _ _ _ => head

def body : Item → List UInt8
  | node _ body _ _ => body

def children : Item → List Item
  | node _ _ children _ => List.ofFn children

/-- The bytes of an item. -/
def encode : Item → List UInt8
  | node head body children _ =>
      head.bytes ++ (body ++ (List.ofFn fun i => (children i).encode).flatten)

/-- What an item means whatever the widths of its heads: what the heads
announce, in the order in which they stand. -/
def meaning : Item → List (Nat × Nat × List UInt8)
  | node head body children _ =>
      (head.major, head.arg, body) ::
        (List.ofFn fun i => (children i).meaning).flatten

/-- Every head in the item is as short as it can be. -/
def Shortest : Item → Prop
  | node head _ children _ => head.Shortest ∧ ∀ i, (children i).Shortest

/-- Items in a row, two and two. -/
def pairUp : List Item → List (Item × Item)
  | key :: value :: rest => (key, value) :: pairUp rest
  | _ => []

/-- The keys and values of a map. -/
def entries (item : Item) : List (Item × Item) :=
  if item.head.major = 5 then pairUp item.children else []

/-- The number that an item is, if it is an integer. -/
def intValue (item : Item) : Option Int :=
  if item.head.major = 0 then some item.head.arg
  else if item.head.major = 1 then some (-(item.head.arg + 1))
  else none

/-- The bytes that an item is, if it is a byte string. -/
def byteString (item : Item) : Option (List UInt8) :=
  if item.head.major = 2 then some item.body else none

/-- The map has the value under an integer label. -/
def Member (item : Item) (label : Int) (value : Item) : Prop :=
  ∃ key, (key, value) ∈ item.entries ∧ key.intValue = some label

/-- The item behind a tag. -/
def Tagged (item : Item) (tag : Nat) (inner : Item) : Prop :=
  item.head.major = 6 ∧ item.head.arg = tag ∧ item.children = [inner]

/-- No two keys of one map mean the same. -/
def KeysDistinct : Item → Prop
  | node head body children fits =>
      ((entries (node head body children fits)).map (·.1.meaning)).Nodup ∧
        ∀ i, (children i).KeysDistinct

/-- There is no map in the item. -/
def MapFree : Item → Prop
  | node head _ children _ => head.major ≠ 5 ∧ ∀ i, (children i).MapFree

theorem ofFn_items {γ : Type*} {items : List Item} {n : Nat}
    (h : items.length = n) (f : Item → γ) :
    (List.ofFn fun i : Fin n => f (items.get (i.cast h.symm))) =
      items.map f := by
  subst h
  exact List.ofFn_getElem_eq_map items f

/-- An item from a list of as many items as its head announces. -/
def ofList (head : Head) (body : List UInt8) (items : List Item)
    (hbody : body.length = head.bodyLength)
    (hitems : items.length = head.childCount) : Item :=
  node head body (fun i => items.get (i.cast hitems.symm)) hbody

section OfList

variable {head : Head} {body : List UInt8} {items : List Item}
  {hbody : body.length = head.bodyLength}
  {hitems : items.length = head.childCount}

@[simp]
theorem head_ofList : (ofList head body items hbody hitems).head = head := rfl

@[simp]
theorem children_ofList :
    (ofList head body items hbody hitems).children = items := by
  rw [ofList, children]
  exact (ofFn_items hitems id).trans (List.map_id items)

theorem encode_ofList : (ofList head body items hbody hitems).encode =
    head.bytes ++ (body ++ (items.map encode).flatten) := by
  rw [ofList, encode, ofFn_items hitems]

theorem forall_get (hitems : items.length = head.childCount)
    {good : Item → Prop} :
    (∀ i : Fin head.childCount, good (items.get (i.cast hitems.symm))) ↔
      ∀ item ∈ items, good item := by
  rw [List.forall_mem_iff_get]
  constructor
  · intro h i
    exact h (i.cast hitems)
  · intro h i
    exact h (i.cast hitems.symm)

theorem shortest_ofList : (ofList head body items hbody hitems).Shortest ↔
    head.Shortest ∧ ∀ item ∈ items, item.Shortest := by
  rw [ofList, Shortest, forall_get hitems]

theorem mapFree_ofList : (ofList head body items hbody hitems).MapFree ↔
    head.major ≠ 5 ∧ ∀ item ∈ items, item.MapFree := by
  rw [ofList, MapFree, forall_get hitems]

theorem keysDistinct_ofList :
    (ofList head body items hbody hitems).KeysDistinct ↔
      ((entries (ofList head body items hbody hitems)).map
        (·.1.meaning)).Nodup ∧ ∀ item ∈ items, item.KeysDistinct := by
  rw [ofList, KeysDistinct, forall_get hitems]

end OfList

/-- The items of some pairs in a row. -/
def unpair (pairs : List (Item × Item)) : List Item :=
  pairs.flatMap fun pair => [pair.1, pair.2]

@[simp]
theorem pairUp_unpair (pairs : List (Item × Item)) :
    pairUp (unpair pairs) = pairs := by
  induction pairs with
  | nil => rfl
  | cons pair pairs ih =>
      obtain ⟨key, value⟩ := pair
      change (key, value) :: pairUp (unpair pairs) = _
      rw [ih]

theorem length_unpair (pairs : List (Item × Item)) :
    (unpair pairs).length = 2 * pairs.length := by
  induction pairs with
  | nil => rfl
  | cons pair pairs ih =>
      simp only [unpair, List.flatMap_cons, List.length_append,
        List.length_cons, List.length_nil] at ih ⊢
      omega

theorem forall_mem_unpair {good : Item → Prop} {pairs : List (Item × Item)} :
    (∀ item ∈ unpair pairs, good item) ↔
      ∀ pair ∈ pairs, good pair.1 ∧ good pair.2 := by
  simp only [unpair, List.mem_flatMap, List.mem_cons, List.not_mem_nil,
    or_false, forall_exists_index, and_imp]
  constructor
  · intro h pair hpair
    exact ⟨h _ pair hpair (Or.inl rfl), h _ pair hpair (Or.inr rfl)⟩
  · rintro h item pair hpair (rfl | rfl)
    · exact (h pair hpair).1
    · exact (h pair hpair).2

/-- A row of codes that can be told apart from what follows determines the
items it is made from. -/
theorem row_injective {γ : Type*} {code : Item → List γ}
    (good : Item → Prop) {n : Nat} {f g : Fin n → Item}
    (hf : ∀ i, ∀ b, good b → ∀ s t, code (f i) ++ s = code b ++ t →
      f i = b ∧ s = t)
    (hg : ∀ i, good (g i)) {s t : List γ}
    (h : (List.ofFn fun i => code (f i)).flatten ++ s =
      (List.ofFn fun i => code (g i)).flatten ++ t) : f = g ∧ s = t := by
  induction n with
  | zero =>
      simp only [List.ofFn_zero, List.flatten_nil, List.nil_append] at h
      exact ⟨funext fun i => i.elim0, h⟩
  | succ n ih =>
      simp only [List.ofFn_succ, List.flatten_cons, List.append_assoc] at h
      obtain ⟨hzero, hrest⟩ := hf 0 _ (hg 0) _ _ h
      obtain ⟨hsucc, hst⟩ := ih (fun i => hf i.succ) (fun i => hg i.succ) hrest
      refine ⟨funext fun i => ?_, hst⟩
      cases i using Fin.cases with
      | zero => exact hzero
      | succ i => exact congrFun hsucc i

/-- Items tell where they end, in whatever widths they are written. -/
theorem delimits (a b : Item) (s t : List UInt8)
    (h : a.encode ++ s = b.encode ++ t) : a = b ∧ s = t := by
  induction a generalizing b s t with
  | node head body children fits ih =>
      obtain ⟨head', body', children', fits'⟩ := b
      simp only [encode, List.append_assoc] at h
      obtain ⟨hhead, h⟩ := Head.delimits h
      subst hhead
      obtain ⟨hbody, hrow⟩ := List.append_inj h (fits.trans fits'.symm)
      subst hbody
      obtain ⟨hchildren, hst⟩ := row_injective (fun _ => True)
        (fun i b _ s t => ih i b s t) (fun _ => trivial) hrow
      subst hchildren
      exact ⟨rfl, hst⟩

theorem encode_injective {a b : Item} (h : a.encode = b.encode) : a = b :=
  (delimits a b [] [] (congrArg (· ++ []) h)).1

/-- Of the items with one meaning only one is in shortest form. -/
theorem eq_of_meaning (a b : Item) (ha : a.Shortest) (hb : b.Shortest)
    (s t : List (Nat × Nat × List UInt8))
    (h : a.meaning ++ s = b.meaning ++ t) : a = b ∧ s = t := by
  induction a generalizing b s t with
  | node head body children fits ih =>
      obtain ⟨head', body', children', fits'⟩ := b
      simp only [meaning, List.cons_append, List.cons.injEq,
        Prod.mk.injEq] at h
      obtain ⟨⟨hmajor, harg, hbody⟩, h⟩ := h
      have hhead := Head.eq_of_shortest ha.1 hb.1 hmajor harg
      subst hhead
      subst hbody
      obtain ⟨hchildren, hst⟩ := row_injective Shortest
        (fun i b hgood s t => ih i b (ha.2 i) hgood s t) hb.2 h
      subst hchildren
      exact ⟨rfl, hst⟩

theorem meaning_injective {a b : Item} (ha : a.Shortest) (hb : b.Shortest)
    (h : a.meaning = b.meaning) : a = b :=
  (eq_of_meaning a b ha hb [] [] (congrArg (· ++ []) h)).1

theorem MapFree.keysDistinct {item : Item} (h : item.MapFree) :
    item.KeysDistinct := by
  induction item with
  | node head body children fits ih =>
      have hentries : entries (node head body children fits) = [] :=
        if_neg h.1
      rw [KeysDistinct, hentries]
      exact ⟨List.nodup_nil, fun i => ih i (h.2 i)⟩

end Item

end Cbor
