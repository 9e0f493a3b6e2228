/-
Which keys a validated credential is bound to.  The validation looks for the
key in one shape of CCS; of the other encodings of a key, in a COSE_Key or in
the `cnf` claim of a claim set, it checks nothing.
-/
import Oscore.Edhoc.Credential
import Oscore.Lib.CborItem

namespace Oscore.Edhoc

open Rust Cbor

variable {X : Suite} {item : Item} {x : Bytes}

/-! Keys in credentials. -/

/-- A COSE_Key of type OKP with an x coordinate, its members in any order. -/
def IsCoseKey (item : Item) (x : Bytes) : Prop :=
  (∃ kty, item.Member 1 kty ∧ kty.intValue = some 1) ∧
    ∃ coordinate, item.Member (-2) coordinate ∧
      coordinate.byteString = some x

/-- A claim set with a COSE_Key in its `cnf` claim. -/
def ConfirmsKey (claims : Item) (x : Bytes) : Prop :=
  ∃ cnf key, claims.Member 8 cnf ∧ cnf.Member 1 key ∧ IsCoseKey key x

/-- A COSE_Key, a CCS or a CWT, with or without its tag. -/
def HoldsKey (item : Item) (x : Bytes) : Prop :=
  IsCoseKey item x ∨ ConfirmsKey item x ∨
    ∃ claims, item.Tagged 61 claims ∧ ConfirmsKey claims x

/-- The inputs that escape the validation: behind the one checked shape what
follows is ignored, and every item with another initial byte is passed. -/
def Escapes (X : Suite) (peer : PeerCredential) (item : Item)
    (trailing x : Bytes) : Prop :=
  X.validPoint peer.publicKey = true ∧
    if item.head.first = 0xa3 then
      trailing ≠ [] ∧ ∃ head, BstrHead 32 head ∧
        item.encode = [0xa3, 0x01, 0x01, 0x20, 0x06, 0x21] ++
          (head ++ peer.publicKey.val)
    else
      x ≠ peer.publicKey.val ∨ trailing ≠ []

/-! The shape that is checked. -/

theorem string_and_children_of_int {head : Head} (h : head.major ≤ 1) :
    head.bodyLength = 0 ∧ head.childCount = 0 := by
  rw [Head.bodyLength, Head.childCount, if_neg (by omega), if_neg (by omega),
    if_neg (by omega), if_neg (by omega)]
  exact ⟨rfl, rfl⟩

/-- An integer in its initial byte. -/
def smallInt (first : UInt8)
    (h : first.toNat % 32 < 24 ∧ first.toNat / 32 ≤ 1 := by decide) : Item :=
  have hmajor : (Head.narrow first h.1).major ≤ 1 := h.2
  have hnone := string_and_children_of_int hmajor
  .ofList (.narrow first h.1) [] [] hnone.1.symm hnone.2.symm

/-- The CCS of this crate around a byte string. -/
def rawKeyItem (coordinate : Item) : Item :=
  .ofList (.narrow 0xa3 (by decide)) []
    [smallInt 0x01, smallInt 0x01, smallInt 0x20, smallInt 0x06, smallInt 0x21,
      coordinate] (by decide)
    (show 6 = (Head.narrow 0xa3 (by decide)).childCount by decide)

theorem encode_rawKeyItem (coordinate : Item) :
    (rawKeyItem coordinate).encode =
      [0xa3, 0x01, 0x01, 0x20, 0x06, 0x21] ++ coordinate.encode := by
  rw [rawKeyItem, Item.encode_ofList]
  simp only [List.map_cons, List.map_nil, List.flatten_cons, List.flatten_nil,
    List.append_nil]
  rfl

theorem entries_rawKeyItem (coordinate : Item) :
    (rawKeyItem coordinate).entries = [(smallInt 0x01, smallInt 0x01),
      (smallInt 0x20, smallInt 0x06), (smallInt 0x21, coordinate)] := by
  rw [rawKeyItem, Item.entries, Item.head_ofList, Item.children_ofList]
  rfl

/-- Both heads for 32 bytes make a byte string of a key. -/
theorem exists_keyItem {head : Bytes} (hhead : BstrHead 32 head)
    (key : Bytes32) :
    ∃ item : Item, item.encode = head ++ key.val ∧
      item.byteString = some key.val := by
  have hstring : ∀ own : Head, own.bytes = head → own.major = 2 →
      own.arg = 32 → ∃ item : Item, item.encode = head ++ key.val ∧
        item.byteString = some key.val := by
    intro own hbytes hmajor harg
    have hbody : key.val.length = own.bodyLength := by
      rw [Head.bodyLength, if_pos (Or.inl hmajor), harg, key.property]
    have hchildren : ([] : List Item).length = own.childCount := by
      rw [Head.childCount, hmajor]
      rfl
    refine ⟨.ofList own key.val [] hbody hchildren, ?_, if_pos hmajor⟩
    rw [Item.encode_ofList, hbytes, List.map_nil, List.flatten_nil,
      List.append_nil]
  rcases bstrHead_key.mp hhead with rfl | rfl
  · exact hstring (.wide 0x58 [0x20] (by decide)) rfl rfl rfl
  · exact hstring (.wide 0x59 [0x00, 0x20] (by decide)) rfl rfl rfl

theorem member_rawKeyItem {coordinate value : Item} {label : Int}
    (h : (rawKeyItem coordinate).Member label value) :
    label = 1 ∨ label = -1 ∨ (label = -2 ∧ value = coordinate) := by
  obtain ⟨key, hmem, hlabel⟩ := h
  rw [entries_rawKeyItem] at hmem
  simp only [List.mem_cons, Prod.mk.injEq, List.not_mem_nil, or_false] at hmem
  rcases hmem with ⟨rfl, -⟩ | ⟨rfl, -⟩ | ⟨rfl, rfl⟩
  · exact Or.inl (Option.some.inj hlabel).symm
  · exact Or.inr (Or.inl (Option.some.inj hlabel).symm)
  · exact Or.inr (Or.inr ⟨(Option.some.inj hlabel).symm, rfl⟩)

/-- The checked shape holds the key that is checked, and no other. -/
theorem holdsKey_rawKeyItem {coordinate : Item}
    (h : HoldsKey (rawKeyItem coordinate) x) :
    coordinate.byteString = some x := by
  rcases h with ⟨-, value, hmember, hvalue⟩ | ⟨cnf, -, hmember, -⟩ |
    ⟨claims, ⟨htag, -⟩, -⟩
  · rcases member_rawKeyItem hmember with h | h | ⟨-, rfl⟩
    · exact absurd h (by decide)
    · exact absurd h (by decide)
    · exact hvalue
  · rcases member_rawKeyItem hmember with h | h | ⟨h, -⟩ <;>
      exact absurd h (by decide)
  · rw [rawKeyItem, Item.head_ofList] at htag
    exact absurd htag (by decide)

theorem isCoseKey_rawKeyItem {coordinate : Item}
    (h : coordinate.byteString = some x) :
    IsCoseKey (rawKeyItem coordinate) x := by
  have hkty : (smallInt 0x01, smallInt 0x01) ∈
      (rawKeyItem coordinate).entries := by
    rw [entries_rawKeyItem]
    exact List.mem_cons_self
  have hx : (smallInt 0x21, coordinate) ∈ (rawKeyItem coordinate).entries := by
    rw [entries_rawKeyItem]
    exact List.mem_of_getElem? (i := 2) rfl
  exact ⟨⟨_, ⟨_, hkty, rfl⟩, rfl⟩, _, ⟨_, hx, rfl⟩, h⟩

/-- A credential in the checked shape. -/
theorem eq_rawKeyItem {head trailing rest : Bytes} {key : Bytes32}
    (hhead : BstrHead 32 head)
    (h : item.encode ++ trailing =
      [0xa3, 0x01, 0x01, 0x20, 0x06, 0x21] ++ (head ++ (key.val ++ rest)))
    (hkey : HoldsKey item x) : x = key.val ∧ trailing = rest := by
  obtain ⟨coordinate, hencode, hvalue⟩ := exists_keyItem hhead key
  have hsplit : item.encode ++ trailing =
      (rawKeyItem coordinate).encode ++ rest := by
    rw [h, encode_rawKeyItem, hencode]
    simp only [List.append_assoc]
  obtain ⟨rfl, htrailing⟩ := Item.delimits _ _ _ _ hsplit
  have hx := (holdsKey_rawKeyItem hkey).symm.trans hvalue
  exact ⟨Option.some.inj hx, htrailing⟩

/-- A validated credential is complete and holds the key it comes with, for
all inputs but those that escape the validation. -/
theorem validatePeerCredential_binds_iff (X : Suite) (peer : PeerCredential)
    (item : Item) (trailing x : Bytes)
    (hcred : peer.credential = item.encode ++ trailing)
    (hkey : HoldsKey item x) :
    (validatePeerCredential X peer = .ok () →
      x = peer.publicKey.val ∧ trailing = []) ↔
        ¬ Escapes X peer item trailing x := by
  have hfirst : peer.credential[0]? = some 0xa3 ↔ item.head.first = 0xa3 := by
    rw [hcred]
    obtain ⟨head, body, children, fits⟩ := item
    exact Option.some_inj
  rw [validatePeerCredential_eq_ok, Escapes, hfirst, hcred, and_imp, not_and]
  apply imp_congr_right
  intro _
  by_cases hown : item.head.first = 0xa3
  · rw [if_pos hown, forall_prop_of_true hown]
    constructor
    · rintro hbinds ⟨hne, head, hhead, hencode⟩
      refine hne (hbinds ⟨head, trailing, hhead, ?_⟩).2
      rw [hencode]
      simp only [List.append_assoc]
    · rintro hescape ⟨head, rest, hhead, hshape⟩
      obtain ⟨hx, rfl⟩ := eq_rawKeyItem hhead hshape hkey
      refine ⟨hx, by_contra fun hne => hescape ⟨hne, head, hhead, ?_⟩⟩
      have hsplit : item.encode ++ trailing =
          [0xa3, 0x01, 0x01, 0x20, 0x06, 0x21] ++
            (head ++ peer.publicKey.val) ++ trailing := by
        rw [hshape]
        simp only [List.append_assoc]
      exact List.append_cancel_right hsplit
  · rw [if_neg hown]
    constructor
    · intro hbinds hescape
      obtain ⟨hx, htrailing⟩ := hbinds fun h => absurd h hown
      exact hescape.elim (absurd hx) (absurd htrailing)
    · intro hescape _
      rw [not_or, not_not, not_not] at hescape
      exact hescape

theorem validatePeerCredential_binds_iff_raw :
    let peer : PeerCredential := .raw .standIn (Crypto.blockOfNat 32 7)
    ∃ (item : Item) (trailing x : Bytes),
      peer.credential = item.encode ++ trailing ∧ HoldsKey item x ∧
      ((validatePeerCredential .standIn peer = .ok () →
          x = peer.publicKey.val ∧ trailing = []) ↔
        ¬ Escapes .standIn peer item trailing x) := by
  intro peer
  obtain ⟨coordinate, hencode, hvalue⟩ :=
    exists_keyItem (bstrHead_key.mpr (Or.inl rfl)) peer.publicKey
  have hcred : peer.credential = (rawKeyItem coordinate).encode ++ [] := by
    rw [encode_rawKeyItem, hencode]
    rfl
  have hkey : HoldsKey (rawKeyItem coordinate) peer.publicKey.val :=
    Or.inl (isCoseKey_rawKeyItem hvalue)
  exact ⟨_, _, _, hcred, hkey,
    validatePeerCredential_binds_iff .standIn peer _ _ _ hcred hkey⟩

/-- A claim set with nothing but a key in its `cnf` claim. -/
def confirmation (coordinate : Item) : Item :=
  .ofList (.narrow 0xa1 (by decide)) []
    [smallInt 0x08, .ofList (.narrow 0xa1 (by decide)) []
      [smallInt 0x01, rawKeyItem coordinate] (by decide)
      (show 2 = (Head.narrow 0xa1 (by decide)).childCount by decide)]
    (by decide) (show 2 = (Head.narrow 0xa1 (by decide)).childCount by decide)

theorem confirmsKey_confirmation {coordinate : Item}
    (h : coordinate.byteString = some x) :
    ConfirmsKey (confirmation coordinate) x := by
  have hentry : ∀ (first : UInt8) hfirst (value : Item) hbody hchildren,
      (smallInt first hfirst, value) ∈ (Item.ofList (.narrow 0xa1 (by decide))
        [] [smallInt first hfirst, value] hbody hchildren).entries := by
    intro first hfirst value hbody hchildren
    rw [Item.entries, Item.children_ofList, Item.head_ofList]
    exact List.mem_cons_self
  exact ⟨_, _, ⟨_, hentry 0x08 _ _ _ _, rfl⟩, ⟨_, hentry 0x01 _ _ _ _, rfl⟩,
    isCoseKey_rawKeyItem h⟩

/-- A CCS that confirms one key is accepted for another. -/
theorem validatePeerCredential_accepts_confirmation :
    ∃ (peer : PeerCredential) (item : Item) (x : Bytes),
      peer.credential = item.encode ∧ HoldsKey item x ∧
        validatePeerCredential .standIn peer = .ok () ∧
        x ≠ peer.publicKey.val := by
  obtain ⟨coordinate, -, hvalue⟩ :=
    exists_keyItem (bstrHead_key.mpr (Or.inl rfl)) (Crypto.blockOfNat 32 9)
  let peer : PeerCredential :=
    ⟨Crypto.blockOfNat 32 7, [], (confirmation coordinate).encode⟩
  have hne : (Crypto.blockOfNat 32 9).val ≠ peer.publicKey.val := by
    change (Crypto.blockOfNat 32 9).val ≠ (Crypto.blockOfNat 32 7).val
    decide
  refine ⟨peer, confirmation coordinate, _, rfl,
    Or.inr (Or.inl (confirmsKey_confirmation hvalue)), ?_, hne⟩
  refine validatePeerCredential_eq_ok.mpr ⟨rfl, fun hfirst => ?_⟩
  exact absurd (Option.some.inj hfirst) (by decide)

end Oscore.Edhoc
