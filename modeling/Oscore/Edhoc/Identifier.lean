/-
Connection identifiers on the wire: the forms that the parser accepts, what it
makes of the form that the encoder writes, and which forms it cannot tell apart.
-/
import Oscore.Edhoc.Cbor

namespace Oscore.Edhoc

open Rust

/-- A byte that stands for a negative integer. -/
def Negative (byte : UInt8) : Prop := 0x20 ≤ byte ∧ byte ≤ 0x37

instance (byte : UInt8) : Decidable (Negative byte) :=
  inferInstanceAs (Decidable (_ ∧ _))

/-- What `parse_identifier` makes of a one-byte identifier: the two's
complement of a negative integer. -/
def received (byte : UInt8) : ConnectionId :=
  if Negative byte then .ofByte (UInt8.ofNat (256 - (byte - 0x20 + 1).toNat))
  else .ofByte byte

/-- The complement of a negative integer is a byte from 0xE8 up. -/
theorem toNat_complement {byte : UInt8} (h : Negative byte) :
    (UInt8.ofNat (256 - (byte - 0x20 + 1).toNat)).toNat =
      0x11f - byte.toNat := by
  revert byte
  apply forall_byte
  decide +kernel

theorem Negative.bounds {byte : UInt8} (h : Negative byte) :
    0x20 ≤ byte.toNat ∧ byte.toNat ≤ 0x37 :=
  ⟨UInt8.le_iff_toNat_le.mp h.1, UInt8.le_iff_toNat_le.mp h.2⟩

theorem received_injective {byte own : UInt8} (h : Negative byte)
    (hown : Negative own) (heq : received byte = received own) :
    byte = own := by
  rw [received, received, if_pos h, if_pos hown, HVec.ext_iff] at heq
  have hvalue := congrArg UInt8.toNat (List.cons.inj heq).1
  rw [toNat_complement h, toNat_complement hown] at hvalue
  have hbyte := h.bounds
  have hother := hown.bounds
  exact UInt8.toNat_inj.mp (by omega)

/-- A negative integer is not read as it was written. -/
theorem received_eq_iff (byte : UInt8) :
    (received byte).toList = [byte] ↔ ¬ Negative byte := by
  unfold received
  by_cases h : Negative byte
  · rw [if_pos h]
    refine iff_of_false (fun heq => ?_) (not_not.mpr h)
    have hvalue := toNat_complement h
    rw [(List.cons.inj heq).1] at hvalue
    have hbyte := h.bounds
    omega
  · rw [if_neg h]
    exact iff_of_true rfl h

theorem received_of_small {byte : UInt8} (h : byte ≤ 0x17) :
    received byte = .ofByte byte := by
  refine if_neg fun hnegative => ?_
  exact absurd (UInt8.le_trans hnegative.1 h) (by decide)

theorem connectionId_new_eq_ok {value : Bytes} {id : ConnectionId} :
    ConnectionId.new value = .ok id ↔ id.toList = value := by
  rw [ConnectionId.new, okOr_eq_ok, HVec.ofBytes_eq_some]

/-- The forms of an identifier that `parse_identifier` accepts. -/
inductive WireForm : Bytes → ConnectionId → Prop
  | small {byte : UInt8} (h : byte ≤ 0x17) : WireForm [byte] (.ofByte byte)
  | negative {byte : UInt8} (h : Negative byte) :
      WireForm [byte] (received byte)
  | short {id : ConnectionId}
      (h : ∀ byte, id.toList = [byte] → ¬ byte ≤ 0x17) :
      WireForm (Cbor.bstr id.toList) id
  | long (id : ConnectionId) :
      WireForm (0x58 :: UInt8.ofNat id.toList.length :: id.toList) id

theorem length_small (id : ConnectionId) : id.toList.length ≤ 23 :=
  le_trans id.length_le (by decide)

/-- The head of an identifier is one byte. -/
theorem bstr_identifier (id : ConnectionId) :
    ∃ head : UInt8, Cbor.bstr id.toList = head :: id.toList ∧
      head.toNat = 0x40 + id.toList.length := by
  refine ⟨_, ?_, Cbor.bstrHead_small (length_small id)⟩
  rw [Cbor.bstr, Cbor.bstrHead, if_pos (length_small id)]
  rfl

theorem parseIdentifier_short {id : ConnectionId}
    (h : ∀ byte, id.toList = [byte] → ¬ byte ≤ 0x17) (rest : Bytes) :
    parseIdentifier (Cbor.bstr id.toList ++ rest) =
      .ok (id, (Cbor.bstr id.toList).length) := by
  obtain ⟨head, hbstr, hvalue⟩ := bstr_identifier id
  have hbounds : 0x40 ≤ head ∧ head ≤ 0x57 := by
    rw [UInt8.le_iff_toNat_le, UInt8.le_iff_toNat_le, hvalue]
    exact ⟨Nat.le_add_right _ _, Nat.add_le_add_left (length_small id) 0x40⟩
  have hlen : (head - 0x40).toNat = id.toList.length := by
    rw [UInt8.toNat_sub_of_le _ _ hbounds.1, hvalue]
    exact Nat.add_sub_cancel_left _ _
  have hother : ∀ byte : UInt8, byte < 0x40 → ¬ head ≤ byte := by
    intro byte hlt hle
    exact absurd (UInt8.lt_of_le_of_lt (UInt8.le_trans hbounds.1 hle) hlt)
      (UInt8.lt_irrefl _)
  have hne : head ≠ 0x18 := fun heq =>
    hother 0x18 (by decide) (heq ▸ UInt8.le_refl _)
  have hcanonical : ¬ (id.toList.length = 1 ∧
      (head :: id.toList ++ rest)[1]?.any (· ≤ 23) = true) := by
    rintro ⟨hone, hany⟩
    obtain ⟨byte, hbyte⟩ := List.length_eq_one_iff.mp hone
    rw [hbyte] at hany
    exact h byte hbyte (of_decide_eq_true hany)
  have hitem : takeItem (head :: id.toList ++ rest) 1 id.toList.length =
      .ok (id.toList, 1 + id.toList.length) := by
    rw [takeItem_eq_ok]
    refine ⟨rfl, ?_, ?_⟩
    · simp only [List.cons_append, List.length_cons, List.length_append]
      omega
    · rw [List.cons_append, List.drop_succ_cons, List.drop_zero,
        List.take_left]
  have hfirst : byteAt (head :: id.toList ++ rest) 0 = .ok head :=
    byteAt_eq_ok.mpr rfl
  rw [hbstr, parseIdentifier, hfirst, Outcome.ok_bind,
    if_neg (hother 0x17 (by decide)),
    if_neg fun hin => hother 0x37 (by decide) hin.2, if_neg hne,
    if_pos hbounds]
  simp only [hlen, failIf_of_not _ hcanonical, Outcome.ok_bind, hitem,
    connectionId_new_eq_ok.mpr rfl]
  rw [List.length_cons, Nat.add_comm]
  rfl

theorem parseIdentifier_long (id : ConnectionId) (rest : Bytes) :
    parseIdentifier
        (0x58 :: UInt8.ofNat id.toList.length :: (id.toList ++ rest)) =
      .ok (id, 2 + id.toList.length) := by
  have hmax := id.length_le
  have hlen : (UInt8.ofNat id.toList.length).toNat = id.toList.length :=
    UInt8.toNat_ofNat_of_lt' (Nat.lt_of_le_of_lt hmax (by decide))
  generalize hbyte : UInt8.ofNat id.toList.length = byte at hlen
  have hfirst : byteAt (0x58 :: byte :: (id.toList ++ rest)) 0 = .ok 0x58 :=
    byteAt_eq_ok.mpr rfl
  have hnext : byteAt (0x58 :: byte :: (id.toList ++ rest)) 1 = .ok byte :=
    byteAt_eq_ok.mpr rfl
  have hlength : (0x58 :: byte :: (id.toList ++ rest)).length =
      2 + id.toList.length + rest.length := by
    simp only [List.length_cons, List.length_append]
    omega
  have hfit : ¬ ((0x58 :: byte :: (id.toList ++ rest)).length <
      2 + id.toList.length ∨ id.toList.length > connectionIdCapacity) := by
    rw [hlength]
    exact not_or.mpr ⟨by omega, Nat.not_lt.mpr hmax⟩
  have hitem : takeItem (0x58 :: byte :: (id.toList ++ rest)) 2
      id.toList.length = .ok (id.toList, 2 + id.toList.length) := by
    rw [takeItem_eq_ok, hlength]
    refine ⟨rfl, Nat.le_add_right _ _, ?_⟩
    rw [List.drop_succ_cons, List.drop_succ_cons, List.drop_zero,
      List.take_left]
  rw [parseIdentifier, hfirst, Outcome.ok_bind, if_neg (by decide),
    if_neg (by decide), if_neg (by decide), if_neg (by decide), if_pos rfl,
    hnext, Outcome.ok_bind]
  simp only [hlen, failIf_of_not _ hfit, Outcome.ok_bind, hitem,
    connectionId_new_eq_ok.mpr rfl]
  rfl

/-- The parser reads every form, whatever follows. -/
theorem WireForm.parseIdentifier {item : Bytes} {id : ConnectionId}
    (h : WireForm item id) (rest : Bytes) :
    parseIdentifier (item ++ rest) = .ok (id, item.length) := by
  cases h with
  | small hsmall =>
      rename_i byte
      have hfirst : byteAt ([byte] ++ rest) 0 = .ok byte :=
        byteAt_eq_ok.mpr rfl
      have hnew : ConnectionId.new [byte] = .ok (.ofByte byte) :=
        connectionId_new_eq_ok.mpr rfl
      rw [Edhoc.parseIdentifier, hfirst, Outcome.ok_bind, if_pos hsmall, hnew]
      rfl
  | negative hnegative =>
      rename_i byte
      have hfirst : byteAt ([byte] ++ rest) 0 = .ok byte :=
        byteAt_eq_ok.mpr rfl
      have hsmall : ¬ byte ≤ 0x17 := fun hle =>
        absurd (UInt8.le_trans hnegative.1 hle) (by decide)
      have hin : 0x20 ≤ byte ∧ byte ≤ 0x37 := hnegative
      have hnew : ConnectionId.new
          [UInt8.ofNat (256 - (byte - 0x20 + 1).toNat)] =
            .ok (received byte) := by
        rw [connectionId_new_eq_ok, received, if_pos hnegative]
        rfl
      rw [Edhoc.parseIdentifier, hfirst, Outcome.ok_bind, if_neg hsmall,
        if_pos hin]
      simp only [hnew]
      rfl
  | short hlarge => exact parseIdentifier_short hlarge rest
  | long =>
      rw [List.cons_append, List.cons_append, parseIdentifier_long,
        List.length_cons, List.length_cons, Nat.add_comm 2]

/-- What the branch of the short byte strings reads is written so. -/
theorem exists_short_form {first : UInt8} {tail : Bytes} {id : ConnectionId}
    (hbounds : 0x40 ≤ first ∧ first ≤ 0x57)
    (hcanonical : ¬ ((first - 0x40).toNat = 1 ∧
      (first :: tail)[1]?.any (· ≤ 23) = true))
    (hle : 1 + (first - 0x40).toNat ≤ (first :: tail).length)
    (hid : id.toList = tail.take (first - 0x40).toNat) :
    ∃ item rest, first :: tail = item ++ rest ∧ WireForm item id ∧
      1 + (first - 0x40).toNat = item.length := by
  have hlen : id.toList.length = (first - 0x40).toNat := by
    rw [hid, List.length_take_of_le]
    rw [List.length_cons] at hle
    omega
  obtain ⟨head, hbstr, hvalue⟩ := bstr_identifier id
  have hhead : head = first := by
    rw [← UInt8.toNat_inj, hvalue, hlen,
      UInt8.toNat_sub_of_le _ _ hbounds.1]
    have := UInt8.le_iff_toNat_le.mp hbounds.1
    exact Nat.add_sub_of_le this
  refine ⟨Cbor.bstr id.toList, tail.drop (first - 0x40).toNat, ?_,
    .short fun byte hbyte hcompact => hcanonical ⟨?_, ?_⟩, ?_⟩
  · rw [hbstr, hhead, hid, List.cons_append, List.take_append_drop]
  · rw [← hlen, hbyte]
    rfl
  · have hone : (first - 0x40).toNat = 1 := by
      rw [← hlen, hbyte]
      rfl
    rw [hone, hbyte] at hid
    cases tail with
    | nil => cases hid
    | cons own tail =>
        cases (List.cons.inj hid).1
        exact decide_eq_true hcompact
  · rw [hbstr, List.length_cons, hlen, Nat.add_comm]

/-- And so is what the branch with a length byte reads. -/
theorem exists_long_form {len : UInt8} {tail : Bytes} {id : ConnectionId}
    (hle : 2 + len.toNat ≤ (0x58 :: len :: tail).length)
    (hid : id.toList = tail.take len.toNat) :
    ∃ item rest, 0x58 :: len :: tail = item ++ rest ∧ WireForm item id ∧
      2 + len.toNat = item.length := by
  have hlen : id.toList.length = len.toNat := by
    rw [hid, List.length_take_of_le]
    simp only [List.length_cons] at hle
    omega
  refine ⟨_, tail.drop len.toNat, ?_, .long id, ?_⟩
  · rw [hlen, UInt8.ofNat_toNat, hid, List.cons_append, List.cons_append,
      List.take_append_drop]
  · rw [List.length_cons, List.length_cons, hlen, Nat.add_comm 2]

/-- The parser accepts the four forms and nothing else. -/
theorem parseIdentifier_eq_ok {data : Bytes} {id : ConnectionId} {n : Nat} :
    parseIdentifier data = .ok (id, n) ↔
      ∃ item rest, data = item ++ rest ∧ WireForm item id ∧
        n = item.length := by
  constructor
  · intro h
    rw [parseIdentifier, Outcome.bind_eq_ok] at h
    obtain ⟨first, hfirst, h⟩ := h
    rw [byteAt_eq_ok] at hfirst
    obtain ⟨tail, rfl⟩ : ∃ tail, data = first :: tail := by
      cases data with
      | nil => cases hfirst
      | cons byte tail => exact ⟨tail, by rw [Option.some.inj hfirst]⟩
    by_cases hsmall : first ≤ 0x17
    · rw [if_pos hsmall] at h
      simp only [Outcome.bind_eq_ok, connectionId_new_eq_ok,
        Outcome.pure_eq_ok, Except.ok.injEq, Prod.mk.injEq] at h
      obtain ⟨id', hid, rfl, rfl⟩ := h
      have hsame : id' = .ofByte first := HVec.ext hid
      exact ⟨[first], tail, rfl, hsame ▸ .small hsmall, rfl⟩
    rw [if_neg hsmall] at h
    by_cases hnegative : 0x20 ≤ first ∧ first ≤ 0x37
    · rw [if_pos hnegative] at h
      simp only [Outcome.bind_eq_ok, connectionId_new_eq_ok,
        Outcome.pure_eq_ok, Except.ok.injEq, Prod.mk.injEq] at h
      obtain ⟨id', hid, rfl, rfl⟩ := h
      have hsame : id' = received first := by
        rw [received, if_pos (show Negative first from hnegative)]
        exact HVec.ext hid
      exact ⟨[first], tail, rfl, hsame ▸ .negative hnegative, rfl⟩
    rw [if_neg hnegative] at h
    split at h
    · cases h
    split at h
    · rename_i hbounds
      simp only [Outcome.bind_eq_ok, failIf_eq_ok, exists_const, Prod.exists,
        takeItem_eq_ok, connectionId_new_eq_ok, Outcome.pure_eq_ok,
        Except.ok.injEq, Prod.mk.injEq, List.drop_succ_cons,
        List.drop_zero] at h
      obtain ⟨hcanonical, value, _, ⟨rfl, hle, rfl⟩, id', hid, rfl, rfl⟩ := h
      exact exists_short_form hbounds hcanonical hle hid
    split at h
    · rename_i hlong
      simp only [Outcome.bind_eq_ok, byteAt_eq_ok, failIf_eq_ok, exists_const,
        Prod.exists, takeItem_eq_ok, connectionId_new_eq_ok,
        Outcome.pure_eq_ok, Except.ok.injEq, Prod.mk.injEq,
        List.drop_succ_cons] at h
      obtain ⟨len, hnext, -, value, _, ⟨rfl, hle, rfl⟩, id', hid, rfl, rfl⟩ :=
        h
      cases tail with
      | nil => cases hnext
      | cons byte tail =>
          cases Option.some.inj hnext
          subst hlong
          exact exists_long_form hle hid
    · cases h
  · rintro ⟨item, rest, rfl, hform, rfl⟩
    exact hform.parseIdentifier rest

/-! What the encoder writes. -/

theorem identifier_of_not_compact {byte : UInt8} (h : ¬ Compact byte) :
    identifier [byte] = Cbor.bstr [byte] := by
  rw [identifier, if_neg h]

theorem wireForm_identifier_byte (byte : UInt8) :
    WireForm (identifier [byte]) (received byte) := by
  by_cases hsmall : byte ≤ 0x17
  · rw [identifier, if_pos (.inl hsmall), received_of_small hsmall]
    exact .small hsmall
  by_cases hnegative : Negative byte
  · rw [identifier, if_pos (.inr hnegative)]
    exact .negative hnegative
  · rw [identifier_of_not_compact (not_or.mpr ⟨hsmall, hnegative⟩), received,
      if_neg hnegative]
    have hlarge : ∀ own, (ConnectionId.ofByte byte).toList = [own] →
        ¬ own ≤ 0x17 := by
      intro own hown
      rw [← (List.cons.inj hown).1]
      exact hsmall
    exact .short hlarge

theorem identifier_of_length_ne_one {bytes : Bytes} (h : bytes.length ≠ 1) :
    identifier bytes = Cbor.bstr bytes := by
  unfold identifier
  split
  · exact absurd rfl h
  · rfl

/-- The identifier that comes back when this one is encoded and parsed. -/
def decoded (id : ConnectionId) : ConnectionId :=
  match id.toList with
  | [byte] => received byte
  | _ => id

theorem decoded_eq_iff (id : ConnectionId) :
    decoded id = id ↔ ¬ ∃ byte, id.toList = [byte] ∧ Negative byte := by
  unfold decoded
  split
  · rename_i byte hbyte
    have hread := received_eq_iff byte
    rw [← hbyte] at hread
    rw [HVec.ext_iff, hread]
    refine not_congr ⟨fun h => ⟨byte, hbyte, h⟩, ?_⟩
    rintro ⟨own, hown, h⟩
    cases hbyte.symm.trans hown
    exact h
  · rename_i hother
    refine iff_of_true rfl ?_
    rintro ⟨byte, hbyte, -⟩
    exact hother byte hbyte

theorem wireForm_identifier (id : ConnectionId) :
    WireForm (identifier id.toList) (decoded id) := by
  unfold decoded
  split
  · rename_i byte hbyte
    rw [hbyte]
    exact wireForm_identifier_byte byte
  · rename_i hother
    have hlen : id.toList.length ≠ 1 := fun hone => by
      obtain ⟨byte, hbyte⟩ := List.length_eq_one_iff.mp hone
      exact hother byte hbyte
    rw [identifier_of_length_ne_one hlen]
    exact .short fun byte hbyte => absurd hbyte (hother byte)

/-- An identifier is parsed as it was encoded exactly if it is no negative
integer, whatever follows. -/
theorem parseIdentifier_encoded_iff (id : ConnectionId) (rest : Bytes) :
    (∃ out : HVec 8, encodeIdentifier HVec.empty id = .ok out ∧
        parseIdentifier (out.toList ++ rest) =
          .ok (id, out.toList.length)) ↔
      ¬ ∃ byte, id.toList = [byte] ∧ Negative byte := by
  obtain ⟨out, hout, hbytes⟩ :=
    exists_extendErr_empty (length_identifier_le id)
  have hencode : encodeIdentifier HVec.empty id = .ok out :=
    (encodeIdentifier_eq _ _).trans hout
  have hparse := (wireForm_identifier id).parseIdentifier rest
  rw [← hbytes] at hparse
  rw [← decoded_eq_iff]
  constructor
  · rintro ⟨out', hencode', hparse'⟩
    cases Except.ok.inj (hencode.symm.trans hencode')
    exact (Prod.mk.inj (Except.ok.inj (hparse.symm.trans hparse'))).1
  · intro hsame
    exact ⟨out, hencode, hsame ▸ hparse⟩

/-- The identifier of the one byte 0x21 comes back as another one. -/
theorem negative_identifier_changes :
    encodeIdentifier HVec.empty (.ofByte 0x21) =
        .ok (⟨[0x21], by decide⟩ : HVec 8) ∧
      parseIdentifier [0x21] = .ok (.ofByte 0xfe, 1) ∧
      ConnectionId.ofByte 0xfe ≠ .ofByte 0x21 :=
  ⟨rfl, rfl, by decide⟩

/-! Forms of one identifier. -/

/-- A byte string with its length in a byte of its own. -/
def StartsLong (data : Bytes) : Prop := data.head? = some 0x58

def StartsNegative (data : Bytes) : Prop :=
  ∃ byte, data.head? = some byte ∧ Negative byte

theorem head_identifier (id : ConnectionId) (rest : Bytes) :
    ¬ StartsLong (Cbor.bstr id.toList ++ rest) ∧
      ¬ StartsNegative (Cbor.bstr id.toList ++ rest) := by
  obtain ⟨head, hbstr, hvalue⟩ := bstr_identifier id
  have hmax := length_small id
  rw [hbstr]
  constructor
  · intro hlong
    have hhead : head = 0x58 := Option.some.inj hlong
    rw [hhead] at hvalue
    have : (0x58 : UInt8).toNat = 0x58 := rfl
    omega
  · rintro ⟨byte, hbyte, hnegative⟩
    cases Option.some.inj hbyte
    have := UInt8.le_iff_toNat_le.mp hnegative.2
    have : (0x37 : UInt8).toNat = 0x37 := rfl
    omega

theorem head_byte {byte : UInt8} (h : byte ≤ 0x37) (rest : Bytes) :
    ¬ StartsLong ([byte] ++ rest) ∧
      (StartsNegative ([byte] ++ rest) ↔ Negative byte) := by
  constructor
  · intro hlong
    cases Option.some.inj hlong
    exact absurd h (by decide)
  · constructor
    · rintro ⟨own, hown, hnegative⟩
      cases Option.some.inj hown
      exact hnegative
    · exact fun hnegative => ⟨byte, rfl, hnegative⟩

/-- The form of an identifier that is neither long nor a negative integer. -/
def plain (id : ConnectionId) : Bytes :=
  match id.toList with
  | [byte] => if byte ≤ 0x17 then [byte] else Cbor.bstr [byte]
  | bytes => Cbor.bstr bytes

section Forms

variable {item rest : Bytes} {id : ConnectionId}

theorem WireForm.eq_of_long (h : WireForm item id)
    (hlong : StartsLong (item ++ rest)) :
    item = 0x58 :: UInt8.ofNat id.toList.length :: id.toList := by
  cases h with
  | small hsmall =>
      exact absurd hlong (head_byte (UInt8.le_trans hsmall (by decide)) _).1
  | negative hnegative => exact absurd hlong (head_byte hnegative.2 _).1
  | short => exact absurd hlong (head_identifier id _).1
  | long => rfl

theorem WireForm.eq_of_negative (h : WireForm item id)
    (hnegative : StartsNegative (item ++ rest)) :
    ∃ byte, item = [byte] ∧ Negative byte ∧ received byte = id := by
  cases h with
  | small hsmall =>
      have hle := UInt8.le_trans hsmall (by decide : (0x17 : UInt8) ≤ 0x37)
      have hbyte := (head_byte hle rest).2.mp hnegative
      exact absurd (UInt8.le_trans hbyte.1 hsmall) (by decide)
  | negative hbyte => exact ⟨_, rfl, hbyte, rfl⟩
  | short => exact absurd hnegative (head_identifier id _).2
  | long =>
      obtain ⟨byte, hbyte, hnot⟩ := hnegative
      cases Option.some.inj hbyte
      exact absurd hnot (by decide)

theorem WireForm.eq_plain (h : WireForm item id)
    (hlong : ¬ StartsLong (item ++ rest))
    (hnegative : ¬ StartsNegative (item ++ rest)) : item = plain id := by
  cases h with
  | small hsmall => exact (if_pos hsmall).symm
  | negative hbyte => exact absurd ((head_byte hbyte.2 _).2.mpr hbyte) hnegative
  | short hlarge =>
      unfold plain
      split
      · rename_i byte hbyte
        rw [if_neg (hlarge byte hbyte), hbyte]
      · rfl
  | long => exact absurd rfl hlong

/-- Two forms of one identifier are the same form if both are long or neither
is, and both are negative integers or neither is. -/
theorem WireForm.eq_iff {item' rest' : Bytes} (h : WireForm item id)
    (h' : WireForm item' id) :
    item = item' ↔
      (StartsLong (item ++ rest) ↔ StartsLong (item' ++ rest')) ∧
        (StartsNegative (item ++ rest) ↔
          StartsNegative (item' ++ rest')) := by
  constructor
  · rintro rfl
    have hhead : (item ++ rest).head? = (item ++ rest').head? := by
      obtain ⟨head, hbstr, -⟩ := bstr_identifier id
      cases h with
      | short => rw [hbstr]; rfl
      | _ => rfl
    rw [StartsLong, StartsLong, StartsNegative, StartsNegative, hhead]
    exact ⟨Iff.rfl, Iff.rfl⟩
  · rintro ⟨hlong, hnegative⟩
    by_cases hitem : StartsLong (item ++ rest)
    · rw [h.eq_of_long hitem, h'.eq_of_long (hlong.mp hitem)]
    by_cases hbyte : StartsNegative (item ++ rest)
    · obtain ⟨byte, rfl, hneg, hread⟩ := h.eq_of_negative hbyte
      obtain ⟨own, rfl, hneg', hread'⟩ :=
        h'.eq_of_negative (hnegative.mp hbyte)
      rw [received_injective hneg hneg' (hread.trans hread'.symm)]
    · rw [h.eq_plain hitem hbyte,
        h'.eq_plain (hlong.not.mp hitem) (hnegative.not.mp hbyte)]

end Forms

/-- Two inputs that are parsed to one identifier start with the same bytes
exactly if both or neither use the long form, and both or neither a negative
integer. -/
theorem sameForm_iff {data data' : Bytes} {id : ConnectionId} {n n' : Nat}
    (h : parseIdentifier data = .ok (id, n))
    (h' : parseIdentifier data' = .ok (id, n')) :
    data.take n = data'.take n' ↔
      (StartsLong data ↔ StartsLong data') ∧
        (StartsNegative data ↔ StartsNegative data') := by
  obtain ⟨item, rest, rfl, hform, rfl⟩ := parseIdentifier_eq_ok.mp h
  obtain ⟨item', rest', rfl, hform', rfl⟩ := parseIdentifier_eq_ok.mp h'
  rw [List.take_left, List.take_left]
  exact hform.eq_iff hform'

theorem sameForm_iff_small :
    ([0x58, 0x01, 0x05, 0x58].take 3 = ([0x05] : Bytes).take 1 ↔
      (StartsLong [0x58, 0x01, 0x05, 0x58] ↔ StartsLong [0x05]) ∧
        (StartsNegative [0x58, 0x01, 0x05, 0x58] ↔ StartsNegative [0x05])) :=
  sameForm_iff
    (rfl : parseIdentifier [0x58, 0x01, 0x05, 0x58] = .ok (.ofByte 5, 3)) rfl

/-- Two forms of the identifier 5, and two of the identifier 0xFE. -/
theorem forms_differ :
    (parseIdentifier [0x58, 0x01, 0x05] = .ok (.ofByte 0x05, 3) ∧
        parseIdentifier [0x05] = .ok (.ofByte 0x05, 1) ∧
        ([0x58, 0x01, 0x05] : Bytes).take 3 ≠ ([0x05] : Bytes).take 1) ∧
      parseIdentifier [0x41, 0xfe] = .ok (.ofByte 0xfe, 2) ∧
      parseIdentifier [0x21] = .ok (.ofByte 0xfe, 1) ∧
      ([0x41, 0xfe] : Bytes).take 2 ≠ ([0x21] : Bytes).take 1 :=
  ⟨⟨rfl, rfl, by decide⟩, rfl, rfl, by decide⟩

end Oscore.Edhoc
