/-
CBOR encoding and parsing helpers for the messages of the exchange.
-/
import Oscore.Edhoc.Suite
import Oscore.Lib.Cbor

namespace Oscore.Edhoc

open Rust

variable {N : Nat}

/-- The common body of the two byte string encoders. -/
def writeBstr (buf : HVec N) (data : Bytes) : Outcome EdhocError (HVec N) := do
  let len := data.length
  let buf ←
    if len ≤ 23 then pushErr buf (0x40 ||| UInt8.ofNat len)
    else if len ≤ 0xff then do
      let buf ← pushErr buf 0x58
      pushErr buf (UInt8.ofNat len)
    else if len ≤ 0xffff then do
      let buf ← pushErr buf 0x59
      let buf ← pushErr buf (UInt8.ofNat (len >>> 8))
      pushErr buf (UInt8.ofNat (len &&& 0xff))
    else throw (.err .bufferTooSmall)
  extendErr buf data

def encodeBstr (buf : HVec N) (data : Bytes) : Outcome EdhocError (HVec N) :=
  writeBstr buf data

def appendCborBstr (buf : HVec N) (data : Bytes) :
    Outcome EdhocError (HVec N) :=
  writeBstr buf data

/-- Parse a CBOR byte string from the front of `data`; returns the value and
the bytes consumed. -/
def parseBstr (data : Bytes) : Outcome EdhocError (Bytes × Nat) := do
  let first ← byteAt data 0
  if 0x40 ≤ first ∧ first ≤ 0x57 then
    takeItem data 1 (first - 0x40).toNat
  else if first = 0x58 then
    let len ← byteAt data 1
    takeItem data 2 len.toNat
  else if first = 0x59 then
    let high ← byteAt data 1
    let low ← byteAt data 2
    takeItem data 3 (high.toNat * 256 + low.toNat)
  else
    throw (.err .invalidMessage)

/-- Parse an identifier value; the result is the identifier and the bytes
consumed. -/
def parseIdentifier (data : Bytes) :
    Outcome EdhocError (ConnectionId × Nat) := do
  let first ← byteAt data 0
  if first ≤ 0x17 then
    let id ← ConnectionId.new [first]
    return (id, 1)
  else if 0x20 ≤ first ∧ first ≤ 0x37 then
    let n := first - 0x20 + 1
    let val := 256 - n.toNat
    let id ← ConnectionId.new [UInt8.ofNat val]
    return (id, 1)
  else if first = 0x18 then
    throw (.err .invalidMessage)
  else if 0x40 ≤ first ∧ first ≤ 0x57 then
    let len := (first - 0x40).toNat
    failIf (len = 1 ∧ data[1]?.any (· ≤ 23) = true) .invalidMessage
    let (value, consumed) ← takeItem data 1 len
    let id ← ConnectionId.new value
    return (id, consumed)
  else if first = 0x58 then
    let len ← byteAt data 1
    failIf (data.length < 2 + len.toNat ∨ len.toNat > connectionIdCapacity)
      .invalidMessage
    let (value, consumed) ← takeItem data 2 len.toNat
    let id ← ConnectionId.new value
    return (id, consumed)
  else
    throw (.err .invalidMessage)

/-- A byte that is a one-byte integer by itself. -/
def Compact (byte : UInt8) : Prop :=
  byte ≤ 0x17 ∨ (0x20 ≤ byte ∧ byte ≤ 0x37)

instance (byte : UInt8) : Decidable (Compact byte) :=
  inferInstanceAs (Decidable (_ ∨ _))

/-- Encode a connection identifier: a single byte that coincides with a
one-byte integer is copied, anything else is a byte string. -/
def encodeIdentifier (buf : HVec N) (id : ConnectionId) :
    Outcome EdhocError (HVec N) :=
  match id.toList with
  | [byte] =>
      if Compact byte then pushErr buf byte else encodeBstr buf [byte]
  | bytes => encodeBstr buf bytes

/-- An element that no byte holds is only measured. -/
def wideSuite (data : Bytes) (offset size : Nat) :
    Outcome EdhocError (Option UInt8 × Nat) := do
  failIf (offset + size > data.length) .invalidMessage
  return (none, size)

/-- One element of SUITES_I: its value, if a byte holds it, and its size. -/
def parseSuite (data : Bytes) (offset : Nat) :
    Outcome EdhocError (Option UInt8 × Nat) := do
  let elem ← byteAt data offset
  if elem ≤ 0x17 then
    return (some elem, 1)
  else if elem = 0x18 then
    let value ← byteAt data (offset + 1)
    return (some value, 2)
  else if elem = 0x19 then wideSuite data offset 3
  else if elem = 0x1a then wideSuite data offset 5
  else if elem = 0x1b then wideSuite data offset 9
  else if 0x20 ≤ elem ∧ elem ≤ 0x37 then return (none, 1)
  else if elem = 0x38 then wideSuite data offset 2
  else if elem = 0x39 then wideSuite data offset 3
  else if elem = 0x3a then wideSuite data offset 5
  else if elem = 0x3b then wideSuite data offset 9
  else throw (.err .invalidMessage)

/-- The loop over the elements.  The offset stays within the input, so that its
`checked_add` cannot fail. -/
def parseSuites (data : Bytes) :
    Nat → Nat → Option UInt8 → Outcome EdhocError (Option UInt8 × Nat)
  | 0, offset, selected => return (selected, offset)
  | count + 1, offset, selected => do
      let (value, size) ← parseSuite data offset
      let selected := if selected.isNone then value else selected
      parseSuites data count (offset + size) selected

/-- The number of elements of an array, and the size of its header. -/
def parseArrayHeader (data : Bytes) (first : UInt8) :
    Outcome EdhocError (Nat × Nat) :=
  if 0x80 ≤ first ∧ first ≤ 0x97 then
    return ((first - 0x80).toNat, 1)
  else if first = 0x98 then do
    let count ← byteAt data 1
    return (count.toNat, 2)
  else
    throw (.err .invalidMessage)

/-- Parse SUITES_I: the selected suite and the bytes consumed. -/
def parseSuitesI (data : Bytes) : Outcome EdhocError (UInt8 × Nat) := do
  let first ← byteAt data 0
  if first ≤ 0x17 then
    return (first, 1)
  else if first = 0x18 then
    let value ← byteAt data 1
    return (value, 2)
  else
    let (arrLen, headerSize) ← parseArrayHeader data first
    failIf (arrLen = 0) .invalidMessage
    let (selected, offset) ← parseSuites data arrLen headerSize none
    let suite ← okOr selected .invalidMessage
    return (suite, offset)

/-- Parse SUITES_R of an error message: the bytes consumed. -/
def parseSuitesR (data : Bytes) : Outcome EdhocError Nat := do
  let first ← byteAt data 0
  if first ≤ 0x17 then
    return 1
  else if first = 0x18 then
    failIf (data.length < 2) .invalidMessage
    return 2
  else if 0x80 ≤ first ∧ first ≤ 0x97 then
    let arrLen := (first - 0x80).toNat
    failIf (data.length < 1 + arrLen) .invalidMessage
    return 1 + arrLen
  else if first = 0x98 then
    let count ← byteAt data 1
    failIf (data.length < 2 + count.toNat) .invalidMessage
    return 2 + count.toNat
  else
    throw (.err .invalidMessage)

/-! Byte strings. -/

theorem writeBstr_eq {buf : HVec N} {data : Bytes}
    (h : data.length ≤ Cbor.bstrMax) :
    writeBstr buf data = extendErr buf (Cbor.bstr data) := by
  simp only [writeBstr, pushErr, extendErr, Cbor.bstr, Cbor.bstrHead,
    Cbor.bstrMax] at *
  split
  · rw [HVec.okOr_extend]
  · split
    · rw [HVec.okOr_extend_bind, HVec.okOr_extend]
      rfl
    · rw [HVec.okOr_extend_bind, HVec.okOr_extend_bind, HVec.okOr_extend]
      rfl

theorem writeBstr_of_gt {data : Bytes} (h : Cbor.bstrMax < data.length)
    (buf : HVec N) : writeBstr buf data = .error (.err .bufferTooSmall) := by
  simp only [Cbor.bstrMax] at h
  have hsmall : ¬ data.length ≤ 23 := by omega
  have hbyte : ¬ data.length ≤ 0xff := by omega
  have hword : ¬ data.length ≤ 0xffff := by omega
  simp only [writeBstr, if_neg hsmall, if_neg hbyte, if_neg hword]
  rfl

/-- No buffer holds more than a byte string can have, so that its limit is
never the first to be met. -/
theorem writeBstr_eq_extendErr (hN : N ≤ Cbor.bstrMax) (buf : HVec N)
    (data : Bytes) : writeBstr buf data = extendErr buf (Cbor.bstr data) := by
  by_cases h : data.length ≤ Cbor.bstrMax
  · exact writeBstr_eq h
  · have hlong : ¬ (buf.toList ++ Cbor.bstr data).length ≤ N := by
      have hdata := Cbor.length_bstr_ge data
      rw [List.length_append]
      omega
    rw [writeBstr_of_gt (Nat.not_le.mp h), extendErr_of_gt hlong]

/-- What a byte string encoder appends. -/
theorem writeBstr_eq_ok {buf out : HVec N} {data : Bytes} :
    writeBstr buf data = .ok out ↔
      data.length ≤ Cbor.bstrMax ∧ out.toList = buf.toList ++ Cbor.bstr data := by
  by_cases h : data.length ≤ Cbor.bstrMax
  · rw [writeBstr_eq h, extendErr_eq_ok]
    exact (and_iff_right h).symm
  · simp [writeBstr_of_gt (Nat.not_le.mp h), h]

theorem writeBstr_meets (buf : HVec N) (data : Bytes) :
    (writeBstr buf data).Meets fun out => data.length ≤ Cbor.bstrMax ∧
      out.toList = buf.toList ++ Cbor.bstr data := by
  by_cases h : data.length ≤ Cbor.bstrMax
  · rw [writeBstr_eq h]
    exact (extendErr_meets buf _).mono fun out hout => ⟨h, hout⟩
  · rw [writeBstr_of_gt (Nat.not_le.mp h)]
    exact .err _ _

theorem encodeBstr_eq_ok {buf out : HVec N} {data : Bytes} :
    encodeBstr buf data = .ok out ↔
      data.length ≤ Cbor.bstrMax ∧ out.toList = buf.toList ++ Cbor.bstr data :=
  writeBstr_eq_ok

/-- What is read lies behind a head that is not empty. -/
def Reads (data : Bytes) (item : Bytes × Nat) : Prop :=
  ∃ head rest : Bytes, 0 < head.length ∧ data = head ++ (item.1 ++ rest) ∧
    item.2 = head.length + item.1.length

theorem takeItem_reads (data : Bytes) {first : Nat} (hfirst : 0 < first)
    (len : Nat) : (takeItem data first len).Meets (Reads data) := by
  refine (takeItem_meets data first len).mono ?_
  rintro ⟨value, n⟩ ⟨hn, hle, hvalue⟩
  simp only at hn hle hvalue
  have hhead : (data.take first).length = first :=
    List.length_take_of_le (by omega)
  have hlen : value.length = len := by
    rw [hvalue, List.length_take_of_le]
    rw [List.length_drop]
    omega
  refine ⟨data.take first, (data.drop first).drop len, by omega, ?_, ?_⟩
  · rw [hvalue, List.take_append_drop, List.take_append_drop]
  · rw [hhead, hlen, hn]

theorem parseBstr_meets (data : Bytes) :
    (parseBstr data).Meets (Reads data) := by
  refine (byteAt_meets data 0).bind fun first _ => ?_
  split
  · exact takeItem_reads data (by decide) _
  split
  · exact (byteAt_meets data 1).bind fun len _ =>
      takeItem_reads data (by decide) _
  split
  · exact (byteAt_meets data 1).bind fun high _ =>
      (byteAt_meets data 2).bind fun low _ =>
        takeItem_reads data (by decide) _
  · exact .err _ _

/-- The heads that `parse_bstr` reads, and the lengths they announce. -/
inductive BstrHead : Nat → Bytes → Prop
  | small (first : UInt8) (h : 0x40 ≤ first ∧ first ≤ 0x57) :
      BstrHead (first - 0x40).toNat [first]
  | byte (len : UInt8) : BstrHead len.toNat [0x58, len]
  | word (high low : UInt8) :
      BstrHead (high.toNat * 256 + low.toNat) [0x59, high, low]

theorem takeItem_split {data value : Bytes} {first len n : Nat}
    (h : takeItem data first len = .ok (value, n)) :
    data = data.take first ++ (value ++ data.drop n) ∧ value.length = len ∧
      n = first + value.length := by
  obtain ⟨rfl, hle, rfl⟩ := takeItem_eq_ok.mp h
  have hlength : ((data.drop first).take len).length = len := by
    rw [List.length_take_of_le]
    rw [List.length_drop]
    omega
  refine ⟨?_, hlength, by rw [hlength]⟩
  rw [← List.drop_drop, List.take_append_drop, List.take_append_drop]

theorem takeItem_append (head value rest : Bytes) :
    takeItem (head ++ (value ++ rest)) head.length value.length =
      .ok (value, head.length + value.length) := by
  rw [takeItem_eq_ok]
  refine ⟨rfl, ?_, ?_⟩
  · simp only [List.length_append]
    omega
  · rw [List.drop_left, List.take_left]

/-- A value behind a head of a kind that announces its length. -/
def ReadBehind (kind : Nat → Bytes → Prop) (data value : Bytes) (n : Nat) :
    Prop :=
  ∃ head rest, kind value.length head ∧ data = head ++ (value ++ rest) ∧
    n = head.length + value.length

theorem takeItem_behind {kind : Nat → Bytes → Prop}
    {data value head : Bytes} {len n : Nat} (hhead : kind len head)
    (htake : data.take head.length = head)
    (h : takeItem data head.length len = .ok (value, n)) :
    ReadBehind kind data value n := by
  obtain ⟨hdata, hlen, hn⟩ := takeItem_split h
  rw [htake] at hdata
  exact ⟨head, data.drop n, hlen ▸ hhead, hdata, hn⟩

/-- `parse_bstr` reads a value behind a head for its length. -/
theorem parseBstr_eq_ok {data value : Bytes} {n : Nat} :
    parseBstr data = .ok (value, n) ↔ ReadBehind BstrHead data value n := by
  constructor
  · intro h
    obtain ⟨first, hbyte, h⟩ := Outcome.bind_eq_ok.mp h
    have hfirst := byteAt_eq_ok.mp hbyte
    rcases ite_eq_iff.mp h with ⟨hsmall, h⟩ | ⟨-, h⟩
    · refine takeItem_behind (.small first hsmall) ?_ h
      match data, hfirst with
      | _ :: _, rfl => rfl
    rcases ite_eq_iff.mp h with ⟨rfl, h⟩ | ⟨-, h⟩
    · obtain ⟨len, hlen, h⟩ := Outcome.bind_eq_ok.mp h
      refine takeItem_behind (.byte len) ?_ h
      match data, hfirst, byteAt_eq_ok.mp hlen with
      | _ :: _ :: _, rfl, rfl => rfl
    rcases ite_eq_iff.mp h with ⟨rfl, h⟩ | ⟨-, h⟩
    · obtain ⟨high, hhigh, h⟩ := Outcome.bind_eq_ok.mp h
      obtain ⟨low, hlow, h⟩ := Outcome.bind_eq_ok.mp h
      refine takeItem_behind (.word high low) ?_ h
      match data, hfirst, byteAt_eq_ok.mp hhigh, byteAt_eq_ok.mp hlow with
      | _ :: _ :: _ :: _, rfl, rfl, rfl => rfl
    · cases h
  · rintro ⟨head, rest, hhead, rfl, rfl⟩
    have hitem := takeItem_append head value rest
    have hread : ∀ (tail : Bytes) (i : Nat) (byte : UInt8),
        (head ++ tail)[i]? = some byte → byteAt (head ++ tail) i = .ok byte :=
      fun tail i byte => byteAt_eq_ok.mpr
    generalize value.length = size at *
    cases hhead with
    | small first h =>
        rw [parseBstr, hread _ 0 first rfl, Outcome.ok_bind, if_pos h]
        exact hitem
    | byte len =>
        rw [parseBstr, hread _ 0 0x58 rfl, Outcome.ok_bind,
          if_neg (by decide), if_pos rfl, hread _ 1 len rfl, Outcome.ok_bind]
        exact hitem
    | word high low =>
        rw [parseBstr, hread _ 0 0x59 rfl, Outcome.ok_bind,
          if_neg (by decide), if_neg (by decide), if_pos rfl,
          hread _ 1 high rfl, Outcome.ok_bind, hread _ 2 low rfl,
          Outcome.ok_bind]
        exact hitem

/-- The heads of `BstrHead` that no shorter one could replace. -/
inductive ShortHead : Nat → Bytes → Prop
  | small (first : UInt8) (h : 0x40 ≤ first ∧ first ≤ 0x57) :
      ShortHead (first - 0x40).toNat [first]
  | byte (len : UInt8) (h : 24 ≤ len.toNat) : ShortHead len.toNat [0x58, len]
  | word (high low : UInt8) (h : 0xff < high.toNat * 256 + low.toNat) :
      ShortHead (high.toNat * 256 + low.toNat) [0x59, high, low]

theorem ShortHead.bstrHead {len : Nat} {head : Bytes}
    (h : ShortHead len head) : BstrHead len head := by
  cases h with
  | small first h => exact .small first h
  | byte len h => exact .byte len
  | word high low h => exact .word high low

theorem shortHead_bstrHead {len : Nat} (h : len ≤ Cbor.bstrMax) :
    ShortHead len (Cbor.bstrHead len) := by
  unfold Cbor.bstrHead
  by_cases hsmall : len ≤ 23
  · have hbyte := Cbor.bstrHead_small hsmall
    rw [if_pos hsmall]
    generalize (0x40 ||| UInt8.ofNat len : UInt8) = first at *
    have hrange : (0x40 : UInt8) ≤ first ∧ first ≤ 0x57 := by
      rw [UInt8.le_iff_toNat_le, UInt8.le_iff_toNat_le, hbyte]
      exact ⟨Nat.le_add_right _ _, Nat.add_le_add_left hsmall 0x40⟩
    have hlen : (first - 0x40).toNat = len := by
      rw [UInt8.toNat_sub_of_le _ _ hrange.1, hbyte]
      exact Nat.add_sub_cancel_left _ _
    exact hlen ▸ .small first hrange
  · rw [if_neg hsmall]
    by_cases hbyte : len ≤ 0xff
    · have hlen : (UInt8.ofNat len).toNat = len := by
        rw [UInt8.toNat_ofNat']
        omega
      have hhead := ShortHead.byte (UInt8.ofNat len)
      rw [if_pos hbyte]
      rw [hlen] at hhead
      exact hhead (by omega)
    · have hhead := ShortHead.word (UInt8.ofNat (len >>> 8))
        (UInt8.ofNat (len &&& 0xff))
      rw [if_neg hbyte]
      rw [Cbor.toNat_high h, Cbor.toNat_low, Nat.div_add_mod'] at hhead
      exact hhead (by omega)

theorem ShortHead.eq {len : Nat} {head : Bytes} (h : ShortHead len head) :
    len ≤ Cbor.bstrMax ∧ head = Cbor.bstrHead len := by
  cases h with
  | small first h =>
      have hall : ∀ byte : UInt8, 0x40 ≤ byte ∧ byte ≤ 0x57 →
          (byte - 0x40).toNat ≤ Cbor.bstrMax ∧
            [byte] = Cbor.bstrHead (byte - 0x40).toNat := by
        apply forall_byte
        decide +kernel
      exact hall first h
  | byte len h =>
      have hlt := len.toNat_lt
      refine ⟨by simp only [Cbor.bstrMax]; omega, ?_⟩
      rw [Cbor.bstrHead, if_neg (by omega), if_pos (by omega),
        UInt8.ofNat_toNat]
  | word high low h =>
      have hlow := low.toNat_lt
      have hhigh := high.toNat_lt
      have hlen : high.toNat * 256 + low.toNat ≤ Cbor.bstrMax := by
        simp only [Cbor.bstrMax]
        omega
      refine ⟨hlen, ?_⟩
      have htop : UInt8.ofNat ((high.toNat * 256 + low.toNat) >>> 8) =
          high := by
        rw [← UInt8.toNat_inj, Cbor.toNat_high hlen]
        omega
      have hbottom : UInt8.ofNat ((high.toNat * 256 + low.toNat) &&& 0xff) =
          low := by
        rw [← UInt8.toNat_inj, Cbor.toNat_low]
        omega
      rw [Cbor.bstrHead, if_neg (by omega), if_neg (by omega), htop, hbottom]

/-- A byte string is read as it was written, whatever follows. -/
theorem parseBstr_bstr {value : Bytes} (h : value.length ≤ Cbor.bstrMax)
    (rest : Bytes) :
    parseBstr (Cbor.bstr value ++ rest) =
      .ok (value, (Cbor.bstr value).length) :=
  parseBstr_eq_ok.mpr ⟨_, rest, (shortHead_bstrHead h).bstrHead,
    List.append_assoc _ _ _, List.length_append⟩

/-! Connection identifiers. -/

/-- An identifier as it stands in a message. -/
def identifier : Bytes → Bytes
  | [byte] => if Compact byte then [byte] else Cbor.bstr [byte]
  | bytes => Cbor.bstr bytes

theorem length_connectionId (id : ConnectionId) :
    id.toList.length ≤ Cbor.bstrMax :=
  le_trans id.length_le (by decide)

theorem length_identifier_le (id : ConnectionId) :
    (identifier id.toList).length ≤ 8 := by
  have hid := id.length_le
  simp only [connectionIdCapacity] at hid
  have hbstr : ∀ bytes : Bytes, bytes.length ≤ 7 →
      (Cbor.bstr bytes).length ≤ 8 := by
    intro bytes hle
    rw [Cbor.bstr, Cbor.bstrHead, if_pos (by omega), List.length_append]
    simp only [List.length_singleton]
    omega
  generalize id.toList = bytes at hid
  unfold identifier
  split
  · split
    · exact (by decide : 1 ≤ 8)
    · exact hbstr _ hid
  · exact hbstr _ hid

/-- What the encoder appends. -/
theorem encodeIdentifier_eq (buf : HVec N) (id : ConnectionId) :
    encodeIdentifier buf id = extendErr buf (identifier id.toList) := by
  have hlength := length_connectionId id
  unfold encodeIdentifier
  generalize id.toList = bytes at hlength
  unfold identifier
  split
  · rename_i byte
    by_cases hcompact : Compact byte
    · rw [if_pos hcompact, if_pos hcompact]
      rfl
    · rw [if_neg hcompact, if_neg hcompact]
      exact writeBstr_eq hlength
  · exact writeBstr_eq hlength

theorem compact_ne {byte : UInt8} (h : Compact byte) (id s t : Bytes)
    (hid : id.length ≤ connectionIdCapacity) :
    byte :: s ≠ Cbor.bstr id ++ t := by
  intro heq
  simp only [connectionIdCapacity] at hid
  have hsmall : id.length ≤ 23 := by omega
  rw [Cbor.bstr, Cbor.bstrHead, if_pos hsmall, List.singleton_append,
    List.cons_append, List.cons.injEq] at heq
  have hvalue := Cbor.bstrHead_small hsmall
  rw [← heq.1] at hvalue
  simp only [Compact, UInt8.le_iff_toNat_le] at h
  have hthirtySeven : (0x37 : UInt8).toNat = 0x37 := rfl
  have hseventeen : (0x17 : UInt8).toNat = 0x17 := rfl
  omega

/-- The two ways in which an identifier is written. -/
theorem identifier_form (id : Bytes) :
    (∃ byte, Compact byte ∧ id = [byte] ∧ identifier id = [byte]) ∨
      identifier id = Cbor.bstr id := by
  unfold identifier
  split
  · rename_i byte
    by_cases hcompact : Compact byte
    · exact Or.inl ⟨byte, hcompact, rfl, if_pos hcompact⟩
    · exact Or.inr (if_neg hcompact)
  · exact Or.inr rfl

/-- An identifier tells where it ends. -/
theorem identifier_delimits :
    Prefix.Delimits (fun id => id.length ≤ connectionIdCapacity)
      identifier := by
  intro a ha b hb s t h
  rcases identifier_form a with ⟨x, hx, rfl, hencode⟩ | hencode <;>
  rcases identifier_form b with ⟨y, hy, rfl, hencode'⟩ | hencode' <;>
  rw [hencode, hencode'] at h
  · exact List.append_inj h rfl
  · exact absurd h (compact_ne hx b s t hb)
  · exact absurd h.symm (compact_ne hy a t s ha)
  · exact Cbor.bstr_delimits a (le_trans ha (by decide)) b
      (le_trans hb (by decide)) s t h

/-- Different identifiers stand differently in a message. -/
theorem identifier_injective {a b : Bytes}
    (ha : a.length ≤ connectionIdCapacity)
    (hb : b.length ≤ connectionIdCapacity)
    (h : identifier a = identifier b) : a = b :=
  identifier_delimits.injective ha hb h

theorem connectionId_new_meets (value : Bytes) :
    (ConnectionId.new value).Meets fun id => id.toList = value :=
  (Outcome.Meets.okOr _ _).mono fun _ => HVec.ofBytes_eq_some.mp

theorem Reads.within {data : Bytes} {item : Bytes × Nat}
    (h : Reads data item) : Within data item.2 := by
  obtain ⟨head, rest, hhead, rfl, hn⟩ := h
  simp only [Within, hn, List.length_append]
  omega

theorem parseIdentifier_meets (data : Bytes) :
    (parseIdentifier data).Meets fun item => Within data item.2 := by
  refine (byteAt_meets data 0).bind fun first hfirst => ?_
  have hone := within_of_getElem? hfirst
  split
  · exact (connectionId_new_meets _).bind fun id _ => hone
  split
  · exact (connectionId_new_meets _).bind fun id _ => hone
  split
  · exact .err _ _
  split
  · refine (Outcome.Meets.failIf _ _).bind fun _ _ => ?_
    refine (takeItem_within data (by decide) _).bind fun item hitem => ?_
    exact (connectionId_new_meets _).bind fun id _ => hitem
  split
  · refine (byteAt_meets data 1).bind fun len _ => ?_
    refine (Outcome.Meets.failIf _ _).bind fun _ _ => ?_
    refine (takeItem_within data (by decide) _).bind fun item hitem => ?_
    exact (connectionId_new_meets _).bind fun id _ => hitem
  · exact .err _ _

/-! Suites. -/

/-- An element takes at least a byte, and none that is not there. -/
abbrev FitsAt (data : Bytes) (offset size : Nat) : Prop :=
  1 ≤ size ∧ offset + size ≤ data.length

theorem wideSuite_meets (data : Bytes) (offset : Nat) {size : Nat}
    (hsize : 1 ≤ size) :
    (wideSuite data offset size).Meets fun r => FitsAt data offset r.2 :=
  (Outcome.Meets.failIf _ _).bind fun _ h => ⟨hsize, Nat.not_lt.mp h⟩

theorem parseSuite_meets (data : Bytes) (offset : Nat) :
    (parseSuite data offset).Meets fun r => FitsAt data offset r.2 := by
  refine (byteAt_meets data offset).bind fun elem helem => ?_
  have hone : FitsAt data offset 1 :=
    ⟨le_rfl, (within_of_getElem? helem).2⟩
  have hwide : ∀ {size : Nat}, 1 ≤ size →
      (wideSuite data offset size).Meets fun r => FitsAt data offset r.2 :=
    fun hsize => wideSuite_meets _ _ hsize
  refine .ite (fun _ => hone) fun _ => ?_
  refine .ite (fun _ => ?_) fun _ => ?_
  · exact (byteAt_meets data _).bind fun value hvalue =>
      ⟨Nat.le_add_left 1 1, (within_of_getElem? hvalue).2⟩
  refine .ite (fun _ => hwide (by decide)) fun _ => ?_
  refine .ite (fun _ => hwide (by decide)) fun _ => ?_
  refine .ite (fun _ => hwide (by decide)) fun _ => ?_
  refine .ite (fun _ => hone) fun _ => ?_
  refine .ite (fun _ => hwide (by decide)) fun _ => ?_
  refine .ite (fun _ => hwide (by decide)) fun _ => ?_
  refine .ite (fun _ => hwide (by decide)) fun _ => ?_
  refine .ite (fun _ => hwide (by decide)) fun _ => ?_
  exact .err _ _

theorem parseSuites_meets (data : Bytes) (count : Nat) {offset : Nat}
    (h : Within data offset) (selected : Option UInt8) :
    (parseSuites data count offset selected).Meets
      fun r => Within data r.2 := by
  induction count generalizing offset selected with
  | zero => exact h
  | succ count ih =>
      refine (parseSuite_meets data offset).bind fun r hr => ?_
      exact ih ⟨h.1.trans (Nat.le_add_right _ _), hr.2⟩ _

theorem parseArrayHeader_meets {data : Bytes} (hone : Within data 1)
    (first : UInt8) :
    (parseArrayHeader data first).Meets fun r => Within data r.2 := by
  unfold parseArrayHeader
  split
  · exact hone
  split
  · exact (byteAt_meets data 1).bind fun count hcount =>
      within_of_getElem? hcount
  · exact .err _ _

theorem parseSuitesI_meets (data : Bytes) :
    (parseSuitesI data).Meets fun r => Within data r.2 := by
  refine (byteAt_meets data 0).bind fun first hfirst => ?_
  have hone := within_of_getElem? hfirst
  split
  · exact hone
  split
  · exact (byteAt_meets data 1).bind fun value hvalue =>
      within_of_getElem? hvalue
  refine (parseArrayHeader_meets hone first).bind fun header hheader => ?_
  refine (Outcome.Meets.failIf _ _).bind fun _ _ => ?_
  refine (parseSuites_meets data _ hheader _).bind fun r hr => ?_
  exact (Outcome.Meets.okOr _ _).bind fun _ _ => hr

theorem parseSuitesR_meets (data : Bytes) :
    (parseSuitesR data).Meets (Within data) := by
  refine (byteAt_meets data 0).bind fun first hfirst => ?_
  have hone := within_of_getElem? hfirst
  split
  · exact hone
  split
  · exact (Outcome.Meets.failIf _ _).bind fun _ hlen =>
      within_of_not_lt (by decide) hlen
  split
  · exact (Outcome.Meets.failIf _ _).bind fun _ hlen =>
      within_of_not_lt (Nat.le_add_right _ _) hlen
  split
  · exact (byteAt_meets data 1).bind fun count _ =>
      (Outcome.Meets.failIf _ _).bind fun _ hlen =>
        within_of_not_lt (by omega) hlen
  · exact .err _ _

end Oscore.Edhoc
