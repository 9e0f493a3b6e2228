/-
Values of the CBOR data model and their deterministic encoding: every head is
as short as its argument allows.  A value tells where it ends, so that equal
bytes are the encoding of one value.
-/
import Oscore.Lib.CborItem

namespace Cbor

/-- The big-endian bytes of a number, in a given width. -/
def beBytes : Nat → Nat → List UInt8
  | 0, _ => []
  | width + 1, n => beBytes width (n / 256) ++ [UInt8.ofNat (n % 256)]

@[simp]
theorem length_beBytes (width n : Nat) : (beBytes width n).length = width := by
  induction width generalizing n with
  | zero => rfl
  | succ width ih => rw [beBytes, List.length_append, ih]; rfl

theorem beNat_beBytes {width n : Nat} (h : n < 256 ^ width) :
    beNat (beBytes width n) = n := by
  induction width generalizing n with
  | zero =>
      have hzero : n = 0 := by omega
      rw [hzero]
      rfl
  | succ width ih =>
      rw [pow_succ] at h
      have hlow : (UInt8.ofNat (n % 256)).toNat = n % 256 := by
        rw [UInt8.toNat_ofNat']
        omega
      rw [beBytes, beNat_snoc, ih (by omega), hlow]
      omega

/-- The arguments a head can hold. -/
abbrev argBound : Nat := 2 ^ 64

/-- The initial byte of a head. -/
def initialByte (major info : Nat) : UInt8 := UInt8.ofNat (major * 32 + info)

/-- The shortest head of a major type with this argument. -/
def headBytes (major n : Nat) : List UInt8 :=
  if n < 24 then [initialByte major n]
  else if n < 2 ^ 8 then initialByte major 24 :: beBytes 1 n
  else if n < 2 ^ 16 then initialByte major 25 :: beBytes 2 n
  else if n < 2 ^ 32 then initialByte major 26 :: beBytes 4 n
  else initialByte major 27 :: beBytes 8 n

theorem toNat_initialByte {major info : Nat} (hmajor : major < 8)
    (hinfo : info < 32) :
    (initialByte major info).toNat / 32 = major ∧
      (initialByte major info).toNat % 32 = info := by
  rw [initialByte, UInt8.toNat_ofNat']
  omega

/-- A head with its argument in `width` bytes. -/
theorem exists_wideHead {major info width n : Nat} (hmajor : major < 8)
    (hinfo : 24 ≤ info ∧ info ≤ 27) (hwidth : width = 2 ^ (info - 24))
    (hn : n < 256 ^ width) :
    ∃ head : Head, head.bytes = initialByte major info :: beBytes width n ∧
      head.major = major ∧ head.arg = n := by
  obtain ⟨hbyte, hlow⟩ := toNat_initialByte hmajor (by omega : info < 32)
  have hlength : (beBytes width n).length =
      2 ^ ((initialByte major info).toNat % 32 - 24) := by
    rw [length_beBytes, hlow, hwidth]
  let head := Head.wide (initialByte major info) (beBytes width n)
    ⟨by omega, by omega, hlength⟩
  have hne : head.rest ≠ [] := by
    intro hnil
    have hzero : width = 0 := by
      rw [← length_beBytes width n]
      exact List.length_eq_zero_iff.mpr hnil
    exact (Nat.two_pow_pos (info - 24)).ne' (hwidth.symm.trans hzero)
  refine ⟨head, rfl, hbyte, ?_⟩
  rw [(Head.arg_of_rest_ne_nil hne).2.2.2]
  exact beNat_beBytes hn

theorem exists_head_headBytes {major n : Nat} (hmajor : major < 8)
    (hn : n < argBound) :
    ∃ head : Head, head.bytes = headBytes major n ∧ head.major = major ∧
      head.arg = n := by
  unfold headBytes
  split
  · rename_i hsmall
    obtain ⟨hbyte, hlow⟩ := toNat_initialByte hmajor (by omega : n < 32)
    refine ⟨.narrow (initialByte major n) (by omega), rfl, hbyte, ?_⟩
    rw [(Head.arg_of_rest_nil rfl).1]
    exact hlow
  split
  · exact exists_wideHead hmajor ⟨by omega, by omega⟩ rfl (by omega)
  split
  · exact exists_wideHead hmajor ⟨by omega, by omega⟩ rfl (by omega)
  split
  · exact exists_wideHead hmajor ⟨by omega, by omega⟩ rfl (by omega)
  · exact exists_wideHead hmajor ⟨by omega, by omega⟩ rfl hn

/-- Heads tell where they end. -/
theorem headBytes_delimits {major major' n n' : Nat} {s t : List UInt8}
    (hmajor : major < 8) (hmajor' : major' < 8) (hn : n < argBound)
    (hn' : n' < argBound)
    (h : headBytes major n ++ s = headBytes major' n' ++ t) :
    major = major' ∧ n = n' ∧ s = t := by
  obtain ⟨head, hbytes, hown, harg⟩ := exists_head_headBytes hmajor hn
  obtain ⟨head', hbytes', hown', harg'⟩ := exists_head_headBytes hmajor' hn'
  rw [← hbytes, ← hbytes'] at h
  obtain ⟨rfl, hst⟩ := Head.delimits h
  exact ⟨hown.symm.trans hown', harg.symm.trans harg', hst⟩

/-- The part of the data model that fixed structures are made of. -/
inductive Value where
  | uint (n : Nat)
  | bytes (string : List UInt8)
  | text (string : List UInt8)
  | array (items : List Value)
  | null

namespace Value

def major : Value → Nat
  | uint _ => 0
  | bytes _ => 2
  | text _ => 3
  | array _ => 4
  | null => 7

def arg : Value → Nat
  | uint n => n
  | bytes string => string.length
  | text string => string.length
  | array items => items.length
  | null => 22

mutual

/-- The deterministic encoding of a value. -/
def encode : Value → List UInt8
  | uint n => headBytes 0 n
  | bytes string => headBytes 2 string.length ++ string
  | text string => headBytes 3 string.length ++ string
  | array items => headBytes 4 items.length ++ encodeAll items
  | null => headBytes 7 22

def encodeAll : List Value → List UInt8
  | [] => []
  | item :: items => encode item ++ encodeAll items

end

mutual

/-- Every argument fits a head. -/
def Fits : Value → Prop
  | uint n => n < argBound
  | bytes string => string.length < argBound
  | text string => string.length < argBound
  | array items => items.length < argBound ∧ FitsAll items
  | null => True

def FitsAll : List Value → Prop
  | [] => True
  | item :: items => Fits item ∧ FitsAll items

end

theorem major_lt (value : Value) : value.major < 8 := by
  cases value <;> simp [major]

theorem arg_lt {value : Value} (h : value.Fits) : value.arg < argBound := by
  cases value with
  | array items => exact h.1
  | null => decide
  | _ => exact h

/-- What follows the head of a value. -/
def tail : Value → List UInt8
  | bytes string => string
  | text string => string
  | array items => encodeAll items
  | _ => []

theorem encode_eq (value : Value) :
    value.encode = headBytes value.major value.arg ++ value.tail := by
  cases value <;> simp [encode, major, arg, tail]

mutual

/-- Values tell where they end. -/
theorem delimits : (a b : Value) → a.Fits → b.Fits → (s t : List UInt8) →
    a.encode ++ s = b.encode ++ t → a = b ∧ s = t := by
  intro a b ha hb s t h
  rw [encode_eq a, encode_eq b, List.append_assoc, List.append_assoc] at h
  obtain ⟨hmajor, harg, h⟩ :=
    headBytes_delimits a.major_lt b.major_lt (arg_lt ha) (arg_lt hb) h
  cases a with
  | uint n =>
      cases b with
      | uint n' => exact ⟨congrArg uint harg, h⟩
      | _ => cases hmajor
  | bytes string =>
      cases b with
      | bytes string' =>
          obtain ⟨hstring, hst⟩ := List.append_inj h harg
          exact ⟨congrArg bytes hstring, hst⟩
      | _ => cases hmajor
  | text string =>
      cases b with
      | text string' =>
          obtain ⟨hstring, hst⟩ := List.append_inj h harg
          exact ⟨congrArg text hstring, hst⟩
      | _ => cases hmajor
  | array items =>
      cases b with
      | array items' =>
          obtain ⟨hitems, hst⟩ :=
            delimitsAll items items' harg ha.2 hb.2 s t h
          exact ⟨congrArg array hitems, hst⟩
      | _ => cases hmajor
  | null =>
      cases b with
      | null => exact ⟨rfl, h⟩
      | _ => cases hmajor

/-- As many values in a row tell where they end. -/
theorem delimitsAll : (as bs : List Value) → as.length = bs.length →
    FitsAll as → FitsAll bs → (s t : List UInt8) →
    encodeAll as ++ s = encodeAll bs ++ t → as = bs ∧ s = t := by
  intro as bs hlength has hbs s t h
  cases as with
  | nil =>
      cases bs with
      | nil => exact ⟨rfl, h⟩
      | cons b bs => cases hlength
  | cons a as =>
      cases bs with
      | nil => cases hlength
      | cons b bs =>
          simp only [encodeAll, List.append_assoc] at h
          obtain ⟨hfirst, hrest⟩ := delimits a b has.1 hbs.1 _ _ h
          obtain ⟨hitems, hst⟩ := delimitsAll as bs (Nat.succ.inj hlength)
            has.2 hbs.2 s t hrest
          exact ⟨by rw [hfirst, hitems], hst⟩

end

/-- Equal bytes encode one value. -/
theorem encode_injective {a b : Value} (ha : a.Fits) (hb : b.Fits)
    (h : a.encode = b.encode) : a = b :=
  (delimits a b ha hb [] [] (congrArg (· ++ []) h)).1

end Value

end Cbor
