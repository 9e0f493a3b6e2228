/-
The body grammar of CoAP (RFC 7252, Section 3.1): a run of options, each with
its number as a delta to the one before, then the payload behind a marker byte.
Deltas and lengths stand in a nibble or spill into one or two further bytes.
-/
import Mathlib.Data.List.Basic
import Mathlib.Tactic

namespace Coap

/-- The largest number the two-byte form of a field holds. -/
abbrev fieldMax : Nat := 65804

/-- The largest option number. -/
abbrev numberMax : Nat := 65535

/-- What stands in the header for a delta or a length. -/
def nibble (n : Nat) : Nat :=
  if n ≤ 12 then n else if n ≤ 268 then 13 else 14

/-- The bytes behind the header that complete a delta or a length. -/
def extension (n : Nat) : List UInt8 :=
  if n ≤ 12 then []
  else if n ≤ 268 then [UInt8.ofNat (n - 13)]
  else [UInt8.ofNat ((n - 269) / 256), UInt8.ofNat ((n - 269) % 256)]

structure Opt where
  delta : Nat
  value : List UInt8
deriving DecidableEq

namespace Opt

def header (o : Opt) : UInt8 :=
  UInt8.ofNat (16 * nibble o.delta + nibble o.value.length)

/-- Everything behind the header. -/
def tail (o : Opt) : List UInt8 :=
  extension o.delta ++ (extension o.value.length ++ o.value)

def encode (o : Opt) : List UInt8 := o.header :: o.tail

end Opt

def encode (opts : List Opt) : List UInt8 := opts.flatMap Opt.encode

/-- The number of the last option. -/
def span (opts : List Opt) : Nat := (opts.map Opt.delta).sum

/-- Options that may stand behind an option with the given number. -/
structure Legal (number : Nat) (opts : List Opt) : Prop where
  span_le : number + span opts ≤ numberMax
  value_le : ∀ o ∈ opts, o.value.length ≤ fieldMax

/-- Options, and the payload behind its marker unless it is empty. -/
def body (opts : List Opt) (payload : List UInt8) : List UInt8 :=
  encode opts ++ if payload = [] then [] else 0xFF :: payload

@[simp]
theorem encode_nil : encode [] = [] := rfl

@[simp]
theorem encode_cons (o : Opt) (opts : List Opt) :
    encode (o :: opts) = o.encode ++ encode opts := rfl

@[simp]
theorem span_nil : span [] = 0 := rfl

@[simp]
theorem span_cons (o : Opt) (opts : List Opt) :
    span (o :: opts) = o.delta + span opts := rfl

theorem legal_nil {number : Nat} (h : number ≤ numberMax) :
    Legal number [] :=
  ⟨h, fun _ hmem => absurd hmem List.not_mem_nil⟩

theorem legal_cons {number : Nat} {o : Opt} {opts : List Opt} :
    Legal number (o :: opts) ↔
      o.value.length ≤ fieldMax ∧ Legal (number + o.delta) opts := by
  constructor
  · intro h
    have hspan := h.span_le
    rw [span_cons, ← Nat.add_assoc] at hspan
    exact ⟨h.value_le o List.mem_cons_self, hspan,
      fun o' hmem => h.value_le o' (List.mem_cons_of_mem o hmem)⟩
  · rintro ⟨hvalue, hrest⟩
    refine ⟨?_, ?_⟩
    · rw [span_cons, ← Nat.add_assoc]
      exact hrest.span_le
    · intro o' hmem
      rcases List.mem_cons.mp hmem with rfl | hmem
      · exact hvalue
      · exact hrest.value_le o' hmem

/-- The three forms of a delta or a length. -/
theorem field_forms (n : Nat) :
    (n ≤ 12 ∧ nibble n = n ∧ extension n = []) ∨
      ((13 ≤ n ∧ n ≤ 268) ∧ nibble n = 13 ∧
        extension n = [UInt8.ofNat (n - 13)]) ∨
      (269 ≤ n ∧ nibble n = 14 ∧
        extension n = [UInt8.ofNat ((n - 269) / 256),
          UInt8.ofNat ((n - 269) % 256)]) := by
  unfold nibble extension
  by_cases h12 : n ≤ 12
  · exact Or.inl ⟨h12, if_pos h12, if_pos h12⟩
  by_cases h268 : n ≤ 268
  · refine Or.inr (Or.inl ⟨⟨by omega, h268⟩, ?_, ?_⟩)
    · rw [if_neg h12, if_pos h268]
    · rw [if_neg h12, if_pos h268]
  · refine Or.inr (Or.inr ⟨by omega, ?_, ?_⟩)
    · rw [if_neg h12, if_neg h268]
    · rw [if_neg h12, if_neg h268]

theorem nibble_le (n : Nat) : nibble n ≤ 14 := by
  rcases field_forms n with ⟨h, hn, -⟩ | ⟨-, hn, -⟩ | ⟨-, hn, -⟩ <;>
    rw [hn] <;> omega

/-! The header byte. -/

theorem Opt.toNat_header (o : Opt) :
    o.header.toNat = 16 * nibble o.delta + nibble o.value.length := by
  have hdelta := nibble_le o.delta
  have hlength := nibble_le o.value.length
  rw [Opt.header, UInt8.toNat_ofNat']
  omega

theorem toNat_highNibble (byte : UInt8) :
    (byte >>> 4).toNat = byte.toNat / 16 := by
  rw [UInt8.toNat_shiftRight, Nat.shiftRight_eq_div_pow]
  rfl

theorem toNat_lowNibble (byte : UInt8) :
    (byte &&& 0x0f).toNat = byte.toNat % 16 := by
  rw [UInt8.toNat_and]
  exact Nat.and_two_pow_sub_one_eq_mod byte.toNat 4

/-- A header is the one of an option when both its nibbles are. -/
theorem Opt.header_eq_iff {o : Opt} {byte : UInt8} :
    byte = o.header ↔ (byte >>> 4).toNat = nibble o.delta ∧
      (byte &&& 0x0f).toNat = nibble o.value.length := by
  have hdelta := nibble_le o.delta
  have hlength := nibble_le o.value.length
  rw [← UInt8.toNat_inj, Opt.toNat_header, toNat_highNibble, toNat_lowNibble]
  omega

/-- No option starts like a payload marker. -/
theorem Opt.header_ne_marker (o : Opt) : o.header ≠ 0xFF := by
  intro h
  have hdelta := nibble_le o.delta
  have hlength := nibble_le o.value.length
  have hbyte := congrArg UInt8.toNat h
  rw [Opt.toNat_header] at hbyte
  have hmarker : (0xFF : UInt8).toNat = 255 := rfl
  omega

/-! Prefixes. -/

theorem append_prefix_iff {xs ys zs : List UInt8} :
    xs ++ ys <+: zs ↔ xs <+: zs ∧ ys <+: zs.drop xs.length := by
  constructor
  · rintro ⟨rest, rfl⟩
    rw [List.append_assoc, List.drop_left]
    exact ⟨List.prefix_append _ _, List.prefix_append _ _⟩
  · rintro ⟨⟨rest, rfl⟩, hys⟩
    rw [List.drop_left] at hys
    obtain ⟨rest', rfl⟩ := hys
    exact ⟨rest', List.append_assoc _ _ _⟩

/-- The part of a string that a prefix leaves. -/
theorem drop_of_prefix {xs data : List UInt8} {pos : Nat}
    (h : xs <+: data.drop pos) :
    data.drop pos = xs ++ data.drop (pos + xs.length) := by
  obtain ⟨rest, hrest⟩ := h
  have hdrop := congrArg (List.drop xs.length) hrest
  rw [List.drop_left, List.drop_drop] at hdrop
  rw [← hdrop, hrest]

/-! Uniqueness. -/

theorem extension_delimits {m n : Nat} (hm : m ≤ fieldMax)
    (hn : n ≤ fieldMax) (hnibble : nibble m = nibble n) {s t : List UInt8}
    (h : extension m ++ s = extension n ++ t) : m = n ∧ s = t := by
  simp only [fieldMax] at hm hn
  rcases field_forms m with ⟨hm', em, xm⟩ | ⟨hm', em, xm⟩ | ⟨hm', em, xm⟩ <;>
    rcases field_forms n with ⟨hn', en, xn⟩ | ⟨hn', en, xn⟩ | ⟨hn', en, xn⟩ <;>
    rw [em, en] at hnibble <;> rw [xm, xn] at h
  case inl.inl => exact ⟨hnibble, h⟩
  case inr.inl.inr.inl =>
    have hbyte := congrArg UInt8.toNat (List.cons.inj h).1
    rw [UInt8.toNat_ofNat', UInt8.toNat_ofNat'] at hbyte
    exact ⟨by omega, (List.cons.inj h).2⟩
  case inr.inr.inr.inr =>
    simp only [List.cons_append, List.nil_append, List.cons.injEq] at h
    have hhigh := congrArg UInt8.toNat h.1
    have hlow := congrArg UInt8.toNat h.2.1
    rw [UInt8.toNat_ofNat', UInt8.toNat_ofNat'] at hhigh hlow
    exact ⟨by omega, h.2.2⟩
  all_goals omega

/-- An option can be told apart from what follows it. -/
theorem Opt.encode_delimits {o o' : Opt} (hdelta : o.delta ≤ fieldMax)
    (hdelta' : o'.delta ≤ fieldMax) (hvalue : o.value.length ≤ fieldMax)
    (hvalue' : o'.value.length ≤ fieldMax) {s t : List UInt8}
    (h : o.encode ++ s = o'.encode ++ t) : o = o' ∧ s = t := by
  simp only [Opt.encode, Opt.tail, List.cons_append, List.cons.injEq,
    List.append_assoc] at h
  obtain ⟨hheader, h⟩ := h
  obtain ⟨hhigh, hlow⟩ := Opt.header_eq_iff.mp hheader
  obtain ⟨hhigh', hlow'⟩ := Opt.header_eq_iff.mp (Eq.refl o.header)
  obtain ⟨hd, h⟩ := extension_delimits hdelta hdelta'
    (hhigh'.symm.trans hhigh) h
  obtain ⟨hl, h⟩ := extension_delimits hvalue hvalue' (hlow'.symm.trans hlow) h
  obtain ⟨hv, hrest⟩ := List.append_inj h hl
  refine ⟨?_, hrest⟩
  cases o
  cases o'
  cases hd
  cases hv
  rfl

theorem Legal.delta_le {number : Nat} {o : Opt} {opts : List Opt}
    (h : Legal number (o :: opts)) : o.delta ≤ fieldMax := by
  have hspan := h.span_le
  rw [span_cons] at hspan
  simp only [numberMax, fieldMax] at hspan ⊢
  omega

/-- A body has one reading. -/
theorem body_injective {number : Nat} {opts opts' : List Opt}
    {payload payload' : List UInt8} (hlegal : Legal number opts)
    (hlegal' : Legal number opts')
    (h : body opts payload = body opts' payload') :
    opts = opts' ∧ payload = payload' := by
  have hmarked {xs ys : List UInt8} : (if xs = [] then [] else 0xFF :: xs) =
      (if ys = [] then [] else (0xFF : UInt8) :: ys) ↔ xs = ys := by
    cases xs <;> cases ys <;> simp
  have hheader (o : Opt) (rest payload : List UInt8) :
      o.encode ++ rest ≠ if payload = [] then [] else 0xFF :: payload := by
    intro heq
    rw [Opt.encode, List.cons_append] at heq
    split at heq
    · cases heq
    · exact o.header_ne_marker (List.cons.inj heq).1
  induction opts generalizing number opts' with
  | nil =>
      cases opts' with
      | nil => exact ⟨rfl, hmarked.mp h⟩
      | cons o' opts' =>
          rw [body, body, encode_cons, List.append_assoc] at h
          exact absurd h.symm (hheader o' _ payload)
  | cons o opts ih =>
      cases opts' with
      | nil =>
          rw [body, body, encode_cons, List.append_assoc] at h
          exact absurd h (hheader o _ payload')
      | cons o' opts' =>
          obtain ⟨hvalue, hrest⟩ := legal_cons.mp hlegal
          obtain ⟨hvalue', hrest'⟩ := legal_cons.mp hlegal'
          simp only [body, encode_cons, List.append_assoc] at h
          obtain ⟨rfl, hbody⟩ := Opt.encode_delimits hlegal.delta_le
            hlegal'.delta_le hvalue hvalue' h
          obtain ⟨rfl, hpayload⟩ := ih hrest hrest' hbody
          exact ⟨rfl, hpayload⟩

end Coap
