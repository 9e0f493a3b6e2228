/-
The 40-bit sender sequence number of `seqnum.rs` and its Partial IV codec.  The
bound is part of the type: every constructor of the source checks it.
-/
import Oscore.Lib.Rust
import Mathlib.Tactic

namespace Oscore

open Rust

/-- `OscoreSeqNum::MAX` -/
abbrev seqMax : Nat := 2 ^ 40 - 1

structure OscoreSeqNum where
  get : Nat
  le_max : get ≤ seqMax
deriving DecidableEq

namespace OscoreSeqNum

@[ext]
theorem ext {a b : OscoreSeqNum} (h : a.get = b.get) : a = b := by
  cases a
  cases b
  cases h
  rfl

/-- `Default::default()` -/
def default : OscoreSeqNum := ⟨0, Nat.zero_le _⟩

def new (value : Nat) : Option OscoreSeqNum :=
  if h : value ≤ seqMax then some ⟨value, h⟩ else none

def increment (seq : OscoreSeqNum) : Option OscoreSeqNum :=
  new (seq.get + 1)

/-- Increment in place, returning the old value; the cell keeps its value when
the increment fails. -/
def fetchIncrement (cell : OscoreSeqNum) : Option OscoreSeqNum × OscoreSeqNum :=
  match cell.increment with
  | some next => (some cell, next)
  | none => (none, cell)

@[simp]
theorem get_default : default.get = 0 := rfl

theorem new_eq_some {value : Nat} {seq : OscoreSeqNum} :
    new value = some seq ↔ seq.get = value := by
  unfold new
  split
  · constructor
    · rintro ⟨rfl⟩
      rfl
    · intro h
      exact congrArg some (OscoreSeqNum.ext h.symm)
  · rename_i h
    simp only [reduceCtorEq, false_iff]
    intro heq
    exact h (heq ▸ seq.le_max)

@[simp]
theorem new_get (seq : OscoreSeqNum) : new seq.get = some seq :=
  new_eq_some.mpr rfl

theorem new_eq_none {value : Nat} : new value = none ↔ seqMax < value := by
  simp [new]

theorem increment_eq_some {seq next : OscoreSeqNum} :
    seq.increment = some next ↔ next.get = seq.get + 1 :=
  new_eq_some

theorem increment_eq_none {seq : OscoreSeqNum} :
    seq.increment = none ↔ seq.get = seqMax := by
  have := seq.le_max
  rw [increment, new_eq_none]
  omega

theorem fetchIncrement_fst_eq_some {cell seq : OscoreSeqNum} :
    cell.fetchIncrement.1 = some seq ↔ seq = cell ∧ cell.get < seqMax := by
  have hle := cell.le_max
  cases h : cell.increment with
  | none =>
      have := increment_eq_none.mp h
      simp only [fetchIncrement, h, reduceCtorEq, false_iff, not_and]
      omega
  | some next =>
      have := increment_eq_some.mp h
      have := next.le_max
      simp only [fetchIncrement, h, Option.some.injEq]
      constructor
      · rintro rfl
        exact ⟨rfl, by omega⟩
      · rintro ⟨rfl, -⟩
        rfl

/-- A failed increment leaves the cell alone. -/
theorem fetchIncrement_snd_of_none {cell : OscoreSeqNum}
    (h : cell.fetchIncrement.1 = none) : cell.fetchIncrement.2 = cell := by
  cases hnext : cell.increment with
  | none => simp [fetchIncrement, hnext]
  | some next => simp [fetchIncrement, hnext] at h

/-! The Partial IV codec. -/

/-- The `while tmp > 0` loop counting the bytes of a sequence number. -/
def countBytes (tmp : Nat) : Nat :=
  if tmp > 0 then countBytes (tmp >>> 8) + 1 else 0
termination_by tmp
decreasing_by
  rw [Nat.shiftRight_eq_div_pow]
  omega

/-- The `for i in 0..len` loop writing `piv[len - 1 - i]`: the bytes already
written stand behind the next one. -/
def fillBytes : Nat → Nat → Bytes → Bytes
  | 0, _, written => written
  | len + 1, s, written =>
      fillBytes len (s >>> 8) (UInt8.ofNat (s &&& 0xFF) :: written)

/-- Encode as minimal big-endian PIV: `piv[..len]` for the returned `len`. -/
def encodePiv (seq : OscoreSeqNum) : Bytes :=
  if seq.get = 0 then [0]
  else fillBytes (countBytes seq.get) seq.get []

def fromPiv (piv : Bytes) : Option OscoreSeqNum :=
  if piv = [] ∨ piv.length > 5 ∨ (piv.length > 1 ∧ piv.head? = some 0) then
    none
  else
    new (piv.foldl (fun acc byte => (acc <<< 8) ||| byte.toNat) 0)

/-- The big-endian value of a byte string. -/
def bigEndian (bytes : Bytes) : Nat :=
  bytes.foldl (fun acc byte => acc * 256 + byte.toNat) 0

theorem shiftLeft_or_byte (acc : Nat) (byte : UInt8) :
    (acc <<< 8) ||| byte.toNat = acc * 256 + byte.toNat := by
  rw [Nat.shiftLeft_eq, show (2 : Nat) ^ 8 = 256 from rfl, Nat.mul_comm]
  exact (Nat.two_pow_add_eq_or_of_lt (i := 8) byte.toNat_lt acc).symm

theorem fold_eq_bigEndian (piv : Bytes) :
    piv.foldl (fun acc byte => (acc <<< 8) ||| byte.toNat) 0 =
      bigEndian piv := by
  have hstep : (fun (acc : Nat) (byte : UInt8) => (acc <<< 8) ||| byte.toNat) =
      fun acc byte => acc * 256 + byte.toNat := by
    funext acc byte
    exact shiftLeft_or_byte acc byte
  rw [hstep, bigEndian]

@[simp]
theorem bigEndian_nil : bigEndian [] = 0 := rfl

theorem bigEndian_append_singleton (bytes : Bytes) (byte : UInt8) :
    bigEndian (bytes ++ [byte]) = bigEndian bytes * 256 + byte.toNat := by
  simp [bigEndian]

theorem bigEndian_zero_cons (bytes : Bytes) :
    bigEndian (0 :: bytes) = bigEndian bytes := by
  simp [bigEndian]

theorem bigEndian_lt (bytes : Bytes) : bigEndian bytes < 256 ^ bytes.length := by
  induction bytes using List.reverseRecOn with
  | nil => simp
  | append_singleton bytes byte ih =>
      have hbyte := byte.toNat_lt
      rw [bigEndian_append_singleton, List.length_append,
        List.length_singleton, Nat.pow_succ]
      omega

theorem fillBytes_eq_append (len s : Nat) (written : Bytes) :
    fillBytes len s written = fillBytes len s [] ++ written := by
  induction len generalizing s written with
  | zero => rfl
  | succ len ih =>
      rw [fillBytes, fillBytes, ih, ih (s >>> 8) [_], List.append_assoc]
      rfl

theorem fillBytes_succ (len s : Nat) :
    fillBytes (len + 1) s [] =
      fillBytes len (s / 256) [] ++ [UInt8.ofNat (s % 256)] := by
  rw [fillBytes, fillBytes_eq_append, Nat.shiftRight_eq_div_pow,
    show (0xFF : Nat) = 2 ^ 8 - 1 from rfl, Nat.and_two_pow_sub_one_eq_mod]

@[simp]
theorem length_fillBytes (len s : Nat) : (fillBytes len s []).length = len := by
  induction len generalizing s with
  | zero => rfl
  | succ len ih => rw [fillBytes_succ, List.length_append, ih]; rfl

theorem bigEndian_fillBytes (len s : Nat) :
    bigEndian (fillBytes len s []) = s % 256 ^ len := by
  induction len generalizing s with
  | zero => simp [fillBytes, Nat.mod_one]
  | succ len ih =>
      have hbyte : (UInt8.ofNat (s % 256)).toNat = s % 256 := by
        simp [UInt8.toNat_ofNat']
      rw [fillBytes_succ, bigEndian_append_singleton, ih, hbyte, Nat.pow_succ,
        Nat.mul_comm (256 ^ len) 256, Nat.mod_mul]
      ring

theorem countBytes_of_pos {s : Nat} (hs : 0 < s) :
    countBytes s = countBytes (s / 256) + 1 := by
  rw [countBytes, if_pos hs, Nat.shiftRight_eq_div_pow]

theorem lt_pow_countBytes (s : Nat) : s < 256 ^ countBytes s := by
  induction s using Nat.strong_induction_on with
  | h s ih =>
      by_cases hs : 0 < s
      · have hdiv := ih (s / 256) (Nat.div_lt_self hs (by norm_num))
        rw [countBytes_of_pos hs, Nat.pow_succ]
        omega
      · have : s = 0 := by omega
        subst this
        exact Nat.pow_pos (by norm_num)

theorem pow_countBytes_le {s : Nat} (hs : 0 < s) :
    256 ^ (countBytes s - 1) ≤ s := by
  induction s using Nat.strong_induction_on with
  | h s ih =>
      rw [countBytes_of_pos hs, Nat.add_sub_cancel]
      by_cases hdiv : 0 < s / 256
      · have hle := ih (s / 256) (Nat.div_lt_self hs (by norm_num)) hdiv
        have hsucc : countBytes (s / 256) =
            countBytes (s / 256) - 1 + 1 := by
          rw [countBytes_of_pos hdiv]
          rfl
        rw [hsucc, Nat.pow_succ]
        omega
      · have hzero : s / 256 = 0 := by omega
        rw [hzero, countBytes]
        exact Nat.succ_le_of_lt hs

theorem countBytes_le_five (seq : OscoreSeqNum) : countBytes seq.get ≤ 5 := by
  by_contra hlt
  have hpos : 0 < seq.get := by
    by_contra hzero
    have : seq.get = 0 := by omega
    rw [this, countBytes] at hlt
    simp at hlt
  have hle := pow_countBytes_le hpos
  have hpow : (256 : Nat) ^ 5 ≤ 256 ^ (countBytes seq.get - 1) :=
    Nat.pow_le_pow_right (by norm_num) (by omega)
  have := seq.le_max
  norm_num at *
  omega

theorem encodePiv_ne_nil (seq : OscoreSeqNum) : seq.encodePiv ≠ [] := by
  unfold encodePiv
  split
  · simp
  · rename_i hne
    intro hnil
    have hlen := congrArg List.length hnil
    rw [length_fillBytes, countBytes_of_pos (Nat.pos_of_ne_zero hne)] at hlen
    simp at hlen

theorem length_encodePiv_le (seq : OscoreSeqNum) :
    seq.encodePiv.length ≤ 5 := by
  unfold encodePiv
  split
  · simp
  · rw [length_fillBytes]
    exact countBytes_le_five seq

theorem bigEndian_encodePiv (seq : OscoreSeqNum) :
    bigEndian seq.encodePiv = seq.get := by
  unfold encodePiv
  split
  · rename_i hzero
    rw [hzero]
    rfl
  · rw [bigEndian_fillBytes, Nat.mod_eq_of_lt (lt_pow_countBytes _)]

/-- A PIV of more than one byte has no leading zero. -/
theorem encodePiv_head_ne_zero (seq : OscoreSeqNum)
    (hlen : seq.encodePiv.length > 1) : seq.encodePiv.head? ≠ some 0 := by
  intro hhead
  obtain ⟨tail, htail⟩ : ∃ tail, seq.encodePiv = 0 :: tail := by
    cases hpiv : seq.encodePiv with
    | nil => simp [hpiv] at hhead
    | cons first tail => exact ⟨tail, by simpa [hpiv] using hhead⟩
  have hpos : seq.get ≠ 0 := by
    intro hzero
    simp [encodePiv, hzero] at hlen
  have hcount : tail.length = countBytes seq.get - 1 := by
    have hlength := congrArg List.length htail
    rw [encodePiv, if_neg hpos, length_fillBytes, List.length_cons] at hlength
    omega
  have hvalue := bigEndian_encodePiv seq
  rw [htail, bigEndian_zero_cons] at hvalue
  have hlt := bigEndian_lt tail
  rw [hvalue, hcount] at hlt
  exact absurd (pow_countBytes_le (Nat.pos_of_ne_zero hpos)) (by omega)

@[simp]
theorem fromPiv_encodePiv (seq : OscoreSeqNum) :
    fromPiv seq.encodePiv = some seq := by
  have hlong := length_encodePiv_le seq
  have hhead := encodePiv_head_ne_zero seq
  rw [fromPiv, if_neg, fold_eq_bigEndian, bigEndian_encodePiv, new_get]
  rintro (hnil | hlen | ⟨hlen, hzero⟩)
  · exact encodePiv_ne_nil seq hnil
  · omega
  · exact hhead hlen hzero

theorem encodePiv_injective : Function.Injective encodePiv := by
  intro a b h
  have heq := congrArg fromPiv h
  simpa using heq

theorem length_of_fromPiv {piv : Bytes} {seq : OscoreSeqNum}
    (h : fromPiv piv = some seq) : piv ≠ [] ∧ piv.length ≤ 5 := by
  unfold fromPiv at h
  split at h
  · simp at h
  · rename_i hok
    simp only [not_or] at hok
    exact ⟨hok.1, by omega⟩

/-! Every accepted Partial IV is the one its sequence is written as. -/

theorem get_of_fromPiv {piv : Bytes} {seq : OscoreSeqNum}
    (h : fromPiv piv = some seq) : seq.get = bigEndian piv := by
  unfold fromPiv at h
  split at h
  · cases h
  · rw [fold_eq_bigEndian] at h
    exact new_eq_some.mp h

theorem fillBytes_bigEndian (bytes : Bytes) :
    fillBytes bytes.length (bigEndian bytes) [] = bytes := by
  induction bytes using List.reverseRecOn with
  | nil => rfl
  | append_singleton bytes byte ih =>
      have hbyte := byte.toNat_lt
      have hhigh : (bigEndian bytes * 256 + byte.toNat) / 256 =
          bigEndian bytes := by omega
      have hlow : (bigEndian bytes * 256 + byte.toNat) % 256 = byte.toNat := by
        omega
      rw [List.length_append, List.length_singleton, fillBytes_succ,
        bigEndian_append_singleton, hhigh, hlow, ih, UInt8.ofNat_toNat]

theorem head?_append_singleton {bytes : Bytes} {byte : UInt8}
    (h : (bytes ++ [byte]).head? ≠ some 0) :
    bytes.head? ≠ some 0 ∧ (bytes = [] → byte ≠ 0) := by
  cases bytes with
  | nil => simpa using h
  | cons first rest => simpa using h

/-- Without a zero in front, the count of bytes is the length. -/
theorem countBytes_bigEndian {bytes : Bytes} (h : bytes.head? ≠ some 0) :
    countBytes (bigEndian bytes) = bytes.length := by
  induction bytes using List.reverseRecOn with
  | nil => simp [countBytes]
  | append_singleton bytes byte ih =>
      have hbyte := byte.toNat_lt
      obtain ⟨hhead, hnil⟩ := head?_append_singleton h
      have hcount := ih hhead
      have hpos : 0 < bigEndian bytes * 256 + byte.toNat := by
        by_cases hempty : bytes = []
        · have hne : byte.toNat ≠ 0 := fun hzero =>
            hnil hempty (UInt8.toNat_inj.mp hzero)
          omega
        · have hlen := List.length_pos_iff.mpr hempty
          by_contra hzero
          have hvalue : bigEndian bytes = 0 := by omega
          rw [hvalue, countBytes] at hcount
          simp only [gt_iff_lt, Nat.lt_irrefl, ↓reduceIte] at hcount
          omega
      have hhigh : (bigEndian bytes * 256 + byte.toNat) / 256 =
          bigEndian bytes := by omega
      rw [bigEndian_append_singleton, countBytes_of_pos hpos, hhigh, hcount,
        List.length_append, List.length_singleton]

theorem encodePiv_of_fromPiv {piv : Bytes} {seq : OscoreSeqNum}
    (h : fromPiv piv = some seq) : seq.encodePiv = piv := by
  have hvalue := get_of_fromPiv h
  obtain ⟨hne, hlong⟩ := length_of_fromPiv h
  have hminimal : ¬ (piv.length > 1 ∧ piv.head? = some 0) := by
    intro hzero
    rw [fromPiv, if_pos (Or.inr (Or.inr hzero))] at h
    cases h
  by_cases hhead : piv.head? = some 0
  · -- a zero in front stands alone
    obtain ⟨tail, rfl⟩ : ∃ tail, piv = 0 :: tail := by
      cases piv with
      | nil => exact absurd rfl hne
      | cons first tail => exact ⟨tail, by simpa using hhead⟩
    have htail : tail = [] := by
      by_contra htail
      have hpos := List.length_pos_iff.mpr htail
      exact hminimal ⟨by rw [List.length_cons]; omega, rfl⟩
    subst htail
    exact if_pos hvalue
  · have hcount := countBytes_bigEndian hhead
    have hpos : seq.get ≠ 0 := by
      intro hzero
      rw [← hvalue, hzero, countBytes] at hcount
      exact hne (List.length_eq_zero_iff.mp hcount.symm)
    rw [encodePiv, if_neg hpos, hvalue, hcount, fillBytes_bigEndian]

theorem fromPiv_eq_some {piv : Bytes} {seq : OscoreSeqNum} :
    fromPiv piv = some seq ↔ piv = seq.encodePiv := by
  constructor
  · intro h
    exact (encodePiv_of_fromPiv h).symm
  · rintro rfl
    exact fromPiv_encodePiv seq

/-- The codec is a bijection between the sequences and the minimal strings. -/
theorem pivCodec_bijective :
    (∀ seq : OscoreSeqNum, 1 ≤ seq.encodePiv.length ∧
      seq.encodePiv.length ≤ 5 ∧ fromPiv seq.encodePiv = some seq) ∧
    (∀ (piv : Bytes) (seq : OscoreSeqNum),
      fromPiv piv = some seq ↔ piv = seq.encodePiv) ∧
    (∀ seq : OscoreSeqNum,
      ¬ (seq.encodePiv.length > 1 ∧ seq.encodePiv.head? = some 0)) ∧
    Function.Injective encodePiv := by
  refine ⟨fun seq => ⟨?_, length_encodePiv_le seq, fromPiv_encodePiv seq⟩,
    fun _ _ => fromPiv_eq_some, fun seq => ?_, encodePiv_injective⟩
  · exact List.length_pos_iff.mpr (encodePiv_ne_nil seq)
  · rintro ⟨hlen, hzero⟩
    exact encodePiv_head_ne_zero seq hlen hzero

end OscoreSeqNum

end Oscore
