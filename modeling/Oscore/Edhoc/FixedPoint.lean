/-
The canonical ID_CRED is a fixed point of its parser.  No part of the parser
looks behind the item it reads, so that what a map was read from is read again
as the same map, and each compact form is rewritten into such a map.
-/
import Oscore.Edhoc.Credential
import Oscore.Lib.Local

namespace Oscore.Edhoc

open Rust

variable {N : Nat}

/-! The parts of the parser are local. -/

section Parts

variable {data data' : Bytes} {n : Nat}

theorem byteAt_same (h : SameTo n data data') {i : Nat} (hi : i < n) :
    byteAt data' i = byteAt data i := by
  rw [byteAt_eq, byteAt_eq, h.getElem? hi]

/-- Reading a byte that the result reaches over. -/
theorem carries_byteAt {α : Type} {size : α → Nat} {i : Nat}
    {f g : UInt8 → Outcome EdhocError α}
    (hover : Returns (byteAt data i >>= f) fun a => i < size a)
    (hf : ∀ byte, byteAt data i = .ok byte →
      Carries (fun a => SameTo (size a) data data') (f byte) (g byte)) :
    Carries (fun a => SameTo (size a) data data') (byteAt data i >>= f)
      (byteAt data' i >>= g) := by
  apply Carries.bind
  · intro byte a hbyte ha hsame
    have hlt := hover a (Outcome.bind_eq_ok.mpr ⟨byte, hbyte, ha⟩)
    rw [byteAt_same hsame hlt, hbyte]
  · exact hf

theorem measured_eq_ok {size : Nat} :
    measured data size = .ok n ↔ n = size ∧ size ≤ data.length := by
  simp only [measured, Outcome.bind_eq_ok, failIf_eq_ok, exists_const,
    Nat.not_lt, Outcome.pure_eq_ok, Except.ok.injEq]
  rw [and_comm, eq_comm]

theorem measured_carries (data data' : Bytes) (size : Nat) :
    Carries (fun n => SameTo n data data') (measured data size)
      (measured data' size) := by
  intro n hn hsame
  obtain ⟨rfl, hle⟩ := measured_eq_ok.mp hn
  exact measured_eq_ok.mpr ⟨rfl, hsame.le_right⟩

theorem takeItem_carries (data data' : Bytes) (first len : Nat) :
    Carries (fun item => SameTo item.2 data data') (takeItem data first len)
      (takeItem data' first len) := by
  rintro ⟨value, n⟩ hitem hsame
  obtain ⟨rfl, hle, rfl⟩ := takeItem_eq_ok.mp hitem
  have hvalue : (data.drop first).take len = (data'.drop first).take len :=
    hsame.drop.take_eq
  exact takeItem_eq_ok.mpr ⟨rfl, hsame.le_right, hvalue⟩

theorem tryParseCborInt_same {val : Int}
    (h : tryParseCborInt data = some (val, n)) (hsame : SameTo n data data') :
    tryParseCborInt data' = some (val, n) := by
  obtain ⟨item, rest, rfl, hform, rfl⟩ := tryParseCborInt_eq_some.mp h
  have hdata := List.take_append_drop item.length data'
  rw [← hsame.take_eq, List.take_left] at hdata
  exact tryParseCborInt_eq_some.mpr ⟨item, _, hdata.symm, hform, rfl⟩

/-- What is read as an integer is skipped as one. -/
theorem skipCborValue_of_tryParse {val : Int}
    (h : tryParseCborInt data = some (val, n)) : skipCborValue data = .ok n := by
  have hmeasured : measured data n = .ok n :=
    measured_eq_ok.mpr ⟨rfl, (tryParseCborInt_within h).2⟩
  obtain ⟨item, rest, rfl, hform, rfl⟩ := tryParseCborInt_eq_some.mp h
  cases hform with
  | small first hsmall => exact if_pos hsmall
  | byte => exact hmeasured
  | word => exact hmeasured
  | negative first hneg =>
      obtain ⟨hsmall, hne, hne'⟩ := not_unsigned_of_negative hneg
      exact (if_neg hsmall).trans ((if_neg hne).trans
        ((if_neg hne').trans (if_pos hneg)))
  | negativeByte => exact hmeasured
  | negativeWord => exact hmeasured

theorem takeItem_returns (data : Bytes) {first i : Nat} (len : Nat)
    (hi : i < first) : Returns (takeItem data first len) (i < ·.2) := by
  intro item h
  have hn := (takeItem_eq_ok.mp h).1
  omega

/-- A byte string behind a length of one byte. -/
theorem carries_byteString (check : UInt8 → Prop) [DecidablePred check] :
    Carries (fun item => SameTo item.2 data data')
      (do
        let len ← byteAt data 1
        failIf (check len) .invalidMessage
        takeItem data 2 len.toNat)
      (do
        let len ← byteAt data' 1
        failIf (check len) .invalidMessage
        takeItem data' 2 len.toNat) := by
  apply carries_byteAt
  · exact .bind fun _ => .bind fun _ => takeItem_returns _ _ Nat.one_lt_two
  · exact fun _ _ => .bind_same _ fun _ _ => takeItem_carries _ _ _ _

/-- A byte string behind a length of two bytes. -/
theorem carries_wordString (check : Nat → Prop) [DecidablePred check] :
    Carries (fun item => SameTo item.2 data data')
      (do
        let high ← byteAt data 1
        let low ← byteAt data 2
        let len := high.toNat * 256 + low.toNat
        failIf (check len) .invalidMessage
        takeItem data 3 len)
      (do
        let high ← byteAt data' 1
        let low ← byteAt data' 2
        let len := high.toNat * 256 + low.toNat
        failIf (check len) .invalidMessage
        takeItem data' 3 len) := by
  apply carries_byteAt
  · exact .bind fun _ => .bind fun _ => .bind fun _ =>
      takeItem_returns _ _ (by decide)
  · intro high _
    apply carries_byteAt
    · exact .bind fun _ => .bind fun _ => takeItem_returns _ _ (by decide)
    · exact fun _ _ => .bind_same _ fun _ _ => takeItem_carries _ _ _ _

theorem parseCanonicalBstr_local : Local Prod.snd parseCanonicalBstr := by
  intro data data'
  apply carries_byteAt
  · refine .bind fun first => ?_
    refine .ite (fun _ => takeItem_returns _ _ Nat.one_pos) fun _ => ?_
    refine .ite (fun _ => ?_) fun _ => .ite (fun _ => ?_) fun _ => .throw _
    · exact .bind fun _ => .bind fun _ => takeItem_returns _ _ Nat.two_pos
    · exact .bind fun _ => .bind fun _ => .bind fun _ =>
        takeItem_returns _ _ (by decide)
  · intro first _
    refine .ite (fun _ => takeItem_carries _ _ _ _) fun _ => ?_
    refine .ite (fun _ => ?_) fun _ => .ite (fun _ => ?_) fun _ => .refl _
    · exact carries_byteString (fun len => len.toNat < 24)
    · exact carries_wordString (fun len => len ≤ 0xff)

theorem parseBstr_local : Local Prod.snd parseBstr := by
  intro data data'
  apply carries_byteAt
  · refine .bind fun first => ?_
    refine .ite (fun _ => takeItem_returns _ _ Nat.one_pos) fun _ => ?_
    refine .ite (fun _ => ?_) fun _ => .ite (fun _ => ?_) fun _ => .throw _
    · exact .bind fun _ => takeItem_returns _ _ Nat.two_pos
    · exact .bind fun _ => .bind fun _ => takeItem_returns _ _ (by decide)
  · intro first _
    refine .ite (fun _ => takeItem_carries _ _ _ _) fun _ => ?_
    refine .ite (fun _ => ?_) fun _ => .ite (fun _ => ?_) fun _ => .refl _
    · exact carries_byteString (fun _ => False)
    · exact carries_wordString (fun _ => False)

/-! Items that are skipped. -/

theorem measured_returns (data : Bytes) {size i : Nat} (hi : i < size) :
    Returns (measured data size) (i < ·) := by
  intro n h
  exact (measured_eq_ok.mp h).1 ▸ hi

theorem skipIntValue_returns (data : Bytes) :
    Returns (skipIntValue data) (0 < ·) :=
  fun _ h => ((skipIntValue_meets data).of_ok h).1

theorem skipIntValue_local : Local id skipIntValue := by
  intro data data'
  have hsize : ∀ size, Carries (fun n => SameTo n data data')
      (measured data size) (measured data' size) :=
    measured_carries data data'
  apply carries_byteAt
  · exact skipIntValue_returns data
  · intro first _
    refine .ite (fun _ => .refl _) fun _ => .ite (fun _ => hsize _) fun _ => ?_
    refine .ite (fun _ => hsize _) fun _ => .ite (fun _ => .refl _) fun _ => ?_
    exact .ite (fun _ => hsize _) fun _ => .ite (fun _ => hsize _) fun _ =>
      .refl _

theorem skipRun_returns (skip : Bytes → Outcome EdhocError Nat) (data : Bytes)
    (count offset : Nat) :
    Returns (skipRun skip data count offset) (offset ≤ ·) := by
  induction count generalizing offset with
  | zero => exact .pure (Nat.le_refl offset)
  | succ count ih =>
      refine .bind fun rest => .bind fun size => ?_
      intro last h
      exact le_of_add_le_left (ih (offset + size) last h)

/-- Running a local parser over items in a row is local. -/
theorem skipRun_carries {skip : Bytes → Outcome EdhocError Nat}
    (hskip : Local id skip) (data data' : Bytes) (count offset : Nat) :
    Carries (fun last => SameTo last data data')
      (skipRun skip data count offset) (skipRun skip data' count offset) := by
  induction count generalizing offset with
  | zero => exact .refl _
  | succ count ih =>
      apply Local.carries_sliceFrom fun last => last
      · refine fun rest => .bind fun size => ?_
        intro last h
        exact le_of_add_le_left (skipRun_returns skip data count _ last h)
      · apply Local.carries_item hskip
        · exact fun size => skipRun_returns skip data count _
        · exact fun size => ih _

theorem skipValue_returns (fuel : Nat) (data : Bytes) :
    Returns (skipValue fuel data) (0 < ·) :=
  fun _ h => ((skipValue_meets fuel data).of_ok h).1

theorem skipValue_local (fuel : Nat) : Local id (skipValue fuel) := by
  induction fuel with
  | zero =>
      intro data data' n h
      cases h
  | succ fuel ih =>
      intro data data'
      have hsize : ∀ size, Carries (fun n => SameTo n data data')
          (measured data size) (measured data' size) :=
        measured_carries data data'
      have hstring : Carries (fun n => SameTo n data data')
          (byteAt data 1 >>= fun len => measured data (2 + len.toNat))
          (byteAt data' 1 >>= fun len => measured data' (2 + len.toNat)) := by
        apply carries_byteAt
        · exact .bind fun len => measured_returns data (by omega)
        · exact fun len _ => hsize _
      have hrun : ∀ count offset, Carries (fun n => SameTo n data data')
          (skipRun (skipValue fuel) data count offset)
          (skipRun (skipValue fuel) data' count offset) :=
        skipRun_carries ih data data'
      apply carries_byteAt
      · exact skipValue_returns (fuel + 1) data
      · intro first _
        refine .ite (fun _ => .refl _) fun _ => ?_
        refine .ite (fun _ => hsize _) fun _ => ?_
        refine .ite (fun _ => hsize _) fun _ => ?_
        refine .ite (fun _ => .refl _) fun _ => ?_
        refine .ite (fun _ => hsize _) fun _ => ?_
        refine .ite (fun _ => hsize _) fun _ => ?_
        refine .ite (fun _ => hsize _) fun _ => ?_
        refine .ite (fun _ => hstring) fun _ => ?_
        refine .ite (fun _ => hsize _) fun _ => ?_
        refine .ite (fun _ => hstring) fun _ => ?_
        refine .ite (fun _ => hrun _ _) fun _ => ?_
        refine .ite (fun _ => ?_) fun _ => .refl _
        apply carries_byteAt
        · refine .bind fun count => ?_
          intro n hn
          exact lt_of_lt_of_le Nat.one_lt_two (skipRun_returns _ _ _ _ n hn)
        · exact fun count _ => hrun _ _

theorem skipCborValue_returns (data : Bytes) :
    Returns (skipCborValue data) (0 < ·) :=
  skipValue_returns _ data

/-- The length of the input only serves as fuel. -/
theorem skipCborValue_local : Local id skipCborValue := by
  intro data data' n h hsame
  let fuel := data.length + data'.length
  have hfuel : skipCborValue data = skipValue fuel data :=
    skipValue_fuel le_rfl (Nat.le_add_right _ _)
  have hfuel' : skipCborValue data' = skipValue fuel data' :=
    skipValue_fuel le_rfl (Nat.le_add_left _ _)
  rw [hfuel] at h
  rw [hfuel']
  exact skipValue_local fuel data data' n h hsame

/-- What is no integer, but is skipped, stays no integer. -/
theorem tryParseCborInt_same_none (h : tryParseCborInt data = none)
    (hskip : skipCborValue data = .ok n) (hsame : SameTo n data data') :
    tryParseCborInt data' = none := by
  cases hint : tryParseCborInt data' with
  | none => rfl
  | some item =>
      obtain ⟨val, size⟩ := item
      have hskip' := skipCborValue_local data data' n hskip hsame
      have hsize : n = size :=
        Except.ok.inj (hskip'.symm.trans (skipCborValue_of_tryParse hint))
      subst hsize
      have hback := tryParseCborInt_same hint hsame.symm
      rw [h] at hback
      cases hback

/-! The values behind the labels. -/

theorem validateAlgElements_returns (data : Bytes) (count offset : Nat)
    (seenValues : List Int) :
    Returns (validateAlgElements data count offset seenValues) (offset ≤ ·) := by
  induction count generalizing offset seenValues with
  | zero => exact .pure (Nat.le_refl offset)
  | succ count ih =>
      refine .bind fun _ => .bind fun rest => ?_
      split
      · refine .bind fun _ => .bind fun _ => .bind fun _ => ?_
        intro last h
        exact le_of_add_le_left (ih _ _ last h)
      · refine .bind fun len => ?_
        intro last h
        exact le_of_add_le_left (ih _ _ last h)

/-- One element behind the offset is at least one byte. -/
theorem validateAlgElements_succ_returns (data : Bytes) (count offset : Nat)
    (seenValues : List Int) :
    Returns (validateAlgElements data (count + 1) offset seenValues)
      (offset < ·) := by
  refine .bind fun _ => .bind fun rest => ?_
  split
  · rename_i val len hint
    have hpos := (tryParseCborInt_within hint).1
    refine .bind fun _ => .bind fun _ => .bind fun _ => ?_
    intro last h
    have hle := validateAlgElements_returns data count _ _ last h
    omega
  · intro last h
    obtain ⟨len, hlen, h⟩ := Outcome.bind_eq_ok.mp h
    have hpos := skipCborValue_returns rest len hlen
    have hle := validateAlgElements_returns data count _ _ last h
    omega

theorem validateAlgElements_carries (data data' : Bytes) (count offset : Nat)
    (seenValues : List Int) :
    Carries (fun last => SameTo last data data')
      (validateAlgElements data count offset seenValues)
      (validateAlgElements data' count offset seenValues) := by
  induction count generalizing offset seenValues with
  | zero => exact .refl _
  | succ count ih =>
      intro last h hsame
      have hlt := validateAlgElements_succ_returns data count offset
        seenValues last h
      have hlength := hsame.le_right
      have hrest' : sliceFrom data' offset =
          (.ok (data'.drop offset) : Outcome EdhocError Bytes) :=
        sliceFrom_of_le (by omega)
      rw [validateAlgElements, failIf_of_not _ (by omega), Outcome.ok_bind,
        hrest', Outcome.ok_bind]
      obtain ⟨_, -, h⟩ := Outcome.bind_eq_ok.mp h
      obtain ⟨rest, hrest, h⟩ := Outcome.bind_eq_ok.mp h
      obtain ⟨-, rfl⟩ := sliceFrom_eq_ok.mp hrest
      have hnext : ∀ {len seen}, validateAlgElements data count (offset + len)
          seen = .ok last → SameTo len (data.drop offset) (data'.drop offset) :=
        fun hrun => (hsame.mono
          (validateAlgElements_returns data count _ _ last hrun)).drop
      split at h
      · rename_i val len hint
        obtain ⟨_, hambiguous, h⟩ := Outcome.bind_eq_ok.mp h
        obtain ⟨_, hseen, h⟩ := Outcome.bind_eq_ok.mp h
        obtain ⟨_, hcapacity, h⟩ := Outcome.bind_eq_ok.mp h
        rw [tryParseCborInt_same hint (hnext h)]
        simp only [hambiguous, hseen, hcapacity, Outcome.ok_bind]
        exact ih _ _ last h hsame
      · rename_i hint
        obtain ⟨len, hlen, h⟩ := Outcome.bind_eq_ok.mp h
        rw [tryParseCborInt_same_none hint hlen (hnext h)]
        simp only [skipCborValue_local _ _ len hlen (hnext h), Outcome.ok_bind]
        exact ih _ _ last h hsame

theorem skipIntValue_eq_error {first : UInt8} (hfirst : byteAt data 0 = .ok first)
    (harray : 0x80 ≤ first ∧ first ≤ 0x97) :
    skipIntValue data = .error (.err .invalidMessage) := by
  have hall : ∀ byte : UInt8, 0x80 ≤ byte ∧ byte ≤ 0x97 →
      ¬ byte ≤ 0x17 ∧ byte ≠ 0x18 ∧ byte ≠ 0x19 ∧
        ¬ (0x20 ≤ byte ∧ byte ≤ 0x37) ∧ byte ≠ 0x38 ∧ byte ≠ 0x39 := by
    apply forall_byte
    decide +kernel
  obtain ⟨h1, h2, h3, h4, h5, h6⟩ := hall first harray
  rw [skipIntValue, hfirst, Outcome.ok_bind, if_neg h1, if_neg h2, if_neg h3,
    if_neg h4, if_neg h5, if_neg h6]
  rfl

theorem validateAlgValue_returns (data : Bytes) :
    Returns (validateAlgValue data) (0 < ·) :=
  fun _ h => ((validateAlgValue_meets data).of_ok h).1

theorem validateAlgValue_local : Local id validateAlgValue := by
  intro data data'
  apply carries_byteAt
  · exact validateAlgValue_returns data
  · intro first hfirst n h hsame
    split at h
    · rename_i len hskip
      cases h
      rw [skipIntValue_local data data' n hskip hsame]
      rfl
    · split at h
      · rename_i harray
        have hpos : 0 < n := validateAlgElements_returns data _ _ _ n h
        have hfirst' : byteAt data' 0 = .ok first := by
          rw [byteAt_same hsame hpos, hfirst]
        rw [skipIntValue_eq_error hfirst' harray]
        simp only [harray, and_self, ↓reduceIte]
        exact validateAlgElements_carries data data' _ _ _ n h hsame
      · cases h

/-- The two elements of an `x5t` value, and their lengths. -/
structure X5tParts (data : Bytes) (value : Int × HVec idCredMaxLen)
    (algLen hashLen : Nat) : Prop where
  head : data[0]? = some 0x82
  alg : tryParseCborInt (data.drop 1) = some (value.1, algLen)
  alg_le : 1 + algLen ≤ data.length
  hash : parseBstr (data.drop (1 + algLen)) = .ok (value.2.toList, hashLen)

theorem parseX5tValue_eq_ok {value : Int × HVec idCredMaxLen} :
    parseX5tValue data = .ok (value, n) ↔
      ∃ algLen hashLen, X5tParts data value algLen hashLen ∧
        n = 1 + algLen + hashLen := by
  constructor
  · intro h
    obtain ⟨_, hhead, h⟩ := Outcome.bind_eq_ok.mp h
    obtain ⟨rest, hrest, h⟩ := Outcome.bind_eq_ok.mp h
    obtain ⟨-, rfl⟩ := sliceFrom_eq_ok.mp hrest
    obtain ⟨⟨alg, algLen⟩, halg, h⟩ := Outcome.bind_eq_ok.mp h
    obtain ⟨rest, hrest, h⟩ := Outcome.bind_eq_ok.mp h
    obtain ⟨hle, rfl⟩ := sliceFrom_eq_ok.mp hrest
    obtain ⟨⟨hashVal, hashLen⟩, hparsed, h⟩ := Outcome.bind_eq_ok.mp h
    obtain ⟨hash, hfits, h⟩ := Outcome.bind_eq_ok.mp h
    cases h
    have hhash : hash.toList = hashVal :=
      HVec.ofBytes_eq_some.mp (okOr_eq_ok.mp hfits)
    exact ⟨algLen, hashLen, ⟨not_not.mp (failIf_eq_ok.mp hhead),
      okOr_eq_ok.mp halg, hle, hhash ▸ hparsed⟩, rfl⟩
  · rintro ⟨algLen, hashLen, h, rfl⟩
    have hone : 1 ≤ data.length := le_trans (Nat.le_add_right _ _) h.alg_le
    rw [parseX5tValue, failIf_of_not _ (not_not.mpr h.head), Outcome.ok_bind,
      sliceFrom_of_le hone, Outcome.ok_bind, h.alg, okOr_some,
      Outcome.ok_bind]
    simp only
    rw [sliceFrom_of_le h.alg_le, Outcome.ok_bind, h.hash, Outcome.ok_bind,
      HVec.ofBytes_eq_some.mpr rfl, okOr_some, Outcome.ok_bind]
    rfl

theorem parseX5tValue_local : Local Prod.snd parseX5tValue := by
  rintro data data' ⟨value, n⟩ h hsame
  obtain ⟨algLen, hashLen, hparts, rfl⟩ := parseX5tValue_eq_ok.mp h
  have hlength := hsame.le_right
  simp only at hlength
  refine parseX5tValue_eq_ok.mpr ⟨algLen, hashLen, ⟨?_, ?_, by omega, ?_⟩, rfl⟩
  · rw [hsame.getElem? (by simp only; omega), hparts.head]
  · exact tryParseCborInt_same hparts.alg
      (hsame.mono (Nat.le_add_right _ _)).drop
  · exact parseBstr_local _ _ _ hparts.hash hsame.drop

theorem parseLabelled_local (found : Parameters) (label : Int) :
    Local Prod.snd (parseLabelled found label) := by
  intro data data' r h hsame
  unfold parseLabelled at h ⊢
  split at h
  · obtain ⟨size, hsize, h⟩ := Outcome.bind_eq_ok.mp h
    cases h
    rw [skipIntValue_local _ _ size hsize hsame]
    rfl
  · obtain ⟨size, hsize, h⟩ := Outcome.bind_eq_ok.mp h
    cases h
    rw [validateAlgValue_local _ _ size hsize hsame]
    rfl
  · obtain ⟨_, hnew, h⟩ := Outcome.bind_eq_ok.mp h
    obtain ⟨item, hitem, h⟩ := Outcome.bind_eq_ok.mp h
    obtain ⟨kid, hkid, h⟩ := Outcome.bind_eq_ok.mp h
    cases h
    rw [hnew, Outcome.ok_bind, parseCanonicalBstr_local _ _ item hitem hsame,
      Outcome.ok_bind]
    simp only [hkid]
    rfl
  · obtain ⟨_, hnew, h⟩ := Outcome.bind_eq_ok.mp h
    obtain ⟨item, hitem, h⟩ := Outcome.bind_eq_ok.mp h
    cases h
    rw [hnew, Outcome.ok_bind, parseX5tValue_local _ _ item hitem hsame]
    rfl
  · obtain ⟨size, hsize, h⟩ := Outcome.bind_eq_ok.mp h
    cases h
    rw [skipCborValue_local _ _ size hsize hsame]
    rfl

/-! The pairs of a map. -/

/-- What one pair of a map adds to the parameters, and where it ends: a label
with its value, or two items that are only measured. -/
inductive Pair (data : Bytes) (offset : Nat) (found : Parameters) :
    Parameters × Nat → Prop
  | labelled (label : Int) (len size : Nat) (next : Parameters)
      (key : tryParseCborInt (data.drop offset) = some (label, len))
      (unseen : label ∉ found.seenLabels)
      (room : ¬ found.seenLabels.length ≥ seenCapacity)
      (key_le : offset + len ≤ data.length)
      (value : parseLabelled
        { found with seenLabels := found.seenLabels ++ [label] } label
        (data.drop (offset + len)) = .ok (next, size)) :
      Pair data offset found (next, offset + len + size)
  | measured (len size : Nat)
      (unlabelled : tryParseCborInt (data.drop offset) = none)
      (key : skipCborValue (data.drop offset) = .ok len)
      (key_le : offset + len ≤ data.length)
      (value : skipCborValue (data.drop (offset + len)) = .ok size) :
      Pair data offset found (found, offset + len + size)

theorem parseParameter_eq_ok {offset : Nat} {found : Parameters}
    {r : Parameters × Nat} :
    parseParameter data offset found = .ok r ↔
      offset < data.length ∧ Pair data offset found r := by
  constructor
  · intro h
    obtain ⟨_, hoffset, h⟩ := Outcome.bind_eq_ok.mp h
    obtain ⟨rest, hrest, h⟩ := Outcome.bind_eq_ok.mp h
    obtain ⟨-, rfl⟩ := sliceFrom_eq_ok.mp hrest
    refine ⟨Nat.not_le.mp (failIf_eq_ok.mp hoffset), ?_⟩
    split at h
    · rename_i label len hint
      obtain ⟨_, hseen, h⟩ := Outcome.bind_eq_ok.mp h
      obtain ⟨_, hroom, h⟩ := Outcome.bind_eq_ok.mp h
      obtain ⟨rest, hrest, h⟩ := Outcome.bind_eq_ok.mp h
      obtain ⟨hle, rfl⟩ := sliceFrom_eq_ok.mp hrest
      obtain ⟨⟨next, size⟩, hvalue, h⟩ := Outcome.bind_eq_ok.mp h
      cases h
      exact .labelled label len size next hint (failIf_eq_ok.mp hseen)
        (failIf_eq_ok.mp hroom) hle hvalue
    · rename_i hint
      obtain ⟨len, hlen, h⟩ := Outcome.bind_eq_ok.mp h
      obtain ⟨rest, hrest, h⟩ := Outcome.bind_eq_ok.mp h
      obtain ⟨hle, rfl⟩ := sliceFrom_eq_ok.mp hrest
      obtain ⟨size, hsize, h⟩ := Outcome.bind_eq_ok.mp h
      cases h
      exact .measured len size hint hlen hle hsize
  · rintro ⟨hoffset, h⟩
    rw [parseParameter, failIf_of_not _ (Nat.not_le.mpr hoffset),
      Outcome.ok_bind, sliceFrom_of_le hoffset.le, Outcome.ok_bind]
    cases h with
    | labelled label len size next key unseen room key_le value =>
        simp only [key, failIf_of_not _ unseen, failIf_of_not _ room,
          sliceFrom_of_le key_le, value, Outcome.ok_bind, Outcome.pure_eq_ok]
    | measured len size unlabelled key key_le value =>
        simp only [unlabelled, key, sliceFrom_of_le key_le, value,
          Outcome.ok_bind, Outcome.pure_eq_ok]

theorem parseParameter_returns (data : Bytes) (offset : Nat)
    (found : Parameters) :
    Returns (parseParameter data offset found) (offset < ·.2) := by
  intro r h
  cases (parseParameter_eq_ok.mp h).2 with
  | labelled label len size next key =>
      have hpos := (tryParseCborInt_within key).1
      simp only
      omega
  | measured len size unlabelled key =>
      have hpos := skipCborValue_returns _ len key
      simp only
      omega

theorem parseParameters_returns (data : Bytes) (count offset : Nat)
    (found : Parameters) :
    Returns (parseParameters data count offset found) (offset ≤ ·.2) := by
  induction count generalizing offset found with
  | zero => exact .pure (Nat.le_refl offset)
  | succ count ih =>
      intro r h
      obtain ⟨⟨next, middle⟩, hfirst, h⟩ := Outcome.bind_eq_ok.mp h
      have hlt := parseParameter_returns data offset found _ hfirst
      exact le_trans hlt.le (ih middle next r h)

theorem parseParameter_carries (data data' : Bytes) (offset : Nat)
    (found : Parameters) :
    Carries (fun r => SameTo r.2 data data') (parseParameter data offset found)
      (parseParameter data' offset found) := by
  intro r h hsame
  have hlt := parseParameter_returns data offset found r h
  have hlength := hsame.le_right
  refine parseParameter_eq_ok.mpr ⟨lt_of_lt_of_le hlt hlength, ?_⟩
  cases (parseParameter_eq_ok.mp h).2 with
  | labelled label len size next key unseen room key_le value =>
      have hkey : SameTo len (data.drop offset) (data'.drop offset) :=
        (hsame.mono (Nat.le_add_right _ _)).drop
      exact .labelled label len size next (tryParseCborInt_same key hkey)
        unseen room (le_of_add_le_left hlength)
        (parseLabelled_local _ _ _ _ _ value hsame.drop)
  | measured len size unlabelled key key_le value =>
      have hkey : SameTo len (data.drop offset) (data'.drop offset) :=
        (hsame.mono (Nat.le_add_right _ _)).drop
      exact .measured len size (tryParseCborInt_same_none unlabelled key hkey)
        (skipCborValue_local _ _ len key hkey) (le_of_add_le_left hlength)
        (skipCborValue_local _ _ size value hsame.drop)

theorem parseParameters_carries (data data' : Bytes) (count offset : Nat)
    (found : Parameters) :
    Carries (fun r => SameTo r.2 data data')
      (parseParameters data count offset found)
      (parseParameters data' count offset found) := by
  induction count generalizing offset found with
  | zero => exact .refl _
  | succ count ih =>
      apply Carries.bind
      · rintro ⟨next, middle⟩ r hfirst h hsame
        have hle := parseParameters_returns data count middle next r h
        exact parseParameter_carries data data' offset found _ hfirst
          (hsame.mono hle)
      · exact fun b _ => ih b.2 b.1

end Parts

/-! The ID_CRED as a whole. -/

/-- The outcome of an ID_CRED map, read again from its own bytes. -/
theorem parseIdCredMap_append {data : Bytes} {first : UInt8} {cred : IdCred}
    {n : Nat} (h : parseIdCredMap data first = .ok (cred, n)) (rest : Bytes) :
    n = cred.encoded.toList.length ∧ 1 ≤ n ∧ n ≤ data.length ∧
      cred.encoded.toList = data.take n ∧
      parseIdCredMap (cred.encoded.toList ++ rest) first = .ok (cred, n) := by
  obtain ⟨⟨found, last⟩, hfound, h⟩ := Outcome.bind_eq_ok.mp h
  obtain ⟨reference, hreference, h⟩ := Outcome.bind_eq_ok.mp h
  obtain ⟨head, hhead, h⟩ := Outcome.bind_eq_ok.mp h
  obtain ⟨encoded, hencoded, h⟩ := Outcome.bind_eq_ok.mp h
  cases h
  obtain ⟨-, hle, rfl⟩ := slice_eq_ok.mp hhead
  have hbytes : encoded.toList = data.take n := by
    have hout := extendErr_eq_ok.mp hencoded
    rwa [List.drop_zero] at hout
  have hlength : encoded.toList.length = n := by
    rw [hbytes, List.length_take_of_le hle]
  have hfound' : parseParameters (encoded.toList ++ rest)
      (first - 0xa0).toNat 1 ⟨[], none, none⟩ = .ok (found, n) := by
    rw [hbytes]
    exact parseParameters_carries data _ _ _ _ _ hfound
      (SameTo.append hle rest)
  have hhead' : slice (encoded.toList ++ rest) 0 n =
      (.ok encoded.toList : Outcome EdhocError Bytes) := by
    rw [slice_of_le (Nat.zero_le _)
      (by rw [List.length_append]; omega), List.drop_zero,
      List.take_left' hlength]
  have hencoded' : extendErr HVec.empty encoded.toList = .ok encoded :=
    extendErr_eq_ok.mpr rfl
  have hone : 1 ≤ n := parseParameters_returns data _ _ _ _ hfound
  refine ⟨hlength.symm, hone, hle, hbytes, ?_⟩
  simp only [parseIdCredMap, hfound', hreference, hhead', hencoded',
    Outcome.ok_bind, Outcome.pure_eq_ok]

/-- A compact form becomes a map with nothing but a `kid`. -/
theorem compactKid_eq_ok {head : UInt8} {kid : Bytes} {cred : IdCred}
    (hhead : head :: kid = Cbor.bstr kid)
    (h : compactKid head kid = .ok cred) :
    ∃ value : HVec idCredMaxLen, cred.reference = .kid value ∧
      cred.encoded.toList = [0xa1, 0x04] ++ Cbor.bstr value.toList := by
  simp only [compactKid, Outcome.bind_eq_ok, extendErr_eq_ok, pushErr_eq_ok,
    HVec.toList_empty, List.nil_append, Outcome.pure_eq_ok,
    Except.ok.injEq] at h
  obtain ⟨start, hstart, middle, hmiddle, encoded, hencoded, value, hvalue,
    rfl⟩ := h
  refine ⟨value, rfl, ?_⟩
  rw [hencoded, hmiddle, hstart, hvalue, ← hhead]
  rfl

theorem compact_byte (byte : UInt8) :
    0x41 :: [byte] = Cbor.bstr [byte] := by
  rw [Cbor.bstr, List.length_singleton]
  rfl

theorem compact_bytes {kid : Bytes} (h : kid.length = 2) :
    0x42 :: kid = Cbor.bstr kid := by
  rw [Cbor.bstr, h]
  rfl

/-- The forms of an accepted ID_CRED: a `kid` that is rewritten, or a map. -/
theorem parseIdCred_eq_ok {data : Bytes} {cred : IdCred} {n : Nat}
    (h : parseIdCred data = .ok (cred, n)) :
    (∃ value : HVec idCredMaxLen, cred.reference = .kid value ∧
        cred.encoded.toList = [0xa1, 0x04] ++ Cbor.bstr value.toList) ∨
      ∃ first, byteAt data 0 = .ok first ∧ 0xa1 ≤ first ∧ first ≤ 0xa8 ∧
        parseIdCredMap data first = .ok (cred, n) := by
  obtain ⟨first, hfirst, h⟩ := Outcome.bind_eq_ok.mp h
  have htwo : ∀ {kid : Bytes}, ¬ data.length < 2 →
      slice data 0 2 = (.ok kid : Outcome EdhocError Bytes) →
      kid.length = 2 := by
    intro kid hlen hkid
    obtain ⟨-, hle, rfl⟩ := slice_eq_ok.mp hkid
    rw [List.drop_zero, List.length_take_of_le hle]
  split_ifs at h with hsmall hneg hbyte hnegByte hstring
  · obtain ⟨cred, hcred, h⟩ := Outcome.bind_eq_ok.mp h
    cases h
    exact Or.inl (compactKid_eq_ok (compact_byte first) hcred)
  · obtain ⟨cred, hcred, h⟩ := Outcome.bind_eq_ok.mp h
    cases h
    exact Or.inl (compactKid_eq_ok (compact_byte first) hcred)
  · obtain ⟨_, hlen, h⟩ := Outcome.bind_eq_ok.mp h
    obtain ⟨kid, hkid, h⟩ := Outcome.bind_eq_ok.mp h
    obtain ⟨cred, hcred, h⟩ := Outcome.bind_eq_ok.mp h
    cases h
    have hbytes := compact_bytes (htwo (failIf_eq_ok.mp hlen) hkid)
    exact Or.inl (compactKid_eq_ok hbytes hcred)
  · obtain ⟨_, hlen, h⟩ := Outcome.bind_eq_ok.mp h
    obtain ⟨kid, hkid, h⟩ := Outcome.bind_eq_ok.mp h
    obtain ⟨cred, hcred, h⟩ := Outcome.bind_eq_ok.mp h
    cases h
    have hbytes := compact_bytes (htwo (failIf_eq_ok.mp hlen) hkid)
    exact Or.inl (compactKid_eq_ok hbytes hcred)
  · obtain ⟨⟨value, consumed⟩, hvalue, h⟩ := Outcome.bind_eq_ok.mp h
    obtain ⟨start, hstart, h⟩ := Outcome.bind_eq_ok.mp h
    obtain ⟨encoded, hencoded, h⟩ := Outcome.bind_eq_ok.mp h
    obtain ⟨kid, hkid, h⟩ := Outcome.bind_eq_ok.mp h
    cases h
    have hkid := HVec.ofBytes_eq_some.mp (okOr_eq_ok.mp hkid)
    refine Or.inl ⟨kid, rfl, ?_⟩
    rw [(encodeBstr_eq_ok.mp hencoded).2, extendErr_eq_ok.mp hstart, hkid]
    rfl
  · obtain ⟨_, hrange, h⟩ := Outcome.bind_eq_ok.mp h
    have hrange := not_not.mp (failIf_eq_ok.mp hrange)
    exact Or.inr ⟨first, hfirst, hrange.1, hrange.2, h⟩

/-- Whatever was read, the canonical ID_CRED is read as itself, whatever
follows. -/
theorem parseIdCred_canonical {data : Bytes} {cred : IdCred} {n : Nat}
    (h : parseIdCred data = .ok (cred, n)) (rest : Bytes) :
    parseIdCred (cred.encoded.toList ++ rest) =
      .ok (cred, cred.encoded.toList.length) := by
  rcases parseIdCred_eq_ok h with ⟨kid, hreference, hbytes⟩ |
    ⟨first, hfirst, hle, hge, hmap⟩
  · exact parseIdCred_kid hbytes hreference rest
  · obtain ⟨hn, hone, hlen, hbytes, hagain⟩ := parseIdCredMap_append hmap rest
    have hsame : SameTo n data (cred.encoded.toList ++ rest) :=
      hbytes ▸ SameTo.append hlen rest
    have hfirst' : byteAt (cred.encoded.toList ++ rest) 0 = .ok first := by
      rw [byteAt_same hsame hone, hfirst]
    have hother : ∀ byte : UInt8, 0xa1 ≤ byte → ¬ byte ≤ 0x17 ∧
        ¬ (0x20 ≤ byte ∧ byte ≤ 0x37) ∧ byte ≠ 0x18 ∧ byte ≠ 0x38 ∧
        ¬ ((0x40 ≤ byte ∧ byte ≤ 0x57) ∨ byte = 0x58) := by
      apply forall_byte
      decide +kernel
    obtain ⟨h1, h2, h3, h4, h5⟩ := hother first hle
    rw [parseIdCred, hfirst', Outcome.ok_bind, if_neg h1, if_neg h2, if_neg h3,
      if_neg h4, if_neg h5, failIf_of_not _ (not_not.mpr ⟨hle, hge⟩),
      Outcome.ok_bind, hagain, hn]

/-- An `x5t` reference with a hash of eight bytes. -/
def sampleX5t : Bytes :=
  [0xa1, 0x18, 0x22, 0x82, 0x2e, 0x48, 0x79, 0xf2, 0xa4, 0x1b, 0x51, 0x0c, 0x1f,
    0x9b]

theorem parseIdCred_canonical_x5t :
    ∃ cred n, parseIdCred (sampleX5t ++ [0x40]) = .ok (cred, n) ∧
      ∀ rest, parseIdCred (cred.encoded.toList ++ rest) =
        .ok (cred, cred.encoded.toList.length) := by
  obtain ⟨⟨cred, n⟩, h⟩ := Outcome.exists_ok_iff.mpr
    (by decide +kernel : (parseIdCred (sampleX5t ++ [0x40])).isOk = true)
  exact ⟨cred, n, h, fun rest => parseIdCred_canonical h rest⟩

end Oscore.Edhoc
