/-
What the receiver makes of the bytes a sender writes: the option value, the
ciphertext with its tag, and the body behind the code.
-/
import Oscore.Encoding
import Oscore.Unprotect

namespace Oscore

open Rust

/-! The option value. -/

/-- The length-prefixed KID context of an option, if there is one. -/
def contextField : Option Bytes → Bytes
  | some bytes => UInt8.ofNat bytes.length :: bytes
  | none => []

/-- The flags of a request. -/
def requestFlags (hasContext : Bool) (pivLen : Nat) : UInt8 :=
  (0x08 : UInt8) ||| (if hasContext then 1 else 0 : UInt8) <<< 4 |||
    (UInt8.ofNat pivLen &&& 0x07)

theorem requestFlags_bits (hasContext : Bool) {n : Nat} (hn : n ≤ 5) :
    requestFlags hasContext n &&& 0xe0 = 0 ∧
      requestFlags hasContext n ≠ 0 ∧
      decide (requestFlags hasContext n &&& 0x10 ≠ 0) = hasContext ∧
      requestFlags hasContext n &&& 0x08 ≠ 0 ∧
      (requestFlags hasContext n &&& 0x07).toNat = n := by
  have hall : ∀ (b : Bool) (k : Fin 6), requestFlags b k &&& 0xe0 = 0 ∧
      requestFlags b k ≠ 0 ∧ decide (requestFlags b k &&& 0x10 ≠ 0) = b ∧
      requestFlags b k &&& 0x08 ≠ 0 ∧
      (requestFlags b k &&& 0x07).toNat = k := by decide
  exact hall hasContext ⟨n, by omega⟩

theorem responseFlags_bits {n : Nat} (hn : n ≤ 5) :
    (UInt8.ofNat n &&& 0x07) &&& 0xe0 = 0 ∧
      (UInt8.ofNat n &&& 0x07) &&& 0x10 = 0 ∧
      (UInt8.ofNat n &&& 0x07) &&& 0x08 = 0 ∧
      ((UInt8.ofNat n &&& 0x07) &&& 0x07).toNat = n := by
  have hall : ∀ k : Fin 6, (UInt8.ofNat k &&& 0x07) &&& 0xe0 = 0 ∧
      (UInt8.ofNat k &&& 0x07) &&& 0x10 = 0 ∧
      (UInt8.ofNat k &&& 0x07) &&& 0x08 = 0 ∧
      ((UInt8.ofNat k &&& 0x07) &&& 0x07).toNat = k := by decide
  exact hall ⟨n, by omega⟩

theorem parsePiv_encodePiv (flags : UInt8) (seq : OscoreSeqNum)
    (rest : Bytes) :
    parsePiv (flags :: (seq.encodePiv ++ rest)) seq.encodePiv.length =
      .ok (seq.encodePiv, 1 + seq.encodePiv.length) := by
  have hpos := List.length_pos_iff.mpr seq.encodePiv_ne_nil
  have hle := seq.length_encodePiv_le
  have hslice := slice_append (ε := OscoreError) [flags] seq.encodePiv rest
  simp only [List.singleton_append, List.length_singleton] at hslice
  have hfit : ¬ (seq.encodePiv.length > pivMaxLen ∨
      1 + seq.encodePiv.length >
        (flags :: (seq.encodePiv ++ rest)).length) := by
    simp only [pivMaxLen, List.length_cons, List.length_append]
    omega
  simp only [parsePiv, if_pos hpos, failIf_of_not _ hfit, Outcome.ok_bind,
    hslice, OscoreSeqNum.fromPiv_encodePiv, Option.isNone_some]
  rfl

theorem parseKidContext_contextField (before : Bytes) {idContext : Option Bytes}
    (hcontext : (idContext.getD []).length ≤ idContextCapacity)
    (rest : Bytes) :
    parseKidContext (before ++ (contextField idContext ++ rest)) before.length
        idContext.isSome =
      .ok (idContext.getD [],
        (before ++ contextField idContext).length) := by
  cases idContext with
  | none => simp [parseKidContext, contextField]
  | some bytes =>
      simp only [Option.getD_some, idContextCapacity] at hcontext
      have hindex : (before ++ (UInt8.ofNat bytes.length :: (bytes ++ rest)))[
          before.length]? = some (UInt8.ofNat bytes.length) := by simp
      have hsize : (UInt8.ofNat bytes.length).toNat = bytes.length := by
        rw [UInt8.toNat_ofNat']
        omega
      have hslice := slice_append (ε := OscoreError)
        (before ++ [UInt8.ofNat bytes.length]) bytes rest
      simp only [List.append_assoc, List.singleton_append, List.length_append,
        List.length_singleton] at hslice
      have hstart : ¬ before.length ≥
          (before ++ (UInt8.ofNat bytes.length :: (bytes ++ rest))).length := by
        simp
      have hfit : ¬ (bytes.length > idContextCapacity ∨
          before.length + 1 + bytes.length >
            (before ++ (UInt8.ofNat bytes.length ::
              (bytes ++ rest))).length) := by
        simp only [idContextCapacity, List.length_append, List.length_cons]
        omega
      change parseKidContext
        (before ++ (UInt8.ofNat bytes.length :: (bytes ++ rest)))
        before.length true = _
      simp only [parseKidContext, if_true, failIf_of_not _ hstart, index,
        hindex, expect_some, Outcome.ok_bind, hsize, failIf_of_not _ hfit,
        hslice, Outcome.pure_eq_ok, Option.getD_some, contextField]
      congr 2
      simp only [List.length_append, List.length_cons]
      omega

theorem parseKid_append (before : Bytes) {kid : Bytes}
    (hkid : kid.length ≤ nonceIdLen) :
    parseKid (before ++ kid) before.length true = .ok kid := by
  simp only [parseKid, if_true, sliceFrom_append, Outcome.ok_bind,
    failIf_of_not _ (Nat.not_lt.mpr hkid), Outcome.pure_eq_ok]

/-- The receiver reads the fields of a request option as they were written. -/
theorem parseOption_request (seq : OscoreSeqNum) {idContext : Option Bytes}
    {kid : Bytes} (hcontext : (idContext.getD []).length ≤ idContextCapacity)
    (hkid : kid.length ≤ nonceIdLen) :
    parseOption (requestFlags idContext.isSome seq.encodePiv.length ::
        (seq.encodePiv ++ (contextField idContext ++ kid))) =
      .ok ⟨seq.encodePiv, idContext.getD [], idContext.isSome, kid, true⟩ := by
  obtain ⟨hreserved, hzero, hcontextBit, hkidBit, hcount⟩ :=
    requestFlags_bits idContext.isSome seq.length_encodePiv_le
  generalize requestFlags idContext.isSome seq.encodePiv.length = flags at *
  have hbefore : 1 + seq.encodePiv.length =
      (flags :: seq.encodePiv).length := by simp [Nat.add_comm]
  have hcontextAt := parseKidContext_contextField (flags :: seq.encodePiv)
    hcontext kid
  have hkidAt := parseKid_append
    ((flags :: seq.encodePiv) ++ contextField idContext) hkid
  simp only [List.cons_append, List.append_assoc] at hcontextAt hkidAt
  unfold parseOption
  rw [if_neg (by simp), if_neg (by simp [hzero])]
  simp only [index_zero_cons, Outcome.ok_bind, hcount, parsePiv_encodePiv,
    hcontextBit, hbefore, hcontextAt, hkidAt, hkidBit,
    failIf_of_not _ (not_not.mpr hreserved), ne_eq, not_false_eq_true,
    decide_true, Outcome.pure_eq_ok]

/-- The receiver reads the PIV of a response option as it was written. -/
theorem parseOption_response (seq : OscoreSeqNum) :
    parseOption ((UInt8.ofNat seq.encodePiv.length &&& 0x07) ::
        seq.encodePiv) = .ok ⟨seq.encodePiv, [], false, [], false⟩ := by
  obtain ⟨hreserved, hcontextBit, hkidBit, hcount⟩ :=
    responseFlags_bits seq.length_encodePiv_le
  generalize UInt8.ofNat seq.encodePiv.length &&& 0x07 = flags at *
  have hpiv := parsePiv_encodePiv flags seq []
  rw [List.append_nil] at hpiv
  have hend : 1 + seq.encodePiv.length = (flags :: seq.encodePiv).length := by
    simp [Nat.add_comm]
  unfold parseOption
  rw [if_neg (by simp), if_neg (by simp [seq.encodePiv_ne_nil])]
  simp only [index_zero_cons, Outcome.ok_bind, hcount, hpiv, hcontextBit,
    hkidBit, failIf_of_not _ (not_not.mpr hreserved), ne_eq, not_true_eq_false,
    decide_false, parseKidContext, parseKid, Bool.false_eq_true, ↓reduceIte,
    Outcome.pure_eq_ok, hend]
  rfl

/-! The ciphertext. -/

theorem tagFromSlice_eq_ok {bytes : Bytes} {tag : Tag} :
    tagFromSlice bytes = .ok tag ↔ bytes = tag.val := by
  unfold tagFromSlice
  rw [expect_eq_ok]
  split
  · simp [Subtype.ext_iff]
  · rename_i hlength
    simp only [reduceCtorEq, false_iff]
    intro heq
    exact hlength (heq ▸ tag.property)

theorem decryptInPlace_eq_some {C : Crypto} {capacity : Nat} {key : Key}
    {nonce : Nonce} {aad : Bytes} {buffer out : HVec capacity} {tag : Tag} :
    decryptInPlace C key nonce aad buffer tag = some out ↔
      C.ccmDecrypt key nonce aad buffer.toList tag = some out.toList := by
  unfold decryptInPlace
  split
  · rename_i h
    simp [h]
  · rename_i plaintext h
    simp [h, HVec.ext_iff]

/-- A ciphertext opens when its body fits the plaintext buffer and decrypts
under the tag at its end. -/
theorem openMessage_eq_ok {C : Crypto} {key : Key} {nonce : Nonce}
    {aad ciphertext : Bytes} {plaintext : HVec ptCap} :
    openMessage C key nonce aad ciphertext = .ok plaintext ↔
      ∃ body tag, ciphertext = body ++ tag.val ∧ body.length ≤ ptCap ∧
        C.ccmDecrypt key nonce aad body tag = some plaintext.toList := by
  simp only [openMessage, sliceFrom, Outcome.bind_eq_ok, slice_eq_ok,
    tagFromSlice_eq_ok, okOr_eq_ok, HVec.extend_eq_some,
    decryptInPlace_eq_some, HVec.toList_empty, List.nil_append]
  constructor
  · rintro ⟨_, ⟨-, -, rfl⟩, tag, htag, _, ⟨-, -, rfl⟩, buffer, hbuffer, hopen⟩
    rw [List.take_length] at htag
    rw [List.drop_zero] at hbuffer
    refine ⟨buffer.toList, tag, ?_, buffer.length_le, hopen⟩
    rw [hbuffer, ← htag, List.take_append_drop]
  · rintro ⟨body, tag, rfl, hfit, hopen⟩
    have hstart : (body ++ tag.val).length - tagLen = body.length := by
      simp [tag.property]
    rw [hstart]
    have hend : tag.val = ((body ++ tag.val).take
        (body ++ tag.val).length).drop body.length := by
      rw [List.take_length, List.drop_left]
    exact ⟨tag.val, ⟨by simp, le_rfl, hend⟩, tag, rfl, body,
      ⟨Nat.zero_le _, by simp, by simp⟩, ⟨body, hfit⟩, rfl, hopen⟩

/-! The body behind the code. -/

section Marker

variable {C : Crypto}

theorem findPayloadMarkerFrom_end {data : Bytes} {pos number : Nat}
    (h : data[pos]? = none) :
    findPayloadMarkerFrom C data pos number = .ok none := by
  rw [findPayloadMarkerFrom]
  split
  · rfl
  · simp_all

theorem findPayloadMarkerFrom_marker {data : Bytes} {pos number : Nat}
    (h : data[pos]? = some 0xFF) :
    findPayloadMarkerFrom C data pos number = .ok (some pos) := by
  rw [findPayloadMarkerFrom]
  split
  · simp_all
  · rename_i first hfirst
    rw [h, Option.some.injEq] at hfirst
    rw [if_pos hfirst.symm]
    rfl

theorem findPayloadMarkerFrom_option {data : Bytes} {pos number : Nat}
    {first : UInt8} (h : data[pos]? = some first) (hne : first ≠ 0xFF) :
    findPayloadMarkerFrom C data pos number =
      (markerOption C data (pos + 1) number first >>= fun next =>
        findPayloadMarkerFrom C data next.1 next.2) := by
  rw [findPayloadMarkerFrom]
  split
  · simp_all
  · rename_i first' hfirst
    rw [h, Option.some.injEq] at hfirst
    subst hfirst
    rw [if_neg hne]
    split
    · rename_i fault hoption
      rw [hoption]
      rfl
    · rename_i next number' hoption
      rw [hoption]
      rfl

/-- The scan stops on a marker, not before the boundary it started at. -/
theorem findPayloadMarkerFrom_eq_some {data : Bytes} {pos number found : Nat}
    (h : findPayloadMarkerFrom C data pos number = .ok (some found)) :
    pos ≤ found ∧ data[found]? = some 0xFF := by
  induction hsize : data.length - pos using Nat.strong_induction_on
    generalizing pos number with
  | _ size ih =>
    cases hfirst : data[pos]? with
    | none =>
        rw [findPayloadMarkerFrom_end hfirst] at h
        cases h
    | some first =>
        by_cases hmarker : first = 0xFF
        · subst hmarker
          rw [findPayloadMarkerFrom_marker hfirst] at h
          cases h
          exact ⟨le_rfl, hfirst⟩
        · rw [findPayloadMarkerFrom_option hfirst hmarker] at h
          obtain ⟨next, hoption, h⟩ := Outcome.bind_eq_ok.mp h
          have hcursor := markerOption_cursor hoption
          have hlt := (List.getElem?_eq_some_iff.mp hfirst).1
          obtain ⟨hle, hfound⟩ := ih _ (by omega) h rfl
          exact ⟨by omega, hfound⟩

theorem markerDelta_append {data : Bytes} (tail : Bytes) {pos value next : Nat}
    {nibble : UInt8} (hnext : next ≤ data.length) :
    markerDelta C (data ++ tail) pos nibble = .ok (value, next) ↔
      markerDelta C data pos nibble = .ok (value, next) := by
  unfold markerDelta
  split
  · rfl
  split <;>
  · simp only [Outcome.bind_eq_ok, failIf_eq_ok, index_eq_ok,
      Outcome.pure_eq_ok, Except.ok.injEq, Prod.mk.injEq, exists_const,
      List.length_append]
    grind

theorem markerLength_append {data : Bytes} (tail : Bytes)
    {pos value next : Nat} {nibble : UInt8} (hnext : next ≤ data.length) :
    markerLength (data ++ tail) pos nibble = .ok (value, next) ↔
      markerLength data pos nibble = .ok (value, next) := by
  unfold markerLength
  split
  · rfl
  split <;>
  · simp only [Outcome.bind_eq_ok, failIf_eq_ok, index_eq_ok,
      Outcome.pure_eq_ok, Except.ok.injEq, Prod.mk.injEq, exists_const,
      List.length_append]
    grind

/-- An option that ends inside `data` is read the same with more bytes behind
it. -/
theorem markerOption_append {data : Bytes} (tail : Bytes)
    {pos number next number' : Nat} {first : UInt8}
    (hnext : next ≤ data.length) :
    markerOption C (data ++ tail) pos number first = .ok (next, number') ↔
      markerOption C data pos number first = .ok (next, number') := by
  rw [markerOption_eq_ok, markerOption_eq_ok]
  refine and_congr_right fun _ => and_congr_right fun _ => ?_
  constructor
  · rintro ⟨delta, pos₁, optLen, pos₂, hdelta, hlen, hnumber, -, heq, hnum⟩
    have hcursor := markerLength_cursor hlen
    exact ⟨delta, pos₁, optLen, pos₂,
      (markerDelta_append tail (by omega)).mp hdelta,
      (markerLength_append tail (by omega)).mp hlen, hnumber, hnext, heq, hnum⟩
  · rintro ⟨delta, pos₁, optLen, pos₂, hdelta, hlen, hnumber, hfit, heq, hnum⟩
    have hcursor := markerLength_cursor hlen
    exact ⟨delta, pos₁, optLen, pos₂,
      (markerDelta_append tail (by omega)).mpr hdelta,
      (markerLength_append tail (by omega)).mpr hlen, hnumber,
      by rw [List.length_append]; omega, heq, hnum⟩

/-- A marker behind `data` is the first one exactly when `data` is a run of
complete options. -/
theorem findPayloadMarkerFrom_append {data : Bytes} (tail : Bytes)
    {pos number : Nat} (hpos : pos ≤ data.length) :
    findPayloadMarkerFrom C (data ++ 0xFF :: tail) pos number =
        .ok (some data.length) ↔
      findPayloadMarkerFrom C data pos number = .ok none := by
  induction hsize : data.length - pos using Nat.strong_induction_on
    generalizing pos number with
  | _ size ih =>
    cases hfirst : data[pos]? with
    | none =>
        have hend := List.getElem?_eq_none_iff.mp hfirst
        have hmarker : (data ++ 0xFF :: tail)[pos]? = some 0xFF := by
          rw [Nat.le_antisymm hpos hend]
          simp
        rw [findPayloadMarkerFrom_end hfirst,
          findPayloadMarkerFrom_marker hmarker, Nat.le_antisymm hpos hend]
        exact iff_of_true rfl rfl
    | some first =>
        have hlt := (List.getElem?_eq_some_iff.mp hfirst).1
        have hlong : (data ++ 0xFF :: tail)[pos]? = some first := by
          rw [List.getElem?_append_left hlt, hfirst]
        by_cases hmarker : first = 0xFF
        · subst hmarker
          rw [findPayloadMarkerFrom_marker hfirst,
            findPayloadMarkerFrom_marker hlong]
          simp only [Except.ok.injEq, Option.some.injEq, reduceCtorEq,
            iff_false]
          omega
        · rw [findPayloadMarkerFrom_option hfirst hmarker,
            findPayloadMarkerFrom_option hlong hmarker,
            Outcome.bind_eq_ok, Outcome.bind_eq_ok]
          refine exists_congr fun next => ?_
          constructor
          · rintro ⟨hoption, h⟩
            have hle := (findPayloadMarkerFrom_eq_some h).1
            have hoption := (markerOption_append _ hle).mp hoption
            have hcursor := markerOption_cursor hoption
            exact ⟨hoption, (ih _ (by omega) hle rfl).mp h⟩
          · rintro ⟨hoption, h⟩
            have hcursor := markerOption_cursor hoption
            exact ⟨(markerOption_append _ hcursor.2).mpr hoption,
              (ih _ (by omega) hcursor.2 rfl).mpr h⟩

/-- The payload behind its marker, or nothing. -/
def markedPayload (payload : Bytes) : Bytes :=
  if payload = [] then [] else 0xFF :: payload

theorem innerPlaintext_eq (code : UInt8) (classEOptions payload : Bytes) :
    innerPlaintext code classEOptions payload =
      code :: (classEOptions ++ markedPayload payload) := rfl

theorem releaseBody_eq_ok {rest : Bytes} {body : HVec outCap × HVec outCap} :
    releaseBody C rest = .ok body ↔
      (findPayloadMarker C rest = .ok none ∧ body.1.toList = rest ∧
        body.2.toList = []) ∨
      ∃ pos, findPayloadMarker C rest = .ok (some pos) ∧
        body.2.toList ≠ [] ∧ body.1.toList = rest.take pos ∧
        body.2.toList = rest.drop (pos + 1) := by
  obtain ⟨options, payload⟩ := body
  cases hscan : findPayloadMarker C rest with
  | error fault => simp [releaseBody, hscan]
  | ok found =>
      cases found with
      | none =>
          simp only [releaseBody, hscan, Outcome.ok_bind, Outcome.pure_eq_ok,
            Outcome.bind_eq_ok, okOr_eq_ok, HVec.extend_eq_some,
            HVec.toList_empty, List.nil_append, Except.ok.injEq,
            Prod.mk.injEq]
          constructor
          · rintro ⟨_, hoptions, _, hpayload, rfl, rfl⟩
            exact Or.inl ⟨trivial, hoptions, hpayload⟩
          · rintro (⟨-, hoptions, hpayload⟩ | ⟨_, ⟨⟩, -⟩)
            exact ⟨options, hoptions, payload, hpayload, rfl, rfl⟩
      | some pos =>
          have hlt := (List.getElem?_eq_some_iff.mp
            (findPayloadMarkerFrom_eq_some hscan).2).1
          simp only [releaseBody, hscan, Outcome.ok_bind,
            sliceFrom_of_le (show pos + 1 ≤ rest.length from hlt),
            slice_of_le (Nat.zero_le pos) (Nat.le_of_lt hlt),
            Outcome.bind_eq_ok, failIf_eq_ok, okOr_eq_ok, HVec.extend_eq_some,
            HVec.toList_empty, List.nil_append, List.drop_zero,
            Outcome.pure_eq_ok, Except.ok.injEq, Prod.mk.injEq]
          constructor
          · rintro ⟨-, hne, _, hoptions, _, hpayload, rfl, rfl⟩
            refine Or.inr ⟨pos, rfl, ?_, hoptions, hpayload⟩
            rw [hpayload]
            exact hne
          · rintro (⟨h, -⟩ | ⟨_, ⟨⟩, hne, hoptions, hpayload⟩)
            · cases h
            · rw [hpayload] at hne
              exact ⟨(), hne, options, hoptions, payload, hpayload, rfl, rfl⟩

/-- What is released is the whole body: options, marker and payload. -/
theorem releaseBody_join {rest : Bytes} {body : HVec outCap × HVec outCap}
    (h : releaseBody C rest = .ok body) :
    rest = body.1.toList ++ markedPayload body.2.toList := by
  rcases releaseBody_eq_ok.mp h with ⟨-, hoptions, hpayload⟩ |
    ⟨pos, hscan, hne, hoptions, hpayload⟩
  · simp [hoptions, hpayload, markedPayload]
  · obtain ⟨hlt, hbyte⟩ := List.getElem?_eq_some_iff.mp
      (findPayloadMarkerFrom_eq_some hscan).2
    rw [markedPayload, if_neg hne, hoptions, hpayload]
    calc rest = rest.take pos ++ rest.drop pos :=
        (List.take_append_drop pos rest).symm
      _ = rest.take pos ++ 0xFF :: rest.drop (pos + 1) := by
        rw [List.drop_eq_getElem_cons hlt, hbyte]

/-- A body is released as it was written exactly when its options are a run of
complete options. -/
theorem releaseBody_eq_iff (options payload : HVec outCap) :
    releaseBody C (options.toList ++ markedPayload payload.toList) =
        .ok (options, payload) ↔
      findPayloadMarker C options.toList = .ok none := by
  by_cases hpayload : payload.toList = []
  · rw [markedPayload, if_pos hpayload, List.append_nil, releaseBody_eq_ok]
    simp [hpayload]
  · rw [markedPayload, if_neg hpayload, findPayloadMarker,
      ← findPayloadMarkerFrom_append payload.toList (Nat.zero_le _),
      releaseBody_eq_ok, findPayloadMarker]
    constructor
    · rintro (⟨-, -, h⟩ | ⟨pos, hscan, -, hoptions, -⟩)
      · exact absurd h hpayload
      · have hlt := (List.getElem?_eq_some_iff.mp
          (findPayloadMarkerFrom_eq_some hscan).2).1
        have hlength := congrArg List.length hoptions
        rw [List.length_take_of_le (Nat.le_of_lt hlt)] at hlength
        rw [hscan, hlength]
    · intro hscan
      refine Or.inr ⟨_, hscan, hpayload, by simp, ?_⟩
      rw [← List.length_singleton (a := (0xFF : UInt8)), ← List.length_append]
      simp

end Marker

/-! The two ends of an association. -/

namespace Material

variable {C : Crypto}

/-- The other end: IDs swapped, same keys. -/
structure Mirrors (material peer : Material C) : Prop where
  idContext : peer.idContext = material.idContext
  senderId : peer.senderId = material.recipientId
  recipientId : peer.recipientId = material.senderId
  senderKey : peer.senderKey = material.recipientKey
  recipientKey : peer.recipientKey = material.senderKey
  commonIv : peer.commonIv = material.commonIv

/-- The material of the peer, from the same secret and salt. -/
def mirror (material : Material C) : Material C where
  masterSecret := material.masterSecret
  masterSalt := material.masterSalt
  idContext := material.idContext
  senderId := material.recipientId
  recipientId := material.senderId
  senderKey := material.recipientKey
  recipientKey := material.senderKey
  commonIv := material.commonIv
  contextId := deriveContextId C material.masterSecret material.masterSalt
    material.idContext material.recipientId
  masterSalt_le := material.masterSalt_le
  idContext_le := material.idContext_le
  senderId_le := material.recipientId_le
  recipientId_le := material.senderId_le
  ids_ne := material.ids_ne.symm
  senderKey_eq := material.recipientKey_eq
  recipientKey_eq := material.senderKey_eq
  commonIv_eq := material.commonIv_eq
  contextId_eq := rfl

theorem mirrors_mirror (material : Material C) :
    material.Mirrors material.mirror :=
  ⟨rfl, rfl, rfl, rfl, rfl, rfl⟩

theorem Mirrors.symm {material peer : Material C}
    (h : material.Mirrors peer) : peer.Mirrors material :=
  ⟨h.idContext.symm, h.recipientId.symm, h.senderId.symm,
    h.recipientKey.symm, h.senderKey.symm, h.commonIv.symm⟩

end Material

namespace Context

variable {C : Crypto}

theorem requestOption_eq_ok {self : Context C} {piv : Bytes}
    {opt : HVec oscoreOptionMaxLen} :
    self.requestOption piv = .ok opt ↔
      opt.toList = requestFlags self.idContext.isSome piv.length ::
        (piv ++ (contextField self.idContext ++ self.senderId)) := by
  unfold requestOption contextField
  cases self.idContext with
  | none =>
      simp only [HVec.push, Outcome.pure_eq_ok, Outcome.ok_bind,
        HVec.okOr_extend, okOr_eq_ok, HVec.extend_eq_some]
      rfl
  | some bytes =>
      simp only [HVec.push, HVec.okOr_extend, okOr_eq_ok,
        HVec.extend_eq_some]
      simp [requestFlags]

theorem responseOption_eq_ok {piv : Bytes} {opt : HVec oscoreOptionMaxLen} :
    responseOption piv = .ok opt ↔
      opt.toList = (UInt8.ofNat piv.length &&& 0x07) :: piv := by
  simp only [responseOption, HVec.push, HVec.okOr_extend, okOr_eq_ok,
    HVec.extend_eq_some]
  rfl

/-- The option of a request always fits its buffer. -/
theorem exists_requestOption (self : Context C) (seq : OscoreSeqNum) :
    ∃ opt, self.requestOption seq.encodePiv = .ok opt := by
  have hcontext : (contextField self.idContext).length ≤
      1 + idContextCapacity := by
    have hle := self.idContext_le
    cases hcase : self.idContext with
    | none => exact Nat.zero_le _
    | some bytes =>
        rw [hcase, Option.getD_some] at hle
        rw [contextField, List.length_cons, Nat.add_comm]
        exact Nat.add_le_add_left hle 1
  have hpiv := seq.length_encodePiv_le
  have hsender := self.senderId_le
  have hfit : (requestFlags self.idContext.isSome seq.encodePiv.length ::
      (seq.encodePiv ++ (contextField self.idContext ++
        self.senderId))).length ≤ oscoreOptionMaxLen := by
    simp only [List.length_cons, List.length_append, oscoreOptionMaxLen,
      idContextCapacity, nonceIdLen, nonceIdEnd, pivMaxLen] at *
    omega
  exact ⟨⟨_, hfit⟩, requestOption_eq_ok.mpr rfl⟩

theorem exists_responseOption (seq : OscoreSeqNum) :
    ∃ opt, responseOption seq.encodePiv = .ok opt := by
  have hfit : ((UInt8.ofNat seq.encodePiv.length &&& 0x07) ::
      seq.encodePiv).length ≤ oscoreOptionMaxLen := by
    have hpiv := seq.length_encodePiv_le
    simp only [List.length_cons, oscoreOptionMaxLen, idContextCapacity,
      nonceIdLen, nonceIdEnd, pivMaxLen]
    omega
  exact ⟨⟨_, hfit⟩, responseOption_eq_ok.mpr rfl⟩

theorem protectRequestReserved_eq_ok {self : Context C} {seq : OscoreSeqNum}
    {code : UInt8} {classEOptions payload : Bytes} {message : Protected} :
    self.protectRequestReserved seq code classEOptions payload =
        .ok message ↔
      sealMessage C self.senderKey
          (computeNonce self.senderId seq.encodePiv self.commonIv)
          self.senderId seq.encodePiv code classEOptions payload =
        .ok message.1 ∧
      self.requestOption seq.encodePiv = .ok message.2 := by
  obtain ⟨ctOut, opt⟩ := message
  simp only [protectRequestReserved, Outcome.bind_eq_ok, Outcome.pure_eq_ok,
    Except.ok.injEq, Prod.mk.injEq]
  constructor
  · rintro ⟨_, hseal, _, hoption, rfl, rfl⟩
    exact ⟨hseal, hoption⟩
  · rintro ⟨hseal, hoption⟩
    exact ⟨ctOut, hseal, opt, hoption, rfl, rfl⟩

theorem protectResponseWithReservedPiv_eq_ok {self : Context C}
    {seq : OscoreSeqNum} {code : UInt8}
    {classEOptions payload requestKid requestPiv : Bytes}
    {message : Protected} :
    self.protectResponseWithReservedPiv seq code classEOptions payload
        requestKid requestPiv = .ok message ↔
      ¬ self.badRequest requestKid requestPiv ∧
      sealMessage C self.senderKey
          (computeNonce self.senderId seq.encodePiv self.commonIv)
          requestKid requestPiv code classEOptions payload = .ok message.1 ∧
      responseOption seq.encodePiv = .ok message.2 := by
  obtain ⟨ctOut, opt⟩ := message
  simp only [protectResponseWithReservedPiv, protectResponseWithPivInner,
    Outcome.bind_eq_ok, failIf_eq_ok, exists_const, Outcome.pure_eq_ok,
    Except.ok.injEq, Prod.mk.injEq]
  refine and_congr_right fun _ => ?_
  constructor
  · rintro ⟨_, hseal, _, hoption, rfl, rfl⟩
    exact ⟨hseal, hoption⟩
  · rintro ⟨hseal, hoption⟩
    exact ⟨ctOut, hseal, opt, hoption, rfl, rfl⟩

theorem sealResponse_eq_ok {self : Context C} {code : UInt8}
    {classEOptions payload requestKid requestPiv : Bytes} {includePiv : Bool}
    {noncePiv : Bytes} {message : Protected} :
    self.sealResponse code classEOptions payload requestKid requestPiv
        includePiv noncePiv = .ok message ↔
      sealMessage C self.senderKey
          (computeNonce (if includePiv then self.senderId else requestKid)
            noncePiv self.commonIv)
          requestKid requestPiv code classEOptions payload = .ok message.1 ∧
      (if includePiv then responseOption noncePiv else .ok HVec.empty) =
        .ok message.2 := by
  obtain ⟨ctOut, opt⟩ := message
  cases includePiv <;>
    simp only [sealResponse, Outcome.bind_eq_ok, Outcome.pure_eq_ok,
      Outcome.ok_bind, Except.ok.injEq, Prod.mk.injEq, ↓reduceIte,
      Bool.false_eq_true]
  · constructor
    · rintro ⟨_, hseal, rfl, rfl⟩
      exact ⟨hseal, rfl⟩
    · rintro ⟨hseal, rfl⟩
      exact ⟨ctOut, hseal, rfl, rfl⟩
  · constructor
    · rintro ⟨_, hseal, _, hoption, rfl, rfl⟩
      exact ⟨hseal, hoption⟩
    · rintro ⟨hseal, hoption⟩
      exact ⟨ctOut, hseal, opt, hoption, rfl, rfl⟩

/-- What the owner of the key sealed opens to its plaintext, as long as that
fits the receiver. -/
theorem opens_sealed_iff (haead : C.AeadCorrect) {self : Context C}
    {nonce : Nonce} {requestKid requestPiv : Bytes} {code code' : UInt8}
    {classEOptions payload : Bytes} {ctOut : HVec ctCap}
    {plaintext : HVec ptCap} {body : HVec outCap × HVec outCap}
    (hseal : sealMessage C self.recipientKey nonce requestKid requestPiv code
      classEOptions payload = .ok ctOut) :
    self.Opens nonce requestKid requestPiv ctOut.toList plaintext code' body ↔
      plaintext.toList = innerPlaintext code classEOptions payload ∧
        code' = code ∧
        releaseBody C (classEOptions ++ markedPayload payload) = .ok body := by
  have hrequired := ctRequired_of_sealMessage hseal
  rw [← length_innerPlaintext code] at hrequired
  obtain ⟨aad, ciphertext, tag, haad, hencrypt, hout⟩ :=
    sealMessage_eq_ok.mp hseal
  obtain ⟨_, _, hencrypt', hdecrypt⟩ := haead self.recipientKey nonce
    aad.toList (innerPlaintext code classEOptions payload) (by
      simp only [ctCap, tagLen] at hrequired
      omega)
  rw [hencrypt] at hencrypt'
  cases hencrypt'
  constructor
  · rintro ⟨aad', rest, haad', hopen, hplain, hbody⟩
    rw [haad] at haad'
    cases haad'
    obtain ⟨ciphertext', tag', hsplit, -, hopened⟩ := openMessage_eq_ok.mp hopen
    obtain ⟨rfl, htag⟩ := List.append_inj' (hout.symm.trans hsplit)
      (tag.property.trans tag'.property.symm)
    rw [← Subtype.ext htag, hdecrypt, Option.some.injEq, hplain,
      innerPlaintext_eq, List.cons.injEq] at hopened
    refine ⟨?_, hopened.1.symm, ?_⟩
    · rw [hplain, innerPlaintext_eq, hopened.1, hopened.2]
    · rw [hopened.2, hbody]
  · rintro ⟨hplain, rfl, hbody⟩
    refine ⟨aad, classEOptions ++ markedPayload payload, haad,
      openMessage_eq_ok.mpr ⟨ciphertext, tag, hout, ?_, ?_⟩, hplain, hbody⟩
    · rw [C.ccmEncrypt_length _ _ _ _ _ _ hencrypt, ← hplain]
      exact plaintext.length_le
    · rw [hdecrypt, hplain]

/-- Whatever fits the output buffer can be sealed. -/
theorem exists_sealMessage (haead : C.AeadCorrect) (key : Key) (nonce : Nonce)
    {requestKid requestPiv : Bytes} (hfits : FitsAad requestKid requestPiv)
    (code : UInt8) {classEOptions payload : Bytes}
    (hrequired : ctRequired classEOptions payload ≤ ctCap) :
    ∃ ctOut, sealMessage C key nonce requestKid requestPiv code classEOptions
      payload = .ok ctOut := by
  rw [← length_innerPlaintext code] at hrequired
  obtain ⟨aad, haad, -⟩ := buildAadCbor_of_fits hfits
  obtain ⟨body, tag, hencrypt, -⟩ := haead key nonce aad.toList
    (innerPlaintext code classEOptions payload) (by
      simp only [ctCap, tagLen] at hrequired
      omega)
  have hfit : (body ++ tag.val).length ≤ ctCap := by
    rw [List.length_append, tag.property,
      C.ccmEncrypt_length _ _ _ _ _ _ hencrypt]
    exact hrequired
  exact ⟨⟨body ++ tag.val, hfit⟩,
    sealMessage_eq_ok.mpr ⟨aad, body, tag, haad, hencrypt, rfl⟩⟩

end Context

end Oscore
