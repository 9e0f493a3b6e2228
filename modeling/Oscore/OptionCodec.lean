/-
The option value as a grammar: the parser accepts it and nothing else, a parsed
record stands for one string, and the three encoders write what is parsed back.
-/
import Oscore.RoundTrip
import Oscore.Store

namespace Oscore

open Rust Rust.Call

/-- No byte of a PIV could be left out in front. -/
def MinimalPiv (piv : Bytes) : Prop := piv.length > 1 → piv.head? ≠ some 0

theorem isSome_fromPiv {piv : Bytes} :
    (OscoreSeqNum.fromPiv piv).isSome = true ↔
      piv ≠ [] ∧ piv.length ≤ pivMaxLen ∧ MinimalPiv piv := by
  unfold OscoreSeqNum.fromPiv
  split
  · rename_i hbad
    refine iff_of_false (by simp) ?_
    rintro ⟨hne, hle, hminimal⟩
    rcases hbad with hnil | hlong | ⟨hlen, hzero⟩
    · exact hne hnil
    · exact absurd hle (Nat.not_le.mpr hlong)
    · exact hminimal hlen hzero
  · rename_i hgood
    obtain ⟨hne, hlong, hminimal⟩ : piv ≠ [] ∧ ¬ piv.length > 5 ∧
        ¬ (piv.length > 1 ∧ piv.head? = some 0) := by
      simpa only [not_or] using hgood
    have hle : piv.length ≤ 5 := Nat.not_lt.mp hlong
    refine iff_of_true ?_ ⟨hne, hle, fun hlen hzero => hminimal ⟨hlen, hzero⟩⟩
    have hlt := OscoreSeqNum.bigEndian_lt piv
    have hpow : 256 ^ piv.length ≤ 256 ^ 5 :=
      Nat.pow_le_pow_right (by decide) hle
    have hfit : OscoreSeqNum.bigEndian piv ≤ seqMax :=
      Nat.le_sub_one_of_lt (Nat.lt_of_lt_of_le hlt hpow)
    rw [OscoreSeqNum.fold_eq_bigEndian, OscoreSeqNum.new, dif_pos hfit]
    rfl

/-- The flags of an option say which fields stand behind them. -/
structure Layout (flags : UInt8) (piv : Bytes) (context : Option Bytes)
    (kid : Bytes) : Prop where
  reserved : flags &&& 0xe0 = 0
  piv_length : piv.length = (flags &&& 0x07).toNat
  piv_le : piv.length ≤ pivMaxLen
  minimal : MinimalPiv piv
  context_flag : context.isSome = decide (flags &&& 0x10 ≠ 0)
  context_le : (context.getD []).length ≤ idContextCapacity
  kid_le : kid.length ≤ nonceIdLen
  kid_flag : flags &&& 0x08 = 0 → kid = []

/-- The grammar of option values, and the records they are parsed to. -/
inductive OptionValue : Bytes → OscoreOption → Prop
  | empty : OptionValue [] ⟨[], [], false, [], false⟩
  | fields {flags : UInt8} {piv : Bytes} {context : Option Bytes} {kid : Bytes}
      (layout : Layout flags piv context kid)
      (hne : flags :: (piv ++ (contextField context ++ kid)) ≠ [0]) :
      OptionValue (flags :: (piv ++ (contextField context ++ kid)))
        ⟨piv, context.getD [], context.isSome, kid,
          decide (flags &&& 0x08 ≠ 0)⟩

theorem parsePiv_eq_ok {flags : UInt8} {rest piv : Bytes} {n pos : Nat} :
    parsePiv (flags :: rest) n = .ok (piv, pos) ↔
      ∃ behind, rest = piv ++ behind ∧ piv.length = n ∧ n ≤ pivMaxLen ∧
        MinimalPiv piv ∧ pos = 1 + n := by
  unfold parsePiv
  split
  · rename_i hpos
    simp only [Outcome.bind_eq_ok, failIf_eq_ok, exists_const,
      Outcome.pure_eq_ok, Except.ok.injEq, Prod.mk.injEq, not_or, Nat.not_lt,
      slice_eq_ok, List.length_cons, Option.isNone_iff_eq_none]
    constructor
    · rintro ⟨⟨hle, hfit⟩, _, ⟨-, -, rfl⟩, hsome, rfl, rfl⟩
      have hpart : (List.take (1 + n) (flags :: rest)).drop 1 =
          rest.take n := by
        rw [Nat.add_comm, List.take_succ_cons, List.drop_succ_cons,
          List.drop_zero]
      rw [hpart] at hsome ⊢
      have hlen : (rest.take n).length = n :=
        List.length_take_of_le (by omega)
      have hminimal := (isSome_fromPiv.mp
        (Option.isSome_iff_ne_none.mpr hsome)).2.2
      exact ⟨rest.drop n, (List.take_append_drop n rest).symm, hlen, hle,
        hminimal, rfl⟩
    · rintro ⟨behind, rfl, rfl, hle, hminimal, rfl⟩
      have hsome := isSome_fromPiv.mpr
        ⟨List.length_pos_iff.mp hpos, hle, hminimal⟩
      refine ⟨⟨hle, ?_⟩, piv, ⟨Nat.le_add_right _ _, ?_, ?_⟩,
        Option.isSome_iff_ne_none.mp hsome, rfl, rfl⟩
      · rw [List.length_append]
        omega
      · rw [List.length_append]
        omega
      · rw [Nat.add_comm, List.take_succ_cons, List.drop_succ_cons,
          List.drop_zero, List.take_left]
  · rename_i hzero
    simp only [Outcome.pure_eq_ok, Except.ok.injEq, Prod.mk.injEq]
    have hn : n = 0 := by omega
    subst hn
    constructor
    · rintro ⟨rfl, rfl⟩
      exact ⟨rest, rfl, rfl, Nat.zero_le _, by simp [MinimalPiv], rfl⟩
    · rintro ⟨behind, rfl, hlen, -, -, rfl⟩
      exact ⟨(List.length_eq_zero_iff.mp hlen).symm, rfl⟩

theorem parseKidContext_eq_ok {before rest context : Bytes} {hFlag : Bool}
    {pos : Nat} :
    parseKidContext (before ++ rest) before.length hFlag =
        .ok (context, pos) ↔
      ∃ field behind, rest = contextField field ++ behind ∧
        field.isSome = hFlag ∧ (field.getD []).length ≤ idContextCapacity ∧
        context = field.getD [] ∧
        pos = (before ++ contextField field).length := by
  constructor
  · intro h
    cases hFlag with
    | false =>
        simp only [parseKidContext, Bool.false_eq_true, ↓reduceIte,
          Outcome.pure_eq_ok, Except.ok.injEq, Prod.mk.injEq] at h
        obtain ⟨rfl, rfl⟩ := h
        exact ⟨none, rest, rfl, rfl, Nat.zero_le _, rfl, by
          rw [contextField, List.append_nil]⟩
    | true =>
        simp only [parseKidContext, ↓reduceIte, Outcome.bind_eq_ok,
          failIf_eq_ok, exists_const, index_eq_ok, slice_eq_ok,
          Outcome.pure_eq_ok, Except.ok.injEq, Prod.mk.injEq, not_or,
          Nat.not_lt, Nat.not_le] at h
        obtain ⟨hstart, byte, hbyte, ⟨hle, hfit⟩, _, ⟨-, -, rfl⟩, rfl, rfl⟩ :=
          h
        rw [List.getElem?_append_right (le_refl _), Nat.sub_self] at hbyte
        cases rest with
        | nil => cases hbyte
        | cons first rest =>
            cases Option.some.inj hbyte
            simp only [List.length_append, List.length_cons] at hfit
            have hlen : (rest.take byte.toNat).length = byte.toNat :=
              List.length_take_of_le (by omega)
            have hpart : ((before ++ byte :: rest).take
                (before.length + 1 + byte.toNat)).drop (before.length + 1) =
                  rest.take byte.toNat := by
              rw [List.drop_take, Nat.add_sub_cancel_left, ← List.drop_drop,
                List.drop_left]
              rfl
            refine ⟨some (rest.take byte.toNat), rest.drop byte.toNat, ?_, rfl,
              ?_, hpart, ?_⟩
            · rw [contextField, hlen, UInt8.ofNat_toNat, List.cons_append,
                List.take_append_drop]
            · rw [Option.getD_some, hlen]
              exact hle
            · rw [contextField, List.length_append, List.length_cons, hlen]
              omega
  · rintro ⟨field, behind, rfl, rfl, hle, rfl, rfl⟩
    exact parseKidContext_contextField before hle behind

theorem parseKid_eq_ok {before rest kid : Bytes} {kFlag : Bool} :
    parseKid (before ++ rest) before.length kFlag = .ok kid ↔
      kid = rest ∧ rest.length ≤ nonceIdLen ∧ (kFlag = false → rest = []) := by
  cases kFlag with
  | true =>
      simp only [parseKid, ↓reduceIte, sliceFrom_append, Outcome.ok_bind,
        Outcome.bind_eq_ok, failIf_eq_ok, exists_const, Outcome.pure_eq_ok,
        Except.ok.injEq, Nat.not_lt, reduceCtorEq, false_imp_iff, and_true]
      constructor
      · rintro ⟨hle, rfl⟩
        exact ⟨rfl, hle⟩
      · rintro ⟨rfl, hle⟩
        exact ⟨hle, rfl⟩
  | false =>
      simp only [parseKid, Bool.false_eq_true, ↓reduceIte, Outcome.bind_eq_ok,
        failIf_eq_ok, exists_const, Outcome.pure_eq_ok, Except.ok.injEq,
        not_not, List.length_append, forall_const]
      constructor
      · rintro ⟨hend, rfl⟩
        have hrest : rest = [] := List.length_eq_zero_iff.mp (by omega)
        exact ⟨hrest.symm, hrest ▸ Nat.zero_le _, hrest⟩
      · rintro ⟨rfl, -, rfl⟩
        exact ⟨rfl, rfl⟩

/-- The parser accepts the grammar and nothing else. -/
theorem parseOption_eq_ok {data : Bytes} {opt : OscoreOption} :
    parseOption data = .ok opt ↔ OptionValue data opt := by
  constructor
  · intro h
    unfold parseOption at h
    split at h
    · rename_i hnil
      cases Except.ok.inj h
      rw [hnil]
      exact .empty
    split at h
    · cases h
    rename_i hnil hne
    obtain ⟨flags, rest, rfl⟩ := List.exists_cons_of_ne_nil hnil
    simp only [index_zero_cons, Outcome.ok_bind, Outcome.bind_eq_ok,
      failIf_eq_ok, exists_const, not_not, Prod.exists, Outcome.pure_eq_ok,
      Except.ok.injEq] at h
    obtain ⟨hreserved, piv, _, hpiv, context, _, hcontext, kid, hkid, rfl⟩ := h
    obtain ⟨behind, rfl, hlen, hle, hminimal, rfl⟩ := parsePiv_eq_ok.mp hpiv
    have hbefore : 1 + (flags &&& 0x07).toNat = (flags :: piv).length := by
      rw [← hlen, List.length_cons, Nat.add_comm]
    rw [hbefore, ← List.cons_append, parseKidContext_eq_ok] at hcontext
    obtain ⟨field, behind, rfl, hflag, hcontextLe, rfl, rfl⟩ := hcontext
    rw [← List.cons_append, ← List.append_assoc, parseKid_eq_ok] at hkid
    obtain ⟨rfl, hkidLe, hempty⟩ := hkid
    have layout : Layout flags piv field kid :=
      ⟨hreserved, hlen, hlen ▸ hle, hminimal, hflag, hcontextLe, hkidLe,
        fun hbit => hempty (by simp [hbit])⟩
    have hvalue := OptionValue.fields layout hne
    rw [hflag] at hvalue
    exact hvalue
  · intro h
    cases h with
    | empty => rfl
    | fields layout hne =>
        rename_i flags piv field kid
        have hpiv : parsePiv (flags :: (piv ++ (contextField field ++ kid)))
            (flags &&& 0x07).toNat = .ok (piv, (flags :: piv).length) := by
          rw [parsePiv_eq_ok]
          refine ⟨_, rfl, layout.piv_length, layout.piv_length ▸ layout.piv_le,
            layout.minimal, ?_⟩
          rw [← layout.piv_length, List.length_cons, Nat.add_comm]
        have hcontext := parseKidContext_contextField (flags :: piv)
          layout.context_le kid
        have hkid : parseKid ((flags :: piv) ++ contextField field ++ kid)
            ((flags :: piv) ++ contextField field).length
              (decide (flags &&& 0x08 ≠ 0)) = .ok kid := by
          rw [parseKid_eq_ok]
          refine ⟨rfl, layout.kid_le, fun hbit => layout.kid_flag ?_⟩
          simpa using hbit
        rw [layout.context_flag] at hcontext
        rw [List.append_assoc] at hkid
        rw [List.cons_append] at hcontext hkid
        rw [parseOption, if_neg (List.cons_ne_nil _ _), if_neg hne]
        simp only [index_zero_cons, Outcome.ok_bind,
          failIf_of_not _ (not_not.mpr layout.reserved), hpiv, hcontext, hkid,
          layout.context_flag]
        rfl

/-- The flags are made of their bits. -/
theorem flags_eq {flags : UInt8} : flags &&& 0xe0 = 0 →
    flags = (if flags &&& 0x10 ≠ 0 then 0x10 else 0) |||
      (if flags &&& 0x08 ≠ 0 then 0x08 else 0) |||
      UInt8.ofNat (flags &&& 0x07).toNat := by
  revert flags
  apply forall_byte
  decide +kernel

/-- The record of an option without fields. -/
def OscoreOption.absent : OscoreOption := ⟨[], [], false, [], false⟩

/-- The string that a record stands for. -/
def OscoreOption.encode (opt : OscoreOption) : Bytes :=
  if opt = .absent then []
  else
    ((if opt.kidContextPresent then 0x10 else 0) |||
        (if opt.kidPresent then 0x08 else 0) |||
        UInt8.ofNat opt.piv.length) ::
      (opt.piv ++ (contextField
        (if opt.kidContextPresent then some opt.kidContext else none) ++
          opt.kid))

/-- A parsed record stands for the string it was parsed from. -/
theorem OptionValue.eq_encode {data : Bytes} {opt : OscoreOption}
    (h : OptionValue data opt) : data = opt.encode := by
  cases h with
  | empty => exact (if_pos rfl).symm
  | fields layout hne =>
      rename_i flags piv field kid
      have hflags := flags_eq layout.reserved
      have hfield : (if field.isSome = true then some (field.getD []) else
          none) = field := by
        cases field <;> rfl
      have hbits : (if field.isSome = true then (0x10 : UInt8) else 0) =
          if flags &&& 0x10 ≠ 0 then 0x10 else 0 := by
        rw [layout.context_flag]
        simp only [decide_eq_true_eq]
      rw [← layout.piv_length] at hflags
      rw [OscoreOption.encode, if_neg]
      · simp only [hfield, hbits, decide_eq_true_eq]
        rw [← hflags]
      · intro habsent
        simp only [OscoreOption.absent, OscoreOption.mk.injEq] at habsent
        obtain ⟨rfl, -, hcontext, rfl, hkid⟩ := habsent
        rw [Option.isSome_eq_false_iff, Option.isNone_iff_eq_none] at hcontext
        subst hcontext
        have hcontextBit : ¬ flags &&& 0x10 ≠ 0 := by
          simpa using layout.context_flag
        have hkidBit : ¬ flags &&& 0x08 ≠ 0 := by simpa using hkid
        rw [if_neg hcontextBit, if_neg hkidBit] at hflags
        exact hne (by rw [hflags]; rfl)

/-! The encoders. -/

variable {C : Crypto}

theorem Context.requestOption_parses {self : Context C} {seq : OscoreSeqNum}
    {opt : HVec oscoreOptionMaxLen}
    (h : self.requestOption seq.encodePiv = .ok opt) :
    parseOption opt.toList = .ok ⟨seq.encodePiv, self.idContext.getD [],
      self.idContext.isSome, self.senderId, true⟩ := by
  rw [Context.requestOption_eq_ok.mp h]
  exact parseOption_request seq self.idContext_le self.senderId_le

theorem Context.responseOption_parses {seq : OscoreSeqNum}
    {opt : HVec oscoreOptionMaxLen}
    (h : Context.responseOption seq.encodePiv = .ok opt) :
    parseOption opt.toList = .ok ⟨seq.encodePiv, [], false, [], false⟩ := by
  rw [Context.responseOption_eq_ok.mp h]
  exact parseOption_response seq

theorem Context.length_requestOption {self : Context C} {seq : OscoreSeqNum}
    {opt : HVec oscoreOptionMaxLen}
    (h : self.requestOption seq.encodePiv = .ok opt) :
    opt.toList.length = 1 + seq.encodePiv.length +
      (contextField self.idContext).length + self.senderId.length := by
  rw [Context.requestOption_eq_ok.mp h, List.length_cons, List.length_append,
    List.length_append]
  omega

theorem Context.nextRequestOptionLen_eq_ok {self : Context C} {n : Nat} :
    self.nextRequestOptionLen = .ok n ↔
      self.active = true ∧ self.senderSeqExhausted = false ∧
        n = 1 + self.senderSeq.encodePiv.length +
          (contextField self.idContext).length + self.senderId.length := by
  simp only [Context.nextRequestOptionLen, Outcome.bind_eq_ok, failIf_eq_ok,
    exists_const, Outcome.pure_eq_ok, Except.ok.injEq, not_or,
    Bool.not_eq_false, Bool.not_eq_true, and_assoc, contextField]
  cases self.idContext with
  | none => exact and_congr_right fun _ => and_congr_right fun _ => eq_comm
  | some bytes =>
      simp only [List.length_cons]
      refine and_congr_right fun _ => and_congr_right fun _ => ?_
      rw [Nat.add_comm 1 bytes.length]
      exact eq_comm

/-- The codec of the option value. -/
structure OptionCodec (C : Crypto) : Prop where
  accepts : ∀ data opt, parseOption data = .ok opt ↔ OptionValue data opt
  determines : ∀ data data' opt, parseOption data = .ok opt →
    parseOption data' = .ok opt → data = data'
  /-- A request names its sequence, its sender and its ID context. -/
  request : ∀ (self : Context C) (seq : OscoreSeqNum) code classEOptions
    payload message,
    self.protectRequestReserved seq code classEOptions payload =
        .ok message →
      parseOption message.2.toList = .ok ⟨seq.encodePiv,
          self.idContext.getD [], self.idContext.isSome, self.senderId,
          true⟩ ∧
        OscoreSeqNum.fromPiv seq.encodePiv = some seq
  /-- The option of a request always fits. -/
  fits : ∀ (self : Context C) (seq : OscoreSeqNum),
    ∃ opt, self.requestOption seq.encodePiv = .ok opt
  /-- Its length is the one that was announced before the reservation. -/
  announced : ∀ {σ ε : Type} (S : ContextStateStore σ ε) (s t : σ)
    (self self' : Context C) n sender code classEOptions payload message,
    self.nextRequestOptionLen = .ok n →
    (Context.reserveSender S).run (self, s) = .ok sender (self', t) →
    sender.protectRequest self' code classEOptions payload = .ok message →
      message.2.toList.length = n
  /-- A response carries a PIV of its own, or nothing. -/
  response : ∀ (self after : Context C) code classEOptions payload requestKid
    requestPiv includePiv message,
    (Context.protectResponse code classEOptions payload requestKid requestPiv
        includePiv).run self = .ok message after →
      parseOption message.2.toList = .ok (if includePiv = true then
        ⟨self.senderSeq.encodePiv, [], false, [], false⟩ else .absent)
  reservedResponse : ∀ (self : Context C) (sender : ReservedSender) code
    classEOptions payload requestKid requestPiv message,
    sender.protectResponseWithPiv self code classEOptions payload requestKid
        requestPiv = .ok message →
      parseOption message.2.toList =
        .ok ⟨sender.sequence.encodePiv, [], false, [], false⟩

/-- The option codec is exact. -/
theorem optionCodec_exact (C : Crypto) : OptionCodec C where
  accepts _ _ := parseOption_eq_ok
  determines data data' opt h h' := by
    rw [(parseOption_eq_ok.mp h).eq_encode, (parseOption_eq_ok.mp h').eq_encode]
  request self seq code classEOptions payload message h := by
    obtain ⟨-, hoption⟩ := Context.protectRequestReserved_eq_ok.mp h
    exact ⟨Context.requestOption_parses hoption,
      OscoreSeqNum.fromPiv_encodePiv seq⟩
  fits := Context.exists_requestOption
  announced S s t self self' n sender code classEOptions payload message hlen
      hreserve h := by
    obtain ⟨-, -, rfl⟩ := Context.nextRequestOptionLen_eq_ok.mp hlen
    obtain ⟨-, -, -, rfl, rfl⟩ := Context.reserveSender_eq_ok.mp hreserve
    obtain ⟨-, hoption⟩ := Context.protectRequestReserved_eq_ok.mp h
    exact Context.length_requestOption hoption
  response self after code classEOptions payload requestKid requestPiv
      includePiv message h := by
    obtain ⟨-, -, ⟨rfl, -, hseal, -⟩ | ⟨rfl, _, -, hseal, -⟩⟩ :=
      Context.protectResponse_eq_ok.mp h
    · obtain ⟨-, hoption⟩ := Context.sealResponse_eq_ok.mp hseal
      exact Context.responseOption_parses hoption
    · obtain ⟨-, hoption⟩ := Context.sealResponse_eq_ok.mp hseal
      rw [← Except.ok.inj hoption]
      rfl
  reservedResponse self sender code classEOptions payload requestKid requestPiv
      message h := by
    obtain ⟨-, -, hoption⟩ :=
      Context.protectResponseWithReservedPiv_eq_ok.mp h
    exact Context.responseOption_parses hoption

end Oscore
