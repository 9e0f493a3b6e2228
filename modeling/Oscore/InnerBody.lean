/-
The two scanners of an inner CoAP body against its grammar.  The sender's
accepts the grammar and nothing else; the receiver's is the same scan except
where a delta does not fit its 16-bit arithmetic.
-/
import Oscore.Lib.Coap
import Oscore.RoundTrip

namespace Oscore

open Rust Coap

variable {C : Crypto}

/-! One round of the sender's loop. -/

theorem innerBodyFrom_end {data : Bytes} {pos number : Nat}
    (h : data[pos]? = none) : innerBodyFrom data pos number = .ok (data, []) := by
  rw [innerBodyFrom]
  split
  · rfl
  · simp_all

theorem innerBodyFrom_marker {data : Bytes} {pos number : Nat}
    (h : data[pos]? = some 0xFF) :
    innerBodyFrom data pos number =
      if pos + 1 = data.length then throw (.err .invalidParam)
      else return (data.take pos, data.drop (pos + 1)) := by
  rw [innerBodyFrom]
  split
  · simp_all
  · rename_i first hfirst
    rw [h, Option.some.injEq] at hfirst
    rw [if_pos hfirst.symm]

theorem innerBodyFrom_option {data : Bytes} {pos number : Nat}
    {header : UInt8} (h : data[pos]? = some header) (hne : header ≠ 0xFF) :
    innerBodyFrom data pos number =
      (innerOption data (pos + 1) number header >>= fun next =>
        innerBodyFrom data next.1 next.2) := by
  rw [innerBodyFrom]
  split
  · simp_all
  · rename_i header' hheader
    rw [h, Option.some.injEq] at hheader
    subst hheader
    rw [if_neg hne]
    split
    · rename_i fault hoption
      rw [hoption]
      rfl
    · rename_i next number' hoption
      rw [hoption]
      rfl

theorem highNibble_and (byte : UInt8) :
    (byte >>> 4) &&& (0x0F : UInt8) = byte >>> 4 := by
  have hall : ∀ k : Fin 256, (UInt8.ofNat k >>> 4) &&& (0x0F : UInt8) =
      UInt8.ofNat k >>> 4 := by decide +kernel
  have hbyte := hall ⟨byte.toNat, byte.toNat_lt⟩
  rwa [UInt8.ofNat_toNat] at hbyte

/-- The three forms the sender's nibble decoder knows. -/
theorem decodeNibble_forms {data : Bytes} {pos value next : Nat}
    {nibble : UInt8} (h : decodeNibble data pos nibble = .ok (value, next)) :
    (nibble ≤ 12 ∧ value = nibble.toNat ∧ next = pos) ∨
      (nibble = 13 ∧ ∃ byte, data[pos]? = some byte ∧
        value = byte.toNat + 13 ∧ next = pos + 1) ∨
      (nibble = 14 ∧ ∃ high low, data[pos]? = some high ∧
        data[pos + 1]? = some low ∧
        value = high.toNat * 256 + low.toNat + 269 ∧ next = pos + 2) := by
  unfold decodeNibble at h
  split at h
  · rename_i hle
    simp only [Outcome.pure_eq_ok, Except.ok.injEq, Prod.mk.injEq] at h
    exact Or.inl ⟨hle, h.1.symm, h.2.symm⟩
  split at h
  · rename_i h13
    obtain ⟨byte, hbyte, h⟩ := Outcome.bind_eq_ok.mp h
    simp only [Outcome.pure_eq_ok, Except.ok.injEq, Prod.mk.injEq] at h
    exact Or.inr (Or.inl ⟨h13, byte, okOr_eq_ok.mp hbyte,
      by rw [← h.1, Nat.add_comm], h.2.symm⟩)
  split at h
  · rename_i h14
    obtain ⟨high, hhigh, h⟩ := Outcome.bind_eq_ok.mp h
    obtain ⟨low, hlow, h⟩ := Outcome.bind_eq_ok.mp h
    simp only [Outcome.pure_eq_ok, Except.ok.injEq, Prod.mk.injEq] at h
    exact Or.inr (Or.inr ⟨h14, high, low, okOr_eq_ok.mp hhigh,
      okOr_eq_ok.mp hlow, by rw [← h.1, Nat.add_comm], h.2.symm⟩)
  · cases h

/-- Every failure of the sender's scan is `InvalidParam`. -/
theorem decodeNibble_eq_error {data : Bytes} {pos : Nat} {nibble : UInt8}
    {fault : Fault OscoreError}
    (h : decodeNibble data pos nibble = .error fault) :
    fault = .err .invalidParam := by
  unfold decodeNibble at h
  split at h
  · cases h
  split at h
  · rcases Outcome.bind_eq_error.mp h with h | ⟨_, _, h⟩
    · exact (okOr_eq_error.mp h).2
    · cases h
  split at h
  · rcases Outcome.bind_eq_error.mp h with h | ⟨_, _, h⟩
    · exact (okOr_eq_error.mp h).2
    rcases Outcome.bind_eq_error.mp h with h | ⟨_, _, h⟩
    · exact (okOr_eq_error.mp h).2
    · cases h
  · cases h
    rfl

theorem innerOption_eq_error {data : Bytes} {pos number : Nat}
    {header : UInt8} {fault : Fault OscoreError}
    (h : innerOption data pos number header = .error fault) :
    fault = .err .invalidParam := by
  rcases Outcome.bind_eq_error.mp h with h | ⟨⟨delta, pos₁⟩, -, h⟩
  · exact decodeNibble_eq_error h
  rcases Outcome.bind_eq_error.mp h with h | ⟨⟨length, pos₂⟩, -, h⟩
  · exact decodeNibble_eq_error h
  simp only [Outcome.bind_eq_error, failIf_eq_error, Outcome.pure_eq_ok,
    reduceCtorEq, and_false, exists_const, or_false] at h
  rcases h with h | ⟨_, -, h | ⟨_, -, h⟩⟩
  · exact h.2
  · exact h.2
  · exact h.2

theorem innerBodyFrom_eq_error {data : Bytes} {pos number : Nat}
    {fault : Fault OscoreError}
    (h : innerBodyFrom data pos number = .error fault) :
    fault = .err .invalidParam := by
  induction hsize : data.length - pos using Nat.strong_induction_on
    generalizing pos number with
  | _ size ih =>
    cases hheader : data[pos]? with
    | none =>
        rw [innerBodyFrom_end hheader] at h
        cases h
    | some header =>
        have hlt := (List.getElem?_eq_some_iff.mp hheader).1
        by_cases hmarker : header = 0xFF
        · subst hmarker
          rw [innerBodyFrom_marker hheader] at h
          split at h
          · cases h
            rfl
          · cases h
        · rw [innerBodyFrom_option hheader hmarker] at h
          rcases Outcome.bind_eq_error.mp h with h | ⟨next, hoption, h⟩
          · exact innerOption_eq_error h
          · have hcursor := innerOption_cursor hoption
            exact ih _ (by omega) h rfl

/-! The grammar of the sender. -/

theorem singleton_prefix_drop {data : Bytes} {pos : Nat} {byte : UInt8} :
    [byte] <+: data.drop pos ↔ data[pos]? = some byte := by
  rw [List.prefix_iff_getElem?]
  simp

theorem pair_prefix_drop {data : Bytes} {pos : Nat} {high low : UInt8} :
    [high, low] <+: data.drop pos ↔
      data[pos]? = some high ∧ data[pos + 1]? = some low := by
  rw [← List.singleton_append, append_prefix_iff, List.drop_drop,
    List.length_singleton, singleton_prefix_drop, singleton_prefix_drop]

/-- What the decoder accepts is a field with the bytes that complete it. -/
theorem field_of_decodeNibble {data : Bytes} {pos value next : Nat}
    {nib : UInt8} (h : decodeNibble data pos nib = .ok (value, next)) :
    value ≤ fieldMax ∧ nib.toNat = nibble value ∧
      extension value <+: data.drop pos ∧
      next = pos + (extension value).length := by
  rcases decodeNibble_forms h with ⟨hle, rfl, rfl⟩ |
    ⟨rfl, byte, hbyte, rfl, rfl⟩ | ⟨rfl, high, low, hhigh, hlow, rfl, rfl⟩
  · have hle : nib.toNat ≤ 12 := hle
    have hform : extension nib.toNat = [] := if_pos hle
    refine ⟨Nat.le_trans hle (by decide), (if_pos hle).symm, ?_, ?_⟩ <;>
      simp [hform]
  · have hlt := byte.toNat_lt
    have hform : extension (byte.toNat + 13) = [byte] := by
      rw [extension, if_neg (by omega), if_pos (by omega),
        Nat.add_sub_cancel, UInt8.ofNat_toNat]
    refine ⟨?_, ?_, ?_, ?_⟩
    · simp only [fieldMax]
      omega
    · rw [nibble, if_neg (by omega), if_pos (by omega)]
      rfl
    · rw [hform, singleton_prefix_drop, hbyte]
    · rw [hform]
      rfl
  · have hhigh' := high.toNat_lt
    have hlow' := low.toNat_lt
    have hform : extension (high.toNat * 256 + low.toNat + 269) =
        [high, low] := by
      have hdiv : (high.toNat * 256 + low.toNat) / 256 = high.toNat := by
        omega
      have hmod : (high.toNat * 256 + low.toNat) % 256 = low.toNat := by
        omega
      rw [extension, if_neg (by omega), if_neg (by omega),
        Nat.add_sub_cancel, hdiv, hmod, UInt8.ofNat_toNat,
        UInt8.ofNat_toNat]
    refine ⟨?_, ?_, ?_, ?_⟩
    · simp only [fieldMax]
      omega
    · rw [nibble, if_neg (by omega), if_neg (by omega)]
      rfl
    · rw [hform, pair_prefix_drop]
      exact ⟨hhigh, hlow⟩
    · rw [hform]
      rfl

/-- The decoder reads a field back. -/
theorem decodeNibble_field {data : Bytes} {pos value : Nat} {nib : UInt8}
    (hmax : value ≤ fieldMax) (hnib : nib.toNat = nibble value)
    (hbytes : extension value <+: data.drop pos) :
    decodeNibble data pos nib = .ok (value, pos + (extension value).length) := by
  simp only [fieldMax] at hmax
  rcases field_forms value with ⟨h, hn, hx⟩ | ⟨h, hn, hx⟩ | ⟨h, hn, hx⟩ <;>
    rw [hn] at hnib <;> rw [hx] at hbytes ⊢
  · have hle : nib ≤ 12 := by
      rw [UInt8.le_iff_toNat_le, hnib]
      exact h
    rw [decodeNibble, if_pos hle, hnib]
    rfl
  · have hnib : nib = 13 := UInt8.toNat_inj.mp hnib
    have hbyte := singleton_prefix_drop.mp hbytes
    have hvalue : 13 + (UInt8.ofNat (value - 13)).toNat = value := by
      rw [UInt8.toNat_ofNat']
      omega
    subst hnib
    change (okOr data[pos]? _ >>= fun value => _) = _
    rw [hbyte, okOr_some, Outcome.ok_bind, Outcome.pure_eq_ok, hvalue]
    rfl
  · have hnib : nib = 14 := UInt8.toNat_inj.mp hnib
    obtain ⟨hhigh, hlow⟩ := pair_prefix_drop.mp hbytes
    have hvalue : 269 + ((UInt8.ofNat ((value - 269) / 256)).toNat * 256 +
        (UInt8.ofNat ((value - 269) % 256)).toNat) = value := by
      rw [UInt8.toNat_ofNat', UInt8.toNat_ofNat']
      omega
    subst hnib
    change (okOr data[pos]? _ >>= fun high => _) = _
    rw [hhigh, okOr_some, Outcome.ok_bind, hlow, okOr_some, Outcome.ok_bind,
      Outcome.pure_eq_ok, hvalue]
    rfl

/-- The decoder reads a field and the bytes that complete it. -/
theorem decodeNibble_eq_ok {data : Bytes} {pos value next : Nat}
    {nib : UInt8} :
    decodeNibble data pos nib = .ok (value, next) ↔
      value ≤ fieldMax ∧ nib.toNat = nibble value ∧
        extension value <+: data.drop pos ∧
        next = pos + (extension value).length := by
  constructor
  · exact field_of_decodeNibble
  · rintro ⟨hmax, hnib, hbytes, rfl⟩
    exact decodeNibble_field hmax hnib hbytes

/-- One round reads one option. -/
theorem innerOption_eq_ok {data : Bytes} {pos number next number' : Nat}
    {header : UInt8} (hpos : pos ≤ data.length) :
    innerOption data pos number header = .ok (next, number') ↔
      ∃ o : Opt, header = o.header ∧ Legal number [o] ∧
        o.tail <+: data.drop pos ∧ next = pos + o.tail.length ∧
        number' = number + o.delta := by
  have htail (o : Opt) : o.tail <+: data.drop pos ↔
      extension o.delta <+: data.drop pos ∧
      extension o.value.length <+:
        data.drop (pos + (extension o.delta).length) ∧
      o.value <+: data.drop (pos + (extension o.delta).length +
        (extension o.value.length).length) := by
    rw [Opt.tail, append_prefix_iff, append_prefix_iff, List.drop_drop,
      List.drop_drop]
  simp only [innerOption, Outcome.bind_eq_ok, failIf_eq_ok, exists_const,
    Outcome.pure_eq_ok, Except.ok.injEq, Prod.mk.injEq, Prod.exists,
    decodeNibble_eq_ok, Nat.not_lt]
  constructor
  · rintro ⟨delta, pos₁, ⟨hdmax, hdn, hdx, rfl⟩, length, pos₂,
      ⟨hlmax, hln, hlx, rfl⟩, hdelta, hnumber, hfit, rfl, rfl⟩
    let value := (data.drop (pos + (extension delta).length +
      (extension length).length)).take length
    have hvalue : value.length = length := by
      rw [List.length_take, List.length_drop]
      omega
    have htail := (htail ⟨delta, value⟩).mpr (by
      refine ⟨hdx, ?_, ?_⟩
      · rw [hvalue]
        exact hlx
      · rw [hvalue]
        exact List.take_prefix _ _)
    refine ⟨⟨delta, value⟩, Opt.header_eq_iff.mpr ⟨hdn, ?_⟩, ?_, htail, ?_,
      rfl⟩
    · rw [hvalue]
      exact hln
    · rw [legal_cons]
      exact ⟨hvalue.trans_le hlmax, legal_nil hnumber⟩
    · simp only [Opt.tail, List.length_append, hvalue]
      omega
  · rintro ⟨o, hheader, hlegal, hprefix, rfl, rfl⟩
    obtain ⟨hdx, hlx, hvx⟩ := (htail o).mp hprefix
    obtain ⟨hdn, hln⟩ := Opt.header_eq_iff.mp hheader
    obtain ⟨hvalue, hrest⟩ := legal_cons.mp hlegal
    have hnumber := hrest.span_le
    have hdend := hdx.length_le
    have hlend := hlx.length_le
    have hend := hvx.length_le
    rw [span_nil, Nat.add_zero] at hnumber
    simp only [List.length_drop, numberMax] at hdend hlend hend hnumber
    refine ⟨o.delta, _, ⟨hlegal.delta_le, hdn, hdx, rfl⟩, o.value.length, _,
      ⟨hvalue, hln, hlx, rfl⟩, by omega, hnumber, by omega, ?_, rfl⟩
    simp only [Opt.tail, List.length_append]
    omega

/-- The round at an option of the grammar. -/
theorem innerOption_of_encode {data rest : Bytes} {pos number : Nat} {o : Opt}
    (hdrop : data.drop pos = o.encode ++ rest)
    (hvalue : o.value.length ≤ fieldMax)
    (hnumber : number + o.delta ≤ numberMax) :
    data[pos]? = some o.header ∧
      innerOption data (pos + 1) number o.header =
        .ok (pos + o.encode.length, number + o.delta) ∧
      data.drop (pos + o.encode.length) = rest ∧
      pos + o.encode.length ≤ data.length := by
  have hprefix : [o.header] ++ o.tail <+: data.drop pos := by
    rw [hdrop]
    exact ⟨rest, rfl⟩
  have hfit := hprefix.length_le
  rw [append_prefix_iff, singleton_prefix_drop, List.drop_drop,
    List.length_singleton] at hprefix
  obtain ⟨hheader, htail⟩ := hprefix
  have hlt := (List.getElem?_eq_some_iff.mp hheader).1
  simp only [List.length_append, List.length_singleton,
    List.length_drop] at hfit
  have hnext : pos + o.encode.length = pos + 1 + o.tail.length := by
    rw [Opt.encode, List.length_cons]
    omega
  refine ⟨hheader, ?_, ?_, by omega⟩
  · rw [hnext]
    exact (innerOption_eq_ok hlt).mpr
      ⟨o, rfl, legal_cons.mpr ⟨hvalue, legal_nil hnumber⟩, htail, rfl, rfl⟩
  · rw [← List.drop_drop, hdrop, List.drop_left]

/-- What the sender's scan accepts is a body of the grammar. -/
theorem body_of_innerBodyFrom {data : Bytes} {pos number : Nat}
    {options payload : Bytes} (hpos : pos ≤ data.length)
    (hnumber : number ≤ numberMax)
    (h : innerBodyFrom data pos number = .ok (options, payload)) :
    ∃ opts, Legal number opts ∧ data.drop pos = body opts payload ∧
      options = data.take (pos + (encode opts).length) := by
  induction hsize : data.length - pos using Nat.strong_induction_on
    generalizing pos number with
  | _ size ih =>
    cases hheader : data[pos]? with
    | none =>
        have hend := List.getElem?_eq_none_iff.mp hheader
        rw [innerBodyFrom_end hheader] at h
        simp only [Except.ok.injEq, Prod.mk.injEq] at h
        obtain ⟨rfl, rfl⟩ := h
        refine ⟨[], legal_nil hnumber, List.drop_eq_nil_of_le hend, ?_⟩
        rw [encode_nil, List.length_nil, Nat.add_zero,
          List.take_of_length_le hend]
    | some header =>
        obtain ⟨hlt, hget⟩ := List.getElem?_eq_some_iff.mp hheader
        have hdrop : data.drop pos = header :: data.drop (pos + 1) := by
          rw [List.drop_eq_getElem_cons hlt, hget]
        by_cases hmarker : header = 0xFF
        · subst hmarker
          rw [innerBodyFrom_marker hheader] at h
          split at h
          · cases h
          · rename_i hmore
            simp only [Outcome.pure_eq_ok, Except.ok.injEq,
              Prod.mk.injEq] at h
            obtain ⟨rfl, rfl⟩ := h
            refine ⟨[], legal_nil hnumber, ?_, rfl⟩
            have hne : data.drop (pos + 1) ≠ [] := by
              rw [ne_eq, List.drop_eq_nil_iff]
              omega
            rw [hdrop, body, encode_nil, List.nil_append, if_neg hne]
        · rw [innerBodyFrom_option hheader hmarker] at h
          obtain ⟨⟨next, number'⟩, hoption, h⟩ := Outcome.bind_eq_ok.mp h
          obtain ⟨o, rfl, hlegal, htail, rfl, rfl⟩ :=
            (innerOption_eq_ok hlt).mp hoption
          obtain ⟨hvalue, hrest⟩ := legal_cons.mp hlegal
          have hfit := htail.length_le
          rw [List.length_drop] at hfit
          obtain ⟨opts, hopts, hbody, hoptions⟩ :=
            ih _ (by omega) (by omega) hrest.span_le h rfl
          refine ⟨o :: opts, legal_cons.mpr ⟨hvalue, hopts⟩, ?_, ?_⟩
          · rw [hdrop, drop_of_prefix htail, hbody]
            simp [body, Opt.encode]
          · rw [hoptions]
            congr 1
            simp only [encode_cons, Opt.encode, List.length_append,
              List.length_cons]
            omega

/-- The sender's scan reads a body of the grammar. -/
theorem innerBodyFrom_body {data : Bytes} {pos number : Nat}
    {opts : List Opt} {payload : Bytes} (hpos : pos ≤ data.length)
    (hnumber : number ≤ numberMax) (hopts : Legal number opts)
    (hbody : data.drop pos = body opts payload) :
    innerBodyFrom data pos number =
      .ok (data.take (pos + (encode opts).length), payload) := by
  induction opts generalizing pos number with
  | nil =>
      rw [body, encode_nil, List.nil_append] at hbody
      split at hbody
      · rename_i hpayload
        have hend := List.drop_eq_nil_iff.mp hbody
        rw [innerBodyFrom_end (List.getElem?_eq_none_iff.mpr hend), hpayload,
          List.take_of_length_le (by simpa using hend)]
      · rename_i hpayload
        have hheader : data[pos]? = some 0xFF := by
          rw [← singleton_prefix_drop, hbody]
          exact ⟨payload, rfl⟩
        have hlt := (List.getElem?_eq_some_iff.mp hheader).1
        have hdrop : data.drop (pos + 1) = payload := by
          rw [← List.drop_drop, hbody]
          rfl
        have hmore : ¬ pos + 1 = data.length := by
          intro hend
          rw [hend, List.drop_length] at hdrop
          exact hpayload hdrop.symm
        rw [innerBodyFrom_marker hheader, if_neg hmore, hdrop]
        rfl
  | cons o opts ih =>
      obtain ⟨hvalue, hrest⟩ := legal_cons.mp hopts
      have hspan := hrest.span_le
      have hnumber' : number + o.delta ≤ numberMax := by omega
      rw [body, encode_cons, List.append_assoc] at hbody
      obtain ⟨hheader, hoption, hbehind, hfit⟩ :=
        innerOption_of_encode hbody hvalue hnumber'
      rw [innerBodyFrom_option hheader o.header_ne_marker, hoption,
        Outcome.ok_bind, ih hfit hnumber' hrest hbehind, encode_cons,
        List.length_append, Nat.add_assoc]

/-- The sender's scan accepts the grammar and returns its two parts. -/
theorem innerBodyFrom_eq_ok {data : Bytes} {pos number : Nat}
    {options payload : Bytes} (hpos : pos ≤ data.length)
    (hnumber : number ≤ numberMax) :
    innerBodyFrom data pos number = .ok (options, payload) ↔
      ∃ opts, Legal number opts ∧ data.drop pos = body opts payload ∧
        options = data.take (pos + (encode opts).length) := by
  constructor
  · exact body_of_innerBodyFrom hpos hnumber
  · rintro ⟨opts, hopts, hbody, rfl⟩
    exact innerBodyFrom_body hpos hnumber hopts hbody

/-- The sender's scan accepts the bodies of the grammar, returns their parts as
they stand, and rejects everything else with an error; a body has one reading. -/
theorem parseInnerBody_exact :
    (∀ opts payload, Legal 0 opts →
      parseInnerBody (body opts payload) = .ok (encode opts, payload)) ∧
    (∀ data options payload, parseInnerBody data = .ok (options, payload) →
      ∃ opts, Legal 0 opts ∧ options = encode opts ∧
        data = if payload = [] then options
          else options ++ 0xFF :: payload) ∧
    (∀ data, (¬ ∃ opts payload, Legal 0 opts ∧ data = body opts payload) →
      parseInnerBody data = .error (.err .invalidParam)) ∧
    (∀ opts opts' payload payload', Legal 0 opts → Legal 0 opts' →
      body opts payload = body opts' payload' →
        opts = opts' ∧ payload = payload') := by
  have hiff (data options payload : Bytes) :
      parseInnerBody data = .ok (options, payload) ↔
        ∃ opts, Legal 0 opts ∧ data = body opts payload ∧
          options = encode opts := by
    rw [parseInnerBody, innerBodyFrom_eq_ok (Nat.zero_le _) (Nat.zero_le _),
      List.drop_zero]
    refine exists_congr fun opts => and_congr_right fun _ =>
      and_congr_right fun hdata => ?_
    rw [hdata, Nat.zero_add, body, List.take_left]
  refine ⟨?_, ?_, ?_, ?_⟩
  · intro opts payload hlegal
    exact (hiff _ _ _).mpr ⟨opts, hlegal, rfl, rfl⟩
  · intro data options payload h
    obtain ⟨opts, hlegal, rfl, rfl⟩ := (hiff _ _ _).mp h
    refine ⟨opts, hlegal, rfl, ?_⟩
    rw [body]
    split <;> simp
  · intro data hnone
    cases h : parseInnerBody data with
    | ok parts =>
        obtain ⟨opts, hlegal, hdata, -⟩ := (hiff data parts.1 parts.2).mp h
        exact absurd ⟨opts, parts.2, hlegal, hdata⟩ hnone
    | error fault => rw [innerBodyFrom_eq_error h]
  · intro opts opts' payload payload' hlegal hlegal'
    exact body_injective hlegal hlegal'

/-! The receiver's scan. -/

theorem markerLength_eq {data : Bytes} {pos : Nat} {nib : UInt8}
    (hnib : nib.toNat ≤ 14) :
    markerLength data pos nib = decodeNibble data pos nib := by
  unfold markerLength decodeNibble
  split
  · rfl
  rename_i h12
  rw [UInt8.le_iff_toNat_le, show (12 : UInt8).toNat = 12 from rfl] at h12
  split
  · cases hbyte : data[pos]? with
    | none =>
        have hend := List.getElem?_eq_none_iff.mp hbyte
        simp [failIf, hend, okOr]
    | some byte =>
        have hlt := (List.getElem?_eq_some_iff.mp hbyte).1
        simp [failIf, Nat.not_le.mpr hlt, index, hbyte, Nat.add_comm]
  rename_i h13
  rw [← UInt8.toNat_inj, show (13 : UInt8).toNat = 13 from rfl] at h13
  have h14 : nib = 14 := UInt8.toNat_inj.mp (by
    rw [show (14 : UInt8).toNat = 14 from rfl]
    omega)
  rw [if_pos h14]
  cases hlow : data[pos + 1]? with
  | none =>
      have hend := List.getElem?_eq_none_iff.mp hlow
      cases hhigh : data[pos]? <;> simp [failIf, hend, okOr]
  | some low =>
      have hlt := (List.getElem?_eq_some_iff.mp hlow).1
      obtain ⟨high, hhigh⟩ : ∃ high, data[pos]? = some high :=
        ⟨_, List.getElem?_eq_getElem (by omega)⟩
      simp [failIf, Nat.not_le.mpr hlt, index, hlow, hhigh, Nat.add_comm]

theorem addU16_of_le {a b : Nat} (h : a + b ≤ 0xffff) :
    addU16 C a b = .ok (a + b) := by
  rw [addU16, if_pos (by omega)]
  rfl

/-- An option header whose extended delta does not fit 16 bits. -/
def LongDelta (rest : Bytes) : Prop :=
  ∃ header high low tail, rest = header :: high :: low :: tail ∧
    header >>> 4 = 14 ∧ header &&& 0x0f ≠ 15 ∧
    0xffff < high.toNat * 256 + low.toNat + 269

/-- Where the 16 bits suffice, a delta is read as a length is. -/
theorem markerDelta_eq_markerLength {data : Bytes} {pos : Nat} {nib : UInt8}
    (hshort : ¬ nib ≤ 12 → nib ≠ 13 → ∀ high low, data[pos]? = some high →
      data[pos + 1]? = some low →
      high.toNat * 256 + low.toNat + 269 ≤ 0xffff) :
    markerDelta C data pos nib = markerLength data pos nib := by
  unfold markerDelta markerLength
  split
  · rfl
  rename_i h12
  split
  · refine bind_congr fun _ => bind_congr fun byte => ?_
    have hbyte := byte.toNat_lt
    rw [addU16_of_le (by omega), Outcome.ok_bind]
  rename_i h13
  refine bind_congr fun _ => ?_
  cases hhigh : data[pos]? with
  | none => simp [index, hhigh, expect]
  | some high =>
      cases hlow : data[pos + 1]? with
      | none => simp [index, hhigh, hlow, expect]
      | some low =>
          have hfit := hshort h12 h13 _ _ hhigh hlow
          simp [index, hhigh, hlow, addU16_of_le hfit]

theorem markerDelta_eq {data : Bytes} {pos : Nat} {nib : UInt8}
    (hnib : nib.toNat ≤ 14)
    (hshort : nib = 14 → ∀ high low, data[pos]? = some high →
      data[pos + 1]? = some low →
      high.toNat * 256 + low.toNat + 269 ≤ 0xffff) :
    markerDelta C data pos nib = decodeNibble data pos nib := by
  rw [markerDelta_eq_markerLength, markerLength_eq hnib]
  intro h12 h13
  refine hshort (UInt8.toNat_inj.mp ?_)
  rw [UInt8.le_iff_toNat_le, show (12 : UInt8).toNat = 12 from rfl] at h12
  rw [ne_eq, ← UInt8.toNat_inj, show (13 : UInt8).toNat = 13 from rfl] at h13
  rw [show (14 : UInt8).toNat = 14 from rfl]
  omega

theorem decodeNibble_fifteen (data : Bytes) (pos : Nat) :
    decodeNibble data pos 15 = .error (.err .invalidParam) := rfl

/-- Outside the long deltas the receiver's round is the sender's. -/
theorem markerOption_eq_innerOption {data : Bytes} {pos number : Nat}
    {header : UInt8} (hheader : data[pos]? = some header)
    (hshort : ¬ LongDelta (data.drop pos)) :
    markerOption C data (pos + 1) number header =
      innerOption data (pos + 1) number header := by
  have hlt := (List.getElem?_eq_some_iff.mp hheader).1
  have hnot15 {nib : UInt8} (hnib : nib.toNat ≤ 15) (hne : ¬ nib = 15) :
      nib.toNat ≤ 14 := by
    rw [← UInt8.toNat_inj, show (15 : UInt8).toNat = 15 from rfl] at hne
    omega
  have hbyte := header.toNat_lt
  simp only [markerOption, innerOption, highNibble_and]
  by_cases hdelta : header >>> 4 = 15
  · simp [failIf, hdelta, decodeNibble_fifteen]
  rw [failIf_of_not _ hdelta, Outcome.ok_bind]
  have hdelta14 := hnot15 (by rw [toNat_highNibble]; omega) hdelta
  by_cases hlength : header &&& 0x0f = 15
  · cases hdecode : decodeNibble data (pos + 1) (header >>> 4) with
    | ok read => simp [failIf, hlength, decodeNibble_fifteen]
    | error fault =>
        rw [decodeNibble_eq_error hdecode]
        simp [failIf, hlength]
  rw [failIf_of_not _ hlength, Outcome.ok_bind]
  have hlength14 := hnot15 (by rw [toNat_lowNibble]; omega) hlength
  rw [markerDelta_eq hdelta14 (by
    intro h14 high low hhigh hlow
    by_contra hlong
    refine hshort ⟨header, high, low, data.drop (pos + 1 + 1 + 1), ?_, h14,
      hlength, by omega⟩
    have hprefix : [header] ++ [high, low] <+: data.drop pos := by
      rw [append_prefix_iff, List.drop_drop, List.length_singleton,
        singleton_prefix_drop, pair_prefix_drop]
      exact ⟨hheader, hhigh, hlow⟩
    exact drop_of_prefix hprefix)]
  cases hdecode : decodeNibble data (pos + 1) (header >>> 4) with
  | error fault => rfl
  | ok read =>
      obtain ⟨delta, pos₁⟩ := read
      simp only [Outcome.ok_bind, markerLength_eq hlength14]
      cases hread : decodeNibble data pos₁ (header &&& 0x0f) with
      | error fault =>
          rw [decodeNibble_eq_error hread]
          by_cases hnumber : number + delta > 0xffff <;> simp [failIf, hnumber]
      | ok read =>
          by_cases hlong : delta > 0xffff
          · have hnumber : number + delta > 0xffff := by omega
            simp [failIf, hlong, hnumber]
          · by_cases hnumber : number + delta > 0xffff <;>
              simp [failIf, hlong, hnumber]

/-- Both scans reach the same option boundary or end there. -/
theorem option_at {data : Bytes} {pos number next number' : Nat}
    {header : UInt8} (hheader : data[pos]? = some header)
    (hoption : innerOption data (pos + 1) number header =
      .ok (next, number')) :
    ∃ o : Opt, o.value.length ≤ fieldMax ∧
      data.drop pos = o.encode ++ data.drop next ∧
      number' = number + o.delta ∧ number' ≤ numberMax := by
  obtain ⟨hlt, hget⟩ := List.getElem?_eq_some_iff.mp hheader
  obtain ⟨o, rfl, hlegal, htail, rfl, rfl⟩ :=
    (innerOption_eq_ok hlt).mp hoption
  obtain ⟨hvalue, hrest⟩ := legal_cons.mp hlegal
  refine ⟨o, hvalue, ?_, rfl, hrest.span_le⟩
  rw [List.drop_eq_getElem_cons hlt, hget, drop_of_prefix htail]
  rfl

/-- The sender's verdict on what the receiver's scan found. -/
def splitAtMarker (data : Bytes) :
    Option Nat → Outcome OscoreError (Bytes × Bytes)
  | none => .ok (data, [])
  | some pos =>
      if pos + 1 = data.length then .error (.err .invalidParam)
      else .ok (data.take pos, data.drop (pos + 1))

/-- Some complete options in front of a long delta. -/
def LongDeltaFrom (number : Nat) (rest : Bytes) : Prop :=
  ∃ opts behind, Legal number opts ∧ rest = encode opts ++ behind ∧
    LongDelta behind

theorem innerBodyFrom_eq_scan {data : Bytes} {pos number : Nat}
    (hnumber : number ≤ numberMax)
    (hshort : ¬ LongDeltaFrom number (data.drop pos)) :
    innerBodyFrom data pos number =
      (findPayloadMarkerFrom C data pos number >>= splitAtMarker data) := by
  induction hsize : data.length - pos using Nat.strong_induction_on
    generalizing pos number with
  | _ size ih =>
    cases hheader : data[pos]? with
    | none =>
        rw [innerBodyFrom_end hheader, findPayloadMarkerFrom_end hheader]
        rfl
    | some header =>
        have hlt := (List.getElem?_eq_some_iff.mp hheader).1
        by_cases hmarker : header = 0xFF
        · subst hmarker
          rw [innerBodyFrom_marker hheader,
            findPayloadMarkerFrom_marker hheader]
          rfl
        · have hhere : ¬ LongDelta (data.drop pos) := fun h =>
            hshort ⟨[], _, legal_nil hnumber, rfl, h⟩
          rw [innerBodyFrom_option hheader hmarker,
            findPayloadMarkerFrom_option hheader hmarker,
            markerOption_eq_innerOption hheader hhere]
          cases hoption : innerOption data (pos + 1) number header with
          | error fault => rfl
          | ok step =>
              obtain ⟨next, number'⟩ := step
              have hcursor := innerOption_cursor hoption
              obtain ⟨o, hvalue, hdrop, rfl, hnumber'⟩ :=
                option_at hheader hoption
              refine ih _ (by omega) hnumber' ?_ rfl
              rintro ⟨opts, behind, hlegal, hrest, hlong⟩
              refine hshort ⟨o :: opts, behind,
                legal_cons.mpr ⟨hvalue, hlegal⟩, ?_, hlong⟩
              rw [hdrop, hrest, encode_cons, List.append_assoc]

/-- The same primitives in a build that checks integer overflow. -/
def Crypto.checked (C : Crypto) : Crypto :=
  { C with overflowChecks := true }

/-- A long delta panics where overflow is checked. -/
theorem markerOption_of_longDelta {data : Bytes} {pos number : Nat}
    {header : UInt8} (hheader : data[pos]? = some header)
    (hlong : LongDelta (data.drop pos)) :
    markerOption C.checked data (pos + 1) number header = .error .panic := by
  obtain ⟨header', high, low, tail, hdrop, hdelta, hlength, hvalue⟩ := hlong
  have hbytes : [header'] ++ [high, low] <+: data.drop pos := by
    rw [hdrop]
    exact ⟨tail, rfl⟩
  rw [append_prefix_iff, List.drop_drop, List.length_singleton,
    singleton_prefix_drop, pair_prefix_drop] at hbytes
  obtain ⟨hheader', hhigh, hlow⟩ := hbytes
  rw [hheader, Option.some.injEq] at hheader'
  subst hheader'
  have hlt := (List.getElem?_eq_some_iff.mp hlow).1
  have hover : ¬ high.toNat * 256 + low.toNat + 269 < 2 ^ 16 := by omega
  have hdelta14 : markerDelta C.checked data (pos + 1) 14 =
      .error .panic := by
    change (failIf (pos + 1 + 1 ≥ data.length) _ >>= fun _ => _) = _
    rw [failIf_of_not _ (Nat.not_le.mpr hlt), Outcome.ok_bind,
      index_eq_ok.mpr hhigh, Outcome.ok_bind, index_eq_ok.mpr hlow,
      Outcome.ok_bind, addU16, if_neg hover]
    rfl
  have hmask : (14 : UInt8) &&& 0x0F = 14 := rfl
  have hfour : ¬ (14 : UInt8) = 15 := by decide
  simp only [markerOption, hdelta, hmask, failIf_of_not _ hfour,
    failIf_of_not _ hlength, Outcome.ok_bind, hdelta14]
  rfl

/-- The sender refuses a long delta, so an option it reads has none. -/
theorem not_longDelta_of_innerOption {data : Bytes}
    {pos number next number' : Nat} {header : UInt8}
    (hheader : data[pos]? = some header)
    (hoption : innerOption data (pos + 1) number header =
      .ok (next, number')) : ¬ LongDelta (data.drop pos) := by
  rintro ⟨header', high, low, tail, hdrop, hdelta, -, hvalue⟩
  have hbytes : [header'] ++ [high, low] <+: data.drop pos := by
    rw [hdrop]
    exact ⟨tail, rfl⟩
  rw [append_prefix_iff, List.drop_drop, List.length_singleton,
    singleton_prefix_drop, pair_prefix_drop, hheader,
    Option.some.injEq] at hbytes
  obtain ⟨rfl, hhigh, hlow⟩ := hbytes
  obtain ⟨⟨delta, pos₁⟩, hdecode, hoption⟩ := Outcome.bind_eq_ok.mp hoption
  rw [hdelta] at hdecode
  rcases decodeNibble_forms hdecode with ⟨h, -⟩ | ⟨h, -⟩ |
    ⟨-, high', low', hhigh', hlow', rfl, -⟩
  · exact absurd h (by decide)
  · exact absurd h (by decide)
  · rw [hhigh, Option.some.injEq] at hhigh'
    rw [hlow, Option.some.injEq] at hlow'
    subst hhigh' hlow'
    simp only [Outcome.bind_eq_ok, failIf_eq_ok, Prod.exists] at hoption
    obtain ⟨_, _, -, _, hfit, -⟩ := hoption
    exact hfit hvalue

theorem findPayloadMarkerFrom_of_longDelta {data : Bytes} {pos number : Nat}
    (hlong : LongDeltaFrom number (data.drop pos)) :
    findPayloadMarkerFrom C.checked data pos number = .error .panic := by
  obtain ⟨opts, behind, hlegal, hdrop, hlong⟩ := hlong
  induction opts generalizing pos number with
  | nil =>
      rw [encode_nil, List.nil_append] at hdrop
      rw [← hdrop] at hlong
      obtain ⟨header, high, low, tail, heq, hdelta, -⟩ := id hlong
      have hheader : data[pos]? = some header := by
        rw [← singleton_prefix_drop, heq]
        exact ⟨_, rfl⟩
      have hmarker : header ≠ 0xFF := by
        rintro rfl
        exact absurd hdelta (by decide)
      rw [findPayloadMarkerFrom_option hheader hmarker,
        markerOption_of_longDelta hheader hlong]
      rfl
  | cons o opts ih =>
      obtain ⟨hvalue, hrest⟩ := legal_cons.mp hlegal
      have hspan := hrest.span_le
      have hnumber : number + o.delta ≤ numberMax := by omega
      rw [encode_cons, List.append_assoc] at hdrop
      obtain ⟨hheader, hoption, hbehind, -⟩ :=
        innerOption_of_encode hdrop hvalue hnumber
      rw [findPayloadMarkerFrom_option hheader o.header_ne_marker,
        markerOption_eq_innerOption hheader
          (not_longDelta_of_innerOption hheader hoption), hoption,
        Outcome.ok_bind]
      exact ih hrest hbehind

/-- The two scans of a body agree, without overflow or panic. -/
structure ScannersAgree (C : Crypto) (data : Bytes) : Prop where
  noOverflow : findPayloadMarker C.checked data ≠ .error .panic
  noPanic : findPayloadMarker C data ≠ .error .panic
  splits : ∀ options payload,
    parseInnerBody data = .ok (options, payload) ↔
      (findPayloadMarker C data = .ok none ∧ options = data ∧ payload = []) ∨
      ∃ i, findPayloadMarker C data = .ok (some i) ∧
        data.drop (i + 1) ≠ [] ∧ options = data.take i ∧
        payload = data.drop (i + 1)
  rejects : (¬ ∃ parts, parseInnerBody data = .ok parts) →
    ∃ error, parseInnerBody data = .error (.err error)

theorem splitAtMarker_eq_ok {data options payload : Bytes}
    {found : Option Nat} (hfound : ∀ i ∈ found, i < data.length) :
    splitAtMarker data found = .ok (options, payload) ↔
      (found = none ∧ options = data ∧ payload = []) ∨
      ∃ i, found = some i ∧ data.drop (i + 1) ≠ [] ∧
        options = data.take i ∧ payload = data.drop (i + 1) := by
  cases found with
  | none =>
      constructor
      · rintro ⟨⟩
        exact Or.inl ⟨rfl, rfl, rfl⟩
      · rintro (⟨-, rfl, rfl⟩ | ⟨_, ⟨⟩, -⟩)
        rfl
  | some i =>
      have hlt := hfound i rfl
      have hmore : data.drop (i + 1) ≠ [] ↔ ¬ i + 1 = data.length := by
        rw [ne_eq, List.drop_eq_nil_iff]
        omega
      rw [splitAtMarker]
      split
      · rename_i hend
        constructor
        · intro h
          cases h
        · rintro (⟨h, -⟩ | ⟨_, ⟨⟩, hne, -⟩)
          · cases h
          · exact absurd hend (hmore.mp hne)
      · rename_i hend
        constructor
        · rintro ⟨⟩
          exact Or.inr ⟨i, rfl, hmore.mpr hend, rfl, rfl⟩
        · rintro (⟨h, -⟩ | ⟨_, ⟨⟩, -, rfl, rfl⟩)
          · cases h
          · rfl

/-- The two scanners agree exactly on the bodies without a long delta behind
complete options. -/
theorem scannersAgree_iff (C : Crypto) (data : Bytes) :
    ScannersAgree C data ↔ ¬ LongDeltaFrom 0 data := by
  constructor
  · intro hagree hlong
    exact hagree.noOverflow (findPayloadMarkerFrom_of_longDelta hlong)
  · intro hshort
    have hscan (C : Crypto) : parseInnerBody data =
        (findPayloadMarker C data >>= splitAtMarker data) :=
      innerBodyFrom_eq_scan (Nat.zero_le _) hshort
    have hnoPanic (C : Crypto) :
        findPayloadMarker C data ≠ .error .panic := by
      intro hpanic
      have hparse := hscan C
      rw [hpanic] at hparse
      cases innerBodyFrom_eq_error hparse
    refine ⟨hnoPanic C.checked, hnoPanic C, ?_, ?_⟩
    · intro options payload
      cases hfound : findPayloadMarker C data with
      | error fault => simp [hscan C, hfound]
      | ok found =>
          have hlt : ∀ i ∈ found, i < data.length := by
            rintro i rfl
            exact (List.getElem?_eq_some_iff.mp
              (findPayloadMarkerFrom_eq_some hfound).2).1
          rw [hscan C, hfound, Outcome.ok_bind, splitAtMarker_eq_ok hlt]
          simp
    · intro hnone
      cases hparse : parseInnerBody data with
      | ok parts => exact absurd ⟨parts, hparse⟩ hnone
      | error fault =>
          rw [innerBodyFrom_eq_error hparse]
          exact ⟨_, rfl⟩

/-- A delta of 65535 + 269: one scanner rejects it, the other overflows. -/
theorem long_delta_separates_scanners :
    ¬ ScannersAgree Crypto.standIn [0xE0, 0xFF, 0xFF] ∧
      findPayloadMarker Crypto.standIn [0xE0, 0xFF, 0xFF] = .error .panic ∧
      findPayloadMarker { Crypto.standIn with overflowChecks := false }
        [0xE0, 0xFF, 0xFF] = .ok none ∧
      parseInnerBody [0xE0, 0xFF, 0xFF] = .error (.err .invalidParam) := by
  have hpanic : findPayloadMarker Crypto.standIn [0xE0, 0xFF, 0xFF] =
      .error .panic := by decide +kernel
  exact ⟨fun h => h.noPanic hpanic, hpanic, by decide +kernel,
    by decide +kernel⟩

/-- Options the sender parses to their end are a run of complete options for
the receiver. -/
theorem findPayloadMarkerFrom_of_innerBodyFrom {data : Bytes}
    {pos number : Nat} (h : innerBodyFrom data pos number = .ok (data, [])) :
    findPayloadMarkerFrom C data pos number = .ok none := by
  induction hsize : data.length - pos using Nat.strong_induction_on
    generalizing pos number with
  | _ size ih =>
    cases hheader : data[pos]? with
    | none => exact findPayloadMarkerFrom_end hheader
    | some header =>
        have hlt := (List.getElem?_eq_some_iff.mp hheader).1
        by_cases hmarker : header = 0xFF
        · subst hmarker
          rw [innerBodyFrom_marker hheader] at h
          split at h
          · cases h
          · simp only [Outcome.pure_eq_ok, Except.ok.injEq, Prod.mk.injEq] at h
            have hlength := congrArg List.length h.1
            rw [List.length_take] at hlength
            omega
        · rw [innerBodyFrom_option hheader hmarker] at h
          obtain ⟨next, hoption, h⟩ := Outcome.bind_eq_ok.mp h
          have hcursor := innerOption_cursor hoption
          rw [findPayloadMarkerFrom_option hheader hmarker,
            markerOption_eq_innerOption hheader
              (not_longDelta_of_innerOption hheader hoption), hoption]
          exact ih _ (by omega) h rfl

end Oscore
