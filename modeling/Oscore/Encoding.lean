/-
What the AAD and the nonce of a message determine.  Both encodings are
injective on the identifiers and Partial IVs a context uses.
-/
import Oscore.Derive
import Oscore.Lib.Prefix

namespace Oscore

open Rust Prefix

/-! Heads of byte strings. -/

theorem toNat_shortHead {n : Nat} (hn : n ≤ 23) :
    ((0x40 : UInt8) ||| UInt8.ofNat n).toNat = 64 + n := by
  have hall : ∀ k : Fin 24,
      ((0x40 : UInt8) ||| UInt8.ofNat k.val).toNat = 64 + k.val := by decide
  exact hall ⟨n, by omega⟩

/-- The one-byte head of a short byte string. -/
theorem delimits_shortHead :
    Delimits (· ≤ 23) fun n => [(0x40 : UInt8) ||| UInt8.ofNat n] := by
  intro a ha b hb s t heq
  simp only [List.cons_append, List.nil_append, List.cons.injEq] at heq
  have hhead := congrArg UInt8.toNat heq.1
  rw [toNat_shortHead ha, toNat_shortHead hb] at hhead
  exact ⟨by omega, heq.2⟩

/-- A length in one byte. -/
theorem delimits_byteLength :
    Delimits (· ≤ 255) fun n => [UInt8.ofNat n] := by
  intro a ha b hb s t heq
  simp only [List.cons_append, List.nil_append, List.cons.injEq] at heq
  have hhead := congrArg UInt8.toNat heq.1
  simp only [UInt8.toNat_ofNat'] at hhead
  exact ⟨by omega, heq.2⟩

theorem delimits_lengthPrefixed :
    Delimits (fun bytes : Bytes => bytes.length ≤ 255) lengthPrefixed :=
  delimits_byteLength.lengthPrefix

/-! The AAD. -/

/-- `bstr(bytes)` with a one-byte head. -/
def shortBstr (bytes : Bytes) : Bytes :=
  [(0x40 : UInt8) ||| UInt8.ofNat bytes.length] ++ bytes

theorem delimits_shortBstr :
    Delimits (fun bytes : Bytes => bytes.length ≤ 23) shortBstr :=
  delimits_shortHead.lengthPrefix

/-- `[1, [10], kid, piv, h'']` -/
def aadArray (requestKid requestPiv : Bytes) : Bytes :=
  [0x85, 0x01, 0x81, algAead] ++ (shortBstr requestKid ++
    (shortBstr requestPiv ++ [0x40]))

/-- `["Encrypt0", h'', bstr(array)]` -/
def aadBytes (requestKid requestPiv : Bytes) : Bytes :=
  [0x83, 0x68] ++ encrypt0 ++ [0x40] ++
    shortBstr (aadArray requestKid requestPiv)

/-- The identifiers and Partial IVs of a context fit the AAD buffers. -/
structure FitsAad (requestKid requestPiv : Bytes) : Prop where
  kid_le : requestKid.length ≤ nonceIdLen
  piv_le : requestPiv.length ≤ pivMaxLen

theorem length_aadArray (requestKid requestPiv : Bytes) :
    (aadArray requestKid requestPiv).length =
      requestKid.length + requestPiv.length + 7 := by
  simp [aadArray, shortBstr]
  omega

theorem FitsAad.le {requestKid requestPiv : Bytes}
    (h : FitsAad requestKid requestPiv) :
    requestKid.length ≤ 23 ∧ requestPiv.length ≤ 23 ∧
      (aadArray requestKid requestPiv).length ≤ 23 := by
  have hkid := h.kid_le
  have hpiv := h.piv_le
  simp only [nonceIdLen, nonceIdEnd, pivMaxLen] at hkid hpiv
  rw [length_aadArray]
  omega

theorem buildAadArray_eq {requestKid requestPiv : Bytes}
    (hkid : requestKid.length ≤ 23) (hpiv : requestPiv.length ≤ 23) :
    buildAadArray requestKid requestPiv =
      .ok ⟨aadArray requestKid requestPiv, by
        rw [length_aadArray]
        omega⟩ := by
  simp only [buildAadArray, failIf_of_not _ (Nat.not_lt.mpr hkid),
    failIf_of_not _ (Nat.not_lt.mpr hpiv), Outcome.ok_bind, HVec.expect_extend]
  rw [expect_eq_ok, HVec.extend_eq_some]
  simp only [aadArray, shortBstr, HVec.toList_empty, List.cons_append,
    List.nil_append]

theorem buildAadCbor_of_fits {requestKid requestPiv : Bytes}
    (h : FitsAad requestKid requestPiv) :
    ∃ aad, buildAadCbor requestKid requestPiv 64 = .ok aad ∧
      aad.toList = aadBytes requestKid requestPiv := by
  obtain ⟨hkid, hpiv, hfit⟩ := h.le
  simp only [buildAadCbor, buildAadArray_eq hkid hpiv, Outcome.ok_bind,
    HVec.okOr_extend, okOr_eq_ok, HVec.extend_eq_some]
  refine ⟨⟨aadBytes requestKid requestPiv, ?_⟩, ?_, rfl⟩
  · simp only [aadBytes, shortBstr, encrypt0, List.length_append,
      List.length_cons, List.length_nil]
    omega
  · simp [aadBytes, shortBstr, cborHead, hfit]

/-- The AAD determines the request it names. -/
theorem aadBytes_injective {kid piv kid' piv' : Bytes}
    (h : FitsAad kid piv) (h' : FitsAad kid' piv')
    (heq : aadBytes kid piv = aadBytes kid' piv') : kid = kid' ∧ piv = piv' := by
  obtain ⟨hkid, hpiv, hfit⟩ := h.le
  obtain ⟨hkid', hpiv', hfit'⟩ := h'.le
  have harray : aadArray kid piv = aadArray kid' piv' :=
    delimits_shortBstr.injective hfit hfit' (List.append_cancel_left heq)
  obtain ⟨rfl, hrest⟩ := delimits_shortBstr _ hkid _ hkid' _ _
    (List.append_cancel_left harray)
  exact ⟨rfl, (delimits_shortBstr _ hpiv _ hpiv' _ _ hrest).1⟩

/-! The HKDF info strings. -/

/-- An ID context, or `null`. -/
def contextItem : Option Bytes → Bytes
  | some bytes => shortBstr bytes
  | none => [0xf6]

/-- The ID context is absent or short. -/
def ShortContext (idContext : Option Bytes) : Prop :=
  (idContext.getD []).length ≤ 23

theorem delimits_contextItem : Delimits ShortContext contextItem := by
  have hhead {bytes : Bytes} (h : bytes.length ≤ 23) :
      (0x40 : UInt8) ||| UInt8.ofNat bytes.length ≠ 0xf6 := by
    intro heq
    have hnat := congrArg UInt8.toNat heq
    rw [toNat_shortHead h] at hnat
    have : (0xf6 : UInt8).toNat = 246 := rfl
    omega
  intro a ha b hb s t heq
  cases a with
  | none =>
      cases b with
      | none => exact ⟨rfl, List.append_cancel_left heq⟩
      | some bytes => exact absurd (List.cons.inj heq).1.symm (hhead hb)
  | some bytes =>
      cases b with
      | none => exact absurd (List.cons.inj heq).1 (hhead ha)
      | some bytes' =>
          obtain ⟨rfl, hrest⟩ := delimits_shortBstr bytes ha bytes' hb s t heq
          exact ⟨rfl, hrest⟩

/-- `[id, id_context, 10, type, L]` -/
def infoBytes (id : Bytes) (idContext : Option Bytes) (typeStr : Bytes)
    (outLen : Nat) : Bytes :=
  [0x85] ++ (shortBstr id ++ (contextItem idContext ++
    (algAead :: (0x60 ||| UInt8.ofNat typeStr.length) :: typeStr ++
      [UInt8.ofNat outLen])))

theorem length_infoBytes_le {id : Bytes} {idContext : Option Bytes}
    {typeStr : Bytes} (outLen : Nat) (hid : id.length ≤ nonceIdLen)
    (hcontext : (idContext.getD []).length ≤ idContextCapacity)
    (htype : typeStr.length ≤ 3) :
    (infoBytes id idContext typeStr outLen).length ≤ 64 := by
  simp only [nonceIdLen, nonceIdEnd, idContextCapacity] at hid hcontext
  cases idContext with
  | none =>
      simp [infoBytes, shortBstr, contextItem]
      omega
  | some bytes =>
      simp only [Option.getD_some] at hcontext
      simp [infoBytes, shortBstr, contextItem]
      omega

theorem buildInfoCbor_eq {id : Bytes} {idContext : Option Bytes}
    {typeStr : Bytes} {outLen : Nat} (hid : id.length ≤ nonceIdLen)
    (hcontext : (idContext.getD []).length ≤ idContextCapacity)
    (htype : typeStr.length ≤ 3) (hout : outLen ≤ 23) :
    buildInfoCbor id idContext typeStr outLen =
      .ok ⟨infoBytes id idContext typeStr outLen,
        length_infoBytes_le outLen hid hcontext htype⟩ := by
  have hidHead : cborHead 0x40 id.length =
      [0x40 ||| UInt8.ofNat id.length] :=
    if_pos (Nat.le_trans hid (by decide))
  have htypeHead : cborHead 0x60 typeStr.length =
      [0x60 ||| UInt8.ofNat typeStr.length] :=
    if_pos (Nat.le_trans htype (by decide))
  cases idContext with
  | none =>
      simp only [buildInfoCbor, hidHead, htypeHead, if_pos hout,
        HVec.expect_extend]
      rw [expect_eq_ok, HVec.extend_eq_some]
      simp [infoBytes, shortBstr, contextItem]
  | some bytes =>
      have hcontextHead : cborHead 0x40 bytes.length =
          [0x40 ||| UInt8.ofNat bytes.length] :=
        if_pos (Nat.le_trans hcontext (by decide))
      simp only [buildInfoCbor, hidHead, hcontextHead, htypeHead, if_pos hout,
        HVec.expect_extend]
      rw [expect_eq_ok, HVec.extend_eq_some]
      simp [infoBytes, shortBstr, contextItem]

/-- The info string determines the identifier and the ID context. -/
theorem infoBytes_injective {id id' : Bytes} {idContext idContext' : Option Bytes}
    {typeStr : Bytes} {outLen : Nat} (hid : id.length ≤ 23)
    (hid' : id'.length ≤ 23) (hcontext : ShortContext idContext)
    (hcontext' : ShortContext idContext')
    (h : infoBytes id idContext typeStr outLen =
      infoBytes id' idContext' typeStr outLen) :
    id = id' ∧ idContext = idContext' := by
  obtain ⟨rfl, hrest⟩ := delimits_shortBstr id hid id' hid' _ _
    (List.append_cancel_left h)
  exact ⟨rfl, (delimits_contextItem _ hcontext _ hcontext' _ _ hrest).1⟩

/-! The nonce. -/

theorem zipWith_xor_injective {xs ys mask : Bytes}
    (hxs : xs.length = mask.length) (hys : ys.length = mask.length)
    (h : List.zipWith (· ^^^ ·) xs mask = List.zipWith (· ^^^ ·) ys mask) :
    xs = ys := by
  induction mask generalizing xs ys with
  | nil =>
      rw [List.length_eq_zero_iff.mp hxs, List.length_eq_zero_iff.mp hys]
  | cons byte mask ih =>
      obtain ⟨x, xs, rfl⟩ := List.exists_cons_of_length_eq_add_one hxs
      obtain ⟨y, ys, rfl⟩ := List.exists_cons_of_length_eq_add_one hys
      simp only [List.zipWith_cons_cons, List.cons.injEq] at h
      simp only [List.length_cons, Nat.add_right_cancel_iff] at hxs hys
      rw [ih hxs hys h.2, (UInt8.xor_left_inj _).mp h.1]

theorem bigEndian_replicate (n : Nat) (bytes : Bytes) :
    OscoreSeqNum.bigEndian (List.replicate n 0 ++ bytes) =
      OscoreSeqNum.bigEndian bytes := by
  induction n with
  | zero => rfl
  | succ n ih =>
      rw [List.replicate_succ, List.cons_append,
        OscoreSeqNum.bigEndian_zero_cons, ih]

theorem bigEndian_noncePivField {piv : Bytes} (hne : piv ≠ [])
    (hlen : piv.length ≤ 5) :
    OscoreSeqNum.bigEndian (noncePivField piv) =
      OscoreSeqNum.bigEndian piv := by
  rw [noncePivField, if_pos ⟨hne, hlen⟩, bigEndian_replicate]

/-- A nonce determines the identifier and the sequence it was made from. -/
theorem computeNonce_injective {id id' : Bytes} {seq seq' : OscoreSeqNum}
    {iv : Nonce} (hid : id.length ≤ nonceIdLen) (hid' : id'.length ≤ nonceIdLen)
    (h : computeNonce id seq.encodePiv iv = computeNonce id' seq'.encodePiv iv) :
    id = id' ∧ seq = seq' := by
  have hlength (id : Bytes) (seq : OscoreSeqNum) :
      (UInt8.ofNat id.length :: (nonceIdField id ++
        noncePivField seq.encodePiv)).length = iv.val.length := by
    simp [length_nonceIdField, length_noncePivField, iv.property]
  have hfields := zipWith_xor_injective (hlength id seq) (hlength id' seq')
    (congrArg Subtype.val h)
  simp only [List.cons.injEq] at hfields
  obtain ⟨hsize, hfields⟩ := hfields
  obtain ⟨hidField, hpivField⟩ := List.append_inj hfields
    (by rw [length_nonceIdField, length_nonceIdField])
  constructor
  · have hcount : id.length = id'.length := by
      have hnat := congrArg UInt8.toNat hsize
      simp only [UInt8.toNat_ofNat'] at hnat
      simp only [nonceIdLen, nonceIdEnd] at hid hid'
      omega
    simp only [nonceIdField, hid', ↓reduceIte, hcount] at hidField
    exact List.append_cancel_left hidField
  · have hvalue := congrArg OscoreSeqNum.bigEndian hpivField
    rw [bigEndian_noncePivField seq.encodePiv_ne_nil seq.length_encodePiv_le,
      bigEndian_noncePivField seq'.encodePiv_ne_nil seq'.length_encodePiv_le,
      OscoreSeqNum.bigEndian_encodePiv, OscoreSeqNum.bigEndian_encodePiv]
      at hvalue
    exact OscoreSeqNum.ext hvalue

end Oscore
