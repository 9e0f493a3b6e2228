/-
What is hashed, signed and expanded determines the fields it was built from:
every field says where it ends, but the last, which ends with the whole.
-/
import Oscore.Edhoc.Transcript

namespace Oscore.Edhoc

open Rust

variable {X : Suite}

/-! Unsigned integers. -/

/-- An unsigned integer below 2^16, and what stands behind it. -/
def readUint : Bytes → Option (Nat × Bytes)
  | first :: rest =>
      if first.toNat ≤ 23 then some (first.toNat, rest)
      else
        match first.toNat, rest with
        | 0x18, byte :: rest => some (byte.toNat, rest)
        | 0x19, high :: low :: rest => some (high.toNat * 256 + low.toNat, rest)
        | _, _ => none
  | [] => none

theorem readUint_uintBytes {n : Nat} (h : n ≤ 0xffff) (rest : Bytes) :
    readUint (uintBytes n ++ rest) = some (n, rest) := by
  have hvalue : n ≤ 0xff → (UInt8.ofNat n).toNat = n := by
    intro hbyte
    rw [UInt8.toNat_ofNat']
    omega
  unfold uintBytes
  by_cases hsmall : n ≤ 23
  · have hown := hvalue (by omega)
    have hread : readUint (UInt8.ofNat n :: rest) =
        some ((UInt8.ofNat n).toNat, rest) := if_pos (by omega)
    rw [if_pos hsmall, List.singleton_append, hread, hown]
  · rw [if_neg hsmall]
    by_cases hbyte : n ≤ 0xff
    · rw [if_pos hbyte]
      change some ((UInt8.ofNat n).toNat, rest) = _
      rw [hvalue hbyte]
    · rw [if_neg hbyte]
      change some ((UInt8.ofNat (n >>> 8)).toNat * 256 +
        (UInt8.ofNat (n &&& 0xff)).toNat, rest) = _
      rw [Cbor.toNat_high h, Cbor.toNat_low, Nat.div_add_mod']

theorem uintBytes_delimits : Prefix.Delimits (· ≤ 0xffff) uintBytes :=
  .ofRead fun _ => readUint_uintBytes

/-! Structures. -/

theorem bstr_block_delimits {n : Nat} (hn : n ≤ Cbor.bstrMax)
    {block block' : Block n} {s t : Bytes}
    (h : Cbor.bstr block.val ++ s = Cbor.bstr block'.val ++ t) :
    block = block' ∧ s = t := by
  obtain ⟨hval, hrest⟩ := Cbor.bstr_delimits _ (bstrMax_of_block hn block) _
    (bstrMax_of_block hn block') _ _ h
  exact ⟨Subtype.ext hval, hrest⟩

/-- The input of `TH_2` holds message 1 through its hash. -/
theorem transcript2Bytes_injective {gY gY' msg1 msg1' : Bytes}
    (hgY : gY.length ≤ Cbor.bstrMax) (hgY' : gY'.length ≤ Cbor.bstrMax)
    (h : transcript2Bytes X gY msg1 = transcript2Bytes X gY' msg1') :
    gY = gY' ∧ computeTh X msg1 = computeTh X msg1' := by
  obtain ⟨hgY, hhash⟩ := Cbor.bstr_delimits _ hgY _ hgY' _ _ h
  refine ⟨hgY, Subtype.ext ?_⟩
  exact Cbor.bstr_delimits.injective (bstrMax_of_block (by decide) _)
    (bstrMax_of_block (by decide) _) hhash

theorem th2Bytes_injective {gY gY' : Bytes32} {msg1 msg1' : Bytes}
    (h : th2Bytes X gY msg1 = th2Bytes X gY' msg1') :
    gY = gY' ∧ computeTh X msg1 = computeTh X msg1' := by
  obtain ⟨hgY, hhash⟩ := transcript2Bytes_injective
    (bstrMax_of_block (by decide) gY) (bstrMax_of_block (by decide) gY') h
  exact ⟨Subtype.ext hgY, hhash⟩

theorem thBytes_injective {th th' : Bytes32}
    {plaintext plaintext' cred cred' : Bytes}
    (hle : plaintext.length ≤ Cbor.bstrMax)
    (hle' : plaintext'.length ≤ Cbor.bstrMax)
    (h : thBytes th plaintext cred = thBytes th' plaintext' cred') :
    th = th' ∧ plaintext = plaintext' ∧ cred = cred' := by
  obtain ⟨hth, hrest⟩ := bstr_block_delimits (by decide) h
  exact ⟨hth, Cbor.bstr_delimits _ hle _ hle' _ _ hrest⟩

/-- The length of what is signed beside the ID_CRED and the MAC. -/
abbrev Signable (th : Bytes32) (cred : Bytes) : Prop :=
  (Cbor.bstr th.val ++ cred).length ≤ Cbor.bstrMax

theorem signatureBytes_injective {idCred idCred' cred cred' mac mac' : Bytes}
    {th th' : Bytes32}
    (hid : idCred.length ≤ Cbor.bstrMax) (hid' : idCred'.length ≤ Cbor.bstrMax)
    (hcred : Signable th cred) (hcred' : Signable th' cred')
    (hmac : mac.length ≤ Cbor.bstrMax) (hmac' : mac'.length ≤ Cbor.bstrMax)
    (h : signatureBytes idCred th cred mac =
      signatureBytes idCred' th' cred' mac') :
    idCred = idCred' ∧ th = th' ∧ cred = cred' ∧ mac = mac' := by
  rw [signatureBytes, signatureBytes] at h
  have htail := List.append_cancel_left h
  obtain ⟨hidCred, htail⟩ := Cbor.bstr_delimits _ hid _ hid' _ _ htail
  obtain ⟨haad, htail⟩ := Cbor.bstr_delimits _ hcred _ hcred' _ _ htail
  obtain ⟨hth, hcred⟩ := bstr_block_delimits (by decide) haad
  exact ⟨hidCred, hth, hcred, Cbor.bstr_delimits.injective hmac hmac' htail⟩

theorem kdfInfo_injective {label label' length length' : Nat}
    {context context' : Bytes} (hlabel : label ≤ 0xffff)
    (hlabel' : label' ≤ 0xffff) (hcontext : context.length ≤ Cbor.bstrMax)
    (hcontext' : context'.length ≤ Cbor.bstrMax) (hlength : length ≤ 0xffff)
    (hlength' : length' ≤ 0xffff)
    (h : kdfInfo label context length = kdfInfo label' context' length') :
    label = label' ∧ context = context' ∧ length = length' := by
  obtain ⟨hlabels, h⟩ := uintBytes_delimits _ hlabel _ hlabel' _ _ h
  obtain ⟨hcontexts, h⟩ := Cbor.bstr_delimits _ hcontext _ hcontext' _ _ h
  exact ⟨hlabels, hcontexts,
    uintBytes_delimits.injective hlength hlength' h⟩

end Oscore.Edhoc
