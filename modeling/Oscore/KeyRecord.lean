/-
The sender key and the durable record it is counted in.  Both are derived from
the same material by separate code; the salt is where they disagree, since HMAC
pads it with zero bytes and the context identifier does not.
-/
import Oscore.Context
import Oscore.Encoding

namespace Oscore

open Rust Prefix

/-- The ID context as it is hashed: whether it is there, then its bytes. -/
def contextMarker : Option Bytes → Bytes
  | some bytes => 1 :: lengthPrefixed bytes
  | none => [0]

/-- Every field fits the one-byte length in front of it. -/
structure Admitted (masterSecret masterSalt : Bytes)
    (idContext : Option Bytes) (senderId : Bytes) : Prop where
  masterSecret_le : masterSecret.length ≤ 255
  masterSalt_le : masterSalt.length ≤ 255
  idContext_le : (idContext.getD []).length ≤ 255
  senderId_le : senderId.length ≤ 255

theorem delimits_contextMarker :
    Delimits (fun idContext => (idContext.getD []).length ≤ 255)
      contextMarker := by
  intro a ha b hb s t heq
  cases a with
  | none =>
      cases b with
      | none => exact ⟨rfl, List.append_cancel_left heq⟩
      | some bytes => exact absurd (List.cons.inj heq).1 (by decide)
  | some bytes =>
      cases b with
      | none => exact absurd (List.cons.inj heq).1 (by decide)
      | some bytes' =>
          obtain ⟨rfl, hrest⟩ := delimits_lengthPrefixed bytes ha bytes' hb s t
            (List.cons.inj heq).2
          exact ⟨rfl, hrest⟩

/-- The hashed string determines the four fields it is made of. -/
theorem contextIdPreimage_injective {secret secret' salt salt' : Bytes}
    {idContext idContext' : Option Bytes} {sender sender' : Bytes}
    (hfits : Admitted secret salt idContext sender)
    (hfits' : Admitted secret' salt' idContext' sender')
    (h : contextIdPreimage secret salt idContext sender =
      contextIdPreimage secret' salt' idContext' sender') :
    secret = secret' ∧ salt = salt' ∧ idContext = idContext' ∧
      sender = sender' := by
  simp only [contextIdPreimage, List.append_assoc] at h
  obtain ⟨hsecret, h⟩ := delimits_lengthPrefixed _ hfits.masterSecret_le _
    hfits'.masterSecret_le _ _ (List.append_cancel_left h)
  obtain ⟨hsalt, h⟩ := delimits_lengthPrefixed _ hfits.masterSalt_le _
    hfits'.masterSalt_le _ _ h
  obtain ⟨hcontext, h⟩ := delimits_contextMarker _ hfits.idContext_le _
    hfits'.idContext_le _ _ h
  exact ⟨hsecret, hsalt, hcontext, delimits_lengthPrefixed.injective
    hfits.senderId_le hfits'.senderId_le h⟩

namespace Material

variable {C : Crypto}

/-- The pseudorandom key all outputs of a context are expanded from. -/
def prk (material : Material C) : Digest :=
  C.hkdfExtract material.masterSalt material.masterSecret.val

def keyInfo (material : Material C) : Bytes :=
  infoBytes material.senderId material.idContext keyType keyLen

def preimage (material : Material C) : Bytes :=
  contextIdPreimage material.masterSecret.val material.masterSalt
    material.idContext material.senderId

theorem deriveKey_eq {masterSecret : Key} {masterSalt id : Bytes}
    {idContext : Option Bytes} (hid : id.length ≤ nonceIdLen)
    (hcontext : (idContext.getD []).length ≤ idContextCapacity) :
    deriveKey C masterSecret masterSalt id idContext =
      .ok (C.hkdfExpand (C.hkdfExtract masterSalt masterSecret.val)
        (infoBytes id idContext keyType keyLen) keyLen) := by
  rw [deriveKey, buildInfoCbor_eq hid hcontext (by decide) (by decide)]
  rfl

theorem deriveIv_eq {masterSecret : Key} {masterSalt : Bytes}
    {idContext : Option Bytes}
    (hcontext : (idContext.getD []).length ≤ idContextCapacity) :
    deriveIv C masterSecret masterSalt idContext =
      .ok (C.hkdfExpand (C.hkdfExtract masterSalt masterSecret.val)
        (infoBytes [] idContext ivType nonceLen) nonceLen) := by
  rw [deriveIv, buildInfoCbor_eq (by decide) hcontext (by decide) (by decide)]
  rfl

theorem senderKey_eq_expand (material : Material C) :
    material.senderKey =
      C.hkdfExpand material.prk material.keyInfo keyLen := by
  have hkey := material.senderKey_eq
  rw [deriveKey_eq material.senderId_le material.idContext_le] at hkey
  exact (Except.ok.inj hkey).symm

theorem commonIv_eq_expand (material : Material C) :
    material.commonIv = C.hkdfExpand material.prk
      (infoBytes [] material.idContext ivType nonceLen) nonceLen := by
  have hiv := material.commonIv_eq
  rw [deriveIv_eq material.idContext_le] at hiv
  exact (Except.ok.inj hiv).symm

/-- Arguments that pass the length checks and name two parties build a
context. -/
theorem exists_build (C : Crypto) (masterSecret : Key)
    {masterSalt idContext : Option Bytes} {senderId recipientId : Bytes}
    (hsender : senderId.length ≤ nonceIdLen)
    (hrecipient : recipientId.length ≤ nonceIdLen)
    (hne : senderId ≠ recipientId)
    (hsalt : (masterSalt.getD []).length ≤ saltMaxLen)
    (hcontext : (idContext.getD []).length ≤ idContextCapacity) :
    ∃ material, build C masterSecret masterSalt idContext senderId
      recipientId = .ok material := by
  have hlen : ¬ (senderId.length > nonceIdLen ∨
      recipientId.length > nonceIdLen) := by
    rintro (h | h)
    · exact absurd h (Nat.not_lt.mpr hsender)
    · exact absurd h (Nat.not_lt.mpr hrecipient)
  have hempty : ¬ (senderId = [] ∧ recipientId = []) :=
    fun h => hne (h.1.trans h.2.symm)
  simp only [build]
  rw [dif_neg hlen, if_neg hempty, dif_neg hne,
    dif_neg (Nat.not_lt.mpr hsalt), dif_neg (Nat.not_lt.mpr hcontext)]
  split
  · rename_i fault h
    exact absurd (deriveKey_eq hsender hcontext ▸ h) (by simp)
  split
  · rename_i fault h
    exact absurd (deriveKey_eq hrecipient hcontext ▸ h) (by simp)
  split
  · rename_i fault h
    exact absurd (deriveIv_eq hcontext ▸ h) (by simp)
  · exact ⟨_, rfl⟩

/-- HMAC, HKDF-Expand and SHA-256 do not collide on what the two derivations
feed them, apart from the zero padding of an HMAC key. -/
structure NoCollision (material other : Material C) : Prop where
  hmac : material.prk = other.prk →
    Crypto.padBlock material.masterSalt = Crypto.padBlock other.masterSalt ∧
      material.masterSecret.val = other.masterSecret.val
  expand : C.hkdfExpand material.prk material.keyInfo keyLen =
      C.hkdfExpand other.prk other.keyInfo keyLen →
    material.prk = other.prk ∧ material.keyInfo = other.keyInfo
  sha256 : C.sha256 material.preimage = C.sha256 other.preimage →
    material.preimage = other.preimage

/-- The inputs agree except for salts that differ in trailing zero bytes. -/
structure PaddedApart (material other : Material C) : Prop where
  masterSecret : material.masterSecret = other.masterSecret
  idContext : material.idContext = other.idContext
  senderId : material.senderId = other.senderId
  salts_ne : material.masterSalt ≠ other.masterSalt
  padded : Crypto.padBlock material.masterSalt =
    Crypto.padBlock other.masterSalt

/-- Contexts that encrypt under one key and IV count in one record. -/
def SharesRecord (material other : Material C) : Prop :=
  material.senderKey = other.senderKey → material.commonIv = other.commonIv →
    material.contextId = other.contextId

theorem salt_le (material : Material C) : material.masterSalt.length ≤ 64 :=
  Nat.le_trans material.masterSalt_le (by decide)

theorem PaddedApart.prk {material other : Material C} (hpads : C.HmacPads)
    (h : PaddedApart material other) : material.prk = other.prk := by
  rw [Material.prk, Material.prk, Crypto.hkdfExtract, Crypto.hkdfExtract,
    ← hpads _ _ material.salt_le, ← hpads _ _ other.salt_le, h.padded,
    h.masterSecret]

/-- The constructor admits no field that its length byte cannot hold. -/
theorem admitted (material : Material C) :
    Admitted material.masterSecret.val material.masterSalt material.idContext
      material.senderId where
  masterSecret_le := by
    rw [material.masterSecret.property]
    decide
  masterSalt_le := Nat.le_trans material.masterSalt_le (by decide)
  idContext_le := Nat.le_trans material.idContext_le (by decide)
  senderId_le := Nat.le_trans material.senderId_le (by decide)

theorem shortContext (material : Material C) :
    ShortContext material.idContext :=
  Nat.le_trans material.idContext_le (by decide)

theorem senderId_short (material : Material C) :
    material.senderId.length ≤ 23 :=
  Nat.le_trans material.senderId_le (by decide)

/-- What the hashed identifier tells apart. -/
theorem preimage_injective {material other : Material C}
    (h : material.preimage = other.preimage) :
    material.masterSalt = other.masterSalt :=
  (contextIdPreimage_injective material.admitted other.admitted h).2.1

theorem PaddedApart.splits {material other : Material C}
    (hpads : C.HmacPads) (hfree : NoCollision material other)
    (h : PaddedApart material other) : ¬ SharesRecord material other := by
  intro hshares
  have hprk := h.prk hpads
  have hkey : material.senderKey = other.senderKey := by
    rw [senderKey_eq_expand, senderKey_eq_expand, hprk, keyInfo, keyInfo,
      h.senderId, h.idContext]
  have hiv : material.commonIv = other.commonIv := by
    rw [commonIv_eq_expand, commonIv_eq_expand, hprk, h.idContext]
  have hid := hshares hkey hiv
  rw [material.contextId_eq, other.contextId_eq] at hid
  exact h.salts_ne (preimage_injective (hfree.sha256 hid))

theorem sharesRecord_of_not_apart {material other : Material C}
    (hfree : NoCollision material other)
    (h : ¬ PaddedApart material other) : SharesRecord material other := by
  intro hkey _
  rw [senderKey_eq_expand, senderKey_eq_expand] at hkey
  obtain ⟨hprk, hinfo⟩ := hfree.expand hkey
  obtain ⟨hpadded, hsecret⟩ := hfree.hmac hprk
  obtain ⟨hsender, hcontext⟩ := infoBytes_injective material.senderId_short
    other.senderId_short material.shortContext other.shortContext hinfo
  have hmaster := Subtype.ext hsecret
  have hsalt : material.masterSalt = other.masterSalt := by
    by_contra hne
    exact h ⟨hmaster, hcontext, hsender, hne, hpadded⟩
  rw [material.contextId_eq, other.contextId_eq, hmaster, hsalt, hcontext,
    hsender]

/-- One key and IV mean one record, unless the salts differ in trailing zero
bytes only. -/
theorem sharesRecord_iff (hpads : C.HmacPads) (material other : Material C)
    (hfree : NoCollision material other) :
    SharesRecord material other ↔ ¬ PaddedApart material other := by
  constructor
  · intro hshares hapart
    exact hapart.splits hpads hfree hshares
  · exact sharesRecord_of_not_apart hfree

/-- A context of two fixed parties with the given salt. -/
theorem sample_build (salt : Option Bytes)
    (hsalt : (salt.getD []).length ≤ saltMaxLen) :
    ∃ material : Material Crypto.standIn,
      build Crypto.standIn Crypto.sampleKey salt none [1] [2] =
        .ok material ∧
      material.masterSecret = Crypto.sampleKey ∧
      material.masterSalt = salt.getD [] ∧ material.idContext = none ∧
      material.senderId = [1] := by
  have hne : ([1] : Bytes) ≠ [2] := by decide
  obtain ⟨material, hbuild⟩ := @exists_build Crypto.standIn Crypto.sampleKey
    salt none [1] [2] (by decide) (by decide) hne hsalt (by decide)
  obtain ⟨hsecret, hmaster, hcontext, hsender, -⟩ := of_build hbuild
  exact ⟨material, hbuild, hsecret, hmaster, hcontext, hsender⟩

theorem sharesRecord_iff_distinct_salts :
    ∃ material other : Material Crypto.standIn,
      NoCollision material other ∧
      (SharesRecord material other ↔ ¬ PaddedApart material other) := by
  obtain ⟨material, -, hsecret, hsalt, hcontext, hsender⟩ :=
    sample_build none (by decide)
  obtain ⟨other, -, hsecret', hsalt', hcontext', hsender'⟩ :=
    sample_build (some [1]) (by decide)
  have hprk : material.prk ≠ other.prk := by
    simp only [prk, hsecret, hsalt, hsecret', hsalt']
    decide +kernel
  have hkey : Crypto.standIn.hkdfExpand material.prk material.keyInfo keyLen ≠
      Crypto.standIn.hkdfExpand other.prk other.keyInfo keyLen := by
    simp only [prk, keyInfo, hsecret, hsalt, hcontext, hsender, hsecret',
      hsalt', hcontext', hsender']
    decide +kernel
  have hsha : Crypto.standIn.sha256 material.preimage ≠
      Crypto.standIn.sha256 other.preimage := by
    simp only [preimage, hsecret, hsalt, hcontext, hsender, hsecret', hsalt',
      hcontext', hsender']
    decide +kernel
  have hfree : NoCollision material other :=
    ⟨fun h => absurd h hprk, fun h => absurd h hkey, fun h => absurd h hsha⟩
  exact ⟨material, other, hfree,
    sharesRecord_iff Crypto.standIn_hmacPads material other hfree⟩

/-- An absent salt and a salt of one zero byte give one key and IV, and two
records. -/
theorem zero_salt_splits_record :
    ∃ material other : Material Crypto.standIn,
      build Crypto.standIn Crypto.sampleKey none none [1] [2] =
        .ok material ∧
      build Crypto.standIn Crypto.sampleKey (some [0]) none [1] [2] =
        .ok other ∧
      Crypto.standIn.HmacPads ∧ NoCollision material other ∧
      ¬ SharesRecord material other := by
  obtain ⟨material, hbuild, hsecret, hsalt, hcontext, hsender⟩ :=
    sample_build none (by decide)
  obtain ⟨other, hbuild', hsecret', hsalt', hcontext', hsender'⟩ :=
    sample_build (some [0]) (by decide)
  have hpadded : Crypto.padBlock material.masterSalt =
      Crypto.padBlock other.masterSalt := by
    rw [hsalt, hsalt']
    decide
  have hapart : PaddedApart material other :=
    ⟨by rw [hsecret, hsecret'], by rw [hcontext, hcontext'],
      by rw [hsender, hsender'], by simp [hsalt, hsalt'], hpadded⟩
  have hsha : Crypto.standIn.sha256 material.preimage ≠
      Crypto.standIn.sha256 other.preimage := by
    simp only [preimage, hsecret, hsalt, hcontext, hsender, hsecret', hsalt',
      hcontext', hsender']
    decide +kernel
  have hfree : NoCollision material other := by
    refine ⟨fun _ => ⟨hpadded, by rw [hsecret, hsecret']⟩, fun _ => ?_,
      fun h => absurd h hsha⟩
    refine ⟨hapart.prk Crypto.standIn_hmacPads, ?_⟩
    rw [keyInfo, keyInfo, hsender, hsender', hcontext, hcontext']
  exact ⟨material, other, hbuild, hbuild', Crypto.standIn_hmacPads, hfree,
    hapart.splits Crypto.standIn_hmacPads hfree⟩

end Material

namespace Context

variable {C : Crypto}

/-- SHA-256 does not collide on the two strings hashed for these contexts. -/
def RecordsApart (self other : Context C) : Prop :=
  C.sha256 self.toMaterial.preimage = C.sha256 other.toMaterial.preimage →
    self.toMaterial.preimage = other.toMaterial.preimage

/-- Two contexts name one record if and only if they were built from the same
secret, salt, ID context and sender ID. -/
theorem contextId_eq_iff {secret secret' : Key} {salt salt' : Option Bytes}
    {idContext idContext' : Option Bytes}
    {sender sender' recipient recipient' : Bytes} {self other : Context C}
    (hself : new C secret salt idContext sender recipient = .ok self)
    (hother : new C secret' salt' idContext' sender' recipient' = .ok other)
    (hfree : RecordsApart self other) :
    self.contextId = other.contextId ↔
      secret = secret' ∧ salt.getD [] = salt'.getD [] ∧
        idContext = idContext' ∧ sender = sender' := by
  obtain ⟨material, hbuild, rfl⟩ := new_eq_ok.mp hself
  obtain ⟨material', hbuild', rfl⟩ := new_eq_ok.mp hother
  obtain ⟨rfl, hsalt, rfl, rfl, -⟩ := Material.of_build hbuild
  obtain ⟨rfl, hsalt', rfl, rfl, -⟩ := Material.of_build hbuild'
  rw [← hsalt, ← hsalt']
  constructor
  · intro hid
    have hhash : C.sha256 material.preimage = C.sha256 material'.preimage :=
      material.contextId_eq.symm.trans (hid.trans material'.contextId_eq)
    obtain ⟨hsecret, hsame⟩ := contextIdPreimage_injective material.admitted
      material'.admitted (hfree hhash)
    exact ⟨Subtype.ext hsecret, hsame⟩
  · rintro ⟨hsecret, hmaster, hcontext, hsender⟩
    change material.contextId = material'.contextId
    rw [material.contextId_eq, material'.contextId_eq, hsecret, hmaster,
      hcontext, hsender]

/-- An absent and an empty ID context. -/
theorem contextId_eq_iff_absent_empty :
    ∃ self other : Context Crypto.standIn, RecordsApart self other ∧
      (self.contextId = other.contextId ↔
        Crypto.sampleKey = Crypto.sampleKey ∧
          (none : Option Bytes).getD [] = (none : Option Bytes).getD [] ∧
          (none : Option Bytes) = some [] ∧ ([1] : Bytes) = [1]) := by
  have hne : ([1] : Bytes) ≠ [2] := by decide
  obtain ⟨material, hbuild⟩ := @Material.exists_build Crypto.standIn
    Crypto.sampleKey none none [1] [2] (by decide) (by decide) hne (by decide)
    (by decide)
  obtain ⟨other, hbuild'⟩ := @Material.exists_build Crypto.standIn
    Crypto.sampleKey none (some []) [1] [2] (by decide) (by decide) hne
    (by decide) (by decide)
  obtain ⟨hsecret, hsalt, hcontext, hsender, -⟩ := Material.of_build hbuild
  obtain ⟨hsecret', hsalt', hcontext', hsender', -⟩ :=
    Material.of_build hbuild'
  have hsha : Crypto.standIn.sha256 material.preimage ≠
      Crypto.standIn.sha256 other.preimage := by
    simp only [Material.preimage, hsecret, hsalt, hcontext, hsender, hsecret',
      hsalt', hcontext', hsender']
    decide +kernel
  have hfree : RecordsApart (initial material) (initial other) :=
    fun h => absurd h hsha
  exact ⟨initial material, initial other, hfree,
    contextId_eq_iff (new_eq_ok.mpr ⟨material, hbuild, rfl⟩)
      (new_eq_ok.mpr ⟨other, hbuild', rfl⟩) hfree⟩

end Context

end Oscore
