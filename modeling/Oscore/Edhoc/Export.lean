/-
The contexts that the two sides of a session export: they mirror each other
where the sides hold the same secrets and each other's identifiers.
-/
import Oscore.Edhoc.Transcript
import Oscore.Exchange

namespace Oscore.Edhoc

open Rust

variable {X : Suite}

/-- The contexts of two parties that share one secret and one salt. -/
structure Mirrored (own peer : Material X.toCrypto) : Prop
    extends own.Mirrors peer where
  masterSecret : peer.masterSecret = own.masterSecret
  masterSalt : peer.masterSalt = own.masterSalt

theorem exportContext_eq_ok {prk th : Bytes32} {senderId recipientId : Bytes}
    {context : Context X.toCrypto} :
    exportContext X prk th senderId recipientId = .ok context ↔
      ∃ secrets material, exportSecrets X prk th = .ok secrets ∧
        Material.build X.toCrypto secrets.1 (some secrets.2.val) none senderId
          recipientId = .ok material ∧
        context =
          { Context.initial material with allowNoPivResponse := true } := by
  simp only [exportContext, Outcome.bind_eq_ok, mapErr_eq_ok,
    Context.newFresh_eq_ok]
  constructor
  · rintro ⟨secrets, hsecrets, material, hbuild, rfl⟩
    exact ⟨secrets, material, hsecrets, hbuild, rfl⟩
  · rintro ⟨secrets, material, hsecrets, hbuild, rfl⟩
    exact ⟨secrets, hsecrets, material, hbuild, rfl⟩

/-- Two different identifiers that fit the nonce can be exported. -/
theorem exists_exportContext (X : Suite) (prk th : Bytes32)
    {senderId recipientId : ConnectionId} (hne : senderId ≠ recipientId) :
    ∃ context, exportContext X prk th senderId.toList recipientId.toList =
      .ok context := by
  obtain ⟨secrets, hsecrets⟩ := exists_exportSecrets X prk th
  have hids : senderId.toList ≠ recipientId.toList := fun h =>
    hne (HVec.ext h)
  obtain ⟨material, hbuild⟩ : ∃ material, Material.build X.toCrypto secrets.1
      (some secrets.2.val) none senderId.toList recipientId.toList =
        .ok material :=
    Material.exists_build X.toCrypto secrets.1 senderId.length_le
      recipientId.length_le hids (le_of_eq secrets.2.property) (Nat.zero_le _)
  exact ⟨_, exportContext_eq_ok.mpr ⟨secrets, material, hsecrets, hbuild, rfl⟩⟩

/-- Exports from one secret, with the identifiers swapped. -/
theorem mirrored_of_exportContext {prk th : Bytes32}
    {senderId recipientId : Bytes} {own peer : Context X.toCrypto}
    (h : exportContext X prk th senderId recipientId = .ok own)
    (hpeer : exportContext X prk th recipientId senderId = .ok peer) :
    Mirrored own.toMaterial peer.toMaterial := by
  obtain ⟨secrets, material, hsecrets, hbuild, rfl⟩ :=
    exportContext_eq_ok.mp h
  obtain ⟨secrets', material', hsecrets', hbuild', rfl⟩ :=
    exportContext_eq_ok.mp hpeer
  cases Except.ok.inj (hsecrets.symm.trans hsecrets')
  obtain ⟨hsecret, hsalt, -⟩ := Material.of_build hbuild
  obtain ⟨hsecret', hsalt', -⟩ := Material.of_build hbuild'
  exact ⟨Material.mirrors_of_build hbuild hbuild',
    hsecret'.trans hsecret.symm, hsalt'.trans hsalt.symm⟩

/-- An exported context has the identifiers it was exported with. -/
theorem ids_of_exportContext {prk th : Bytes32} {senderId recipientId : Bytes}
    {context : Context X.toCrypto}
    (h : exportContext X prk th senderId recipientId = .ok context) :
    context.senderId = senderId ∧ context.recipientId = recipientId := by
  obtain ⟨secrets, material, -, hbuild, rfl⟩ := exportContext_eq_ok.mp h
  obtain ⟨-, -, -, hsender, hrecipient⟩ := Material.of_build hbuild
  exact ⟨hsender, hrecipient⟩

end Oscore.Edhoc
