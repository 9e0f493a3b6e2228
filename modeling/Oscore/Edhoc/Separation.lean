/-
Sessions stay apart in OSCORE.  A context is expanded from the last transcript
hash of its session, and every session has put an ephemeral key of its own into
it; so the contexts of two sessions share neither a sender key nor a sender
record.
-/
import Oscore.Edhoc.Authentication
import Oscore.KeyRecord

namespace Oscore.Edhoc

open Rust

variable {X : Suite}

/-! What a context is expanded from. -/

def prkOut (X : Suite) (prk th : Bytes32) : Bytes32 :=
  X.hkdfExpand prk (kdfInfo labelPrkOut th.val 32) 32

def prkExporter (X : Suite) (prk th : Bytes32) : Bytes32 :=
  X.hkdfExpand (prkOut X prk th) (kdfInfo labelPrkExporter [] 32) 32

def oscoreSecret (X : Suite) (prk th : Bytes32) : Key :=
  X.hkdfExpand (prkExporter X prk th) (kdfInfo labelOscoreSecret [] keyLen)
    keyLen

def oscoreSalt (X : Suite) (prk th : Bytes32) : Block 8 :=
  X.hkdfExpand (prkExporter X prk th) (kdfInfo labelOscoreSalt [] 8) 8

theorem exportSecrets_eq (X : Suite) (prk th : Bytes32) :
    exportSecrets X prk th =
      .ok (oscoreSecret X prk th, oscoreSalt X prk th) := by
  have hth : th.val.length ≤ 96 := by
    rw [th.property]
    decide
  rw [exportSecrets, edhocKdf_of_le (by decide) (by decide) hth,
    Outcome.ok_bind, edhocKdf_of_le (by decide) (by decide) (by decide),
    Outcome.ok_bind, edhocKdf_of_le (by decide) (by decide) (by decide),
    Outcome.ok_bind, edhocKdf_of_le (by decide) (by decide) (by decide)]
  rfl

/-- The three expansions behind a master secret do not collide. -/
structure ExpandsApart (X : Suite) (prk th prk' th' : Bytes32) : Prop where
  out : prkOut X prk th = prkOut X prk' th' → prk = prk' ∧
    kdfInfo labelPrkOut th.val 32 = kdfInfo labelPrkOut th'.val 32
  exporter : prkExporter X prk th = prkExporter X prk' th' →
    prkOut X prk th = prkOut X prk' th'
  secret : oscoreSecret X prk th = oscoreSecret X prk' th' →
    prkExporter X prk th = prkExporter X prk' th'

/-- One master secret comes from one transcript hash. -/
theorem ExpandsApart.th_eq {prk th prk' th' : Bytes32}
    (h : ExpandsApart X prk th prk' th')
    (heq : oscoreSecret X prk th = oscoreSecret X prk' th') : th = th' := by
  obtain ⟨-, hinfo⟩ := h.out (h.exporter (h.secret heq))
  have hbound : ∀ th : Bytes32, th.val.length ≤ Cbor.bstrMax := by
    intro th
    rw [th.property]
    decide
  exact Subtype.ext (kdfInfo_injective (by decide) (by decide) (hbound th)
    (hbound th') (by decide) (by decide) hinfo).2.1

namespace Session

/-- `export_oscore`, in either role. -/
def exportOscore : Session X → Outcome OscoreError (Context X.toCrypto)
  | .initiator seed ephSeed cI ops =>
      (EdhocInitiator.afterOps X seed ephSeed cI ops).exportOscore X
  | .responder seed ephSeed cR ops =>
      (EdhocResponder.afterOps X seed ephSeed cR ops).exportOscore X

/-- The connection identifiers: the one of the peer, then the own one. -/
def ids : Session X → ConnectionId × ConnectionId
  | .initiator seed ephSeed cI ops =>
      ((EdhocInitiator.afterOps X seed ephSeed cI ops).cR,
        (EdhocInitiator.afterOps X seed ephSeed cI ops).cI)
  | .responder seed ephSeed cR ops =>
      ((EdhocResponder.afterOps X seed ephSeed cR ops).cI,
        (EdhocResponder.afterOps X seed ephSeed cR ops).cR)

/-- A context that the session exports, with what it was made from. -/
structure Exported (session : Session X) (context : Context X.toCrypto) :
    Prop where
  complete : session.state.lifecycle = .complete
  masterSecret : context.masterSecret =
    oscoreSecret X session.state.prk4e3m session.state.th4
  masterSalt : context.masterSalt =
    (oscoreSalt X session.state.prk4e3m session.state.th4).val
  idContext : context.idContext = none
  senderId : context.senderId = session.ids.1.toList

theorem exported_of_exportContext {session : Session X}
    {context : Context X.toCrypto}
    (hcomplete : session.state.lifecycle = .complete)
    (h : exportContext X session.state.prk4e3m session.state.th4
      session.ids.1.toList session.ids.2.toList = .ok context) :
    session.Exported context := by
  obtain ⟨secrets, material, hsecrets, hbuild, rfl⟩ := exportContext_eq_ok.mp h
  rw [exportSecrets_eq] at hsecrets
  cases hsecrets
  obtain ⟨hsecret, hsalt, hcontext, hsender, -⟩ := Material.of_build hbuild
  exact ⟨hcomplete, hsecret, hsalt, hcontext, hsender⟩

theorem exported_of_exportOscore {session : Session X}
    {context : Context X.toCrypto} (h : session.exportOscore = .ok context) :
    session.Exported context := by
  cases session with
  | initiator seed ephSeed cI ops =>
      have hcompleted := EdhocInitiator.completed_of_export h
      have hinv := EdhocInitiator.inv_run (X := X) seed ephSeed cI ops
      simp only [exportOscore, EdhocInitiator.exportOscore,
        Outcome.bind_eq_ok, failIf_eq_ok, exists_const] at h
      exact exported_of_exportContext (hinv.completed_iff.mp hcompleted) h.2
  | responder seed ephSeed cR ops =>
      have hcompleted := EdhocResponder.completed_of_export h
      have hinv := EdhocResponder.inv_run (X := X) seed ephSeed cR ops
      simp only [exportOscore, EdhocResponder.exportOscore,
        Outcome.bind_eq_ok, failIf_eq_ok, exists_const] at h
      exact exported_of_exportContext (hinv.completed_iff.mp hcompleted) h.2

end Session

/-! One transcript hash in two sessions. -/

/-- `TH_3` determines the ephemeral key in message 1. -/
theorem EdhocInitiator.HasTh4.ephPublic_eq {self other : EdhocInitiator}
    {pending pending' : PendingMessage2 X} {peer peer' : PeerCredential}
    (h : self.HasTh4 X pending peer) (h' : other.HasTh4 X pending' peer')
    (hth4 : self.th4 = other.th4)
    (hfree : CollisionFree X (self.asked ++ other.asked)) :
    self.ephPublic = other.ephPublic := by
  obtain ⟨plaintext, cred, hle, h4⟩ := h.th4
  obtain ⟨plaintext', cred', hle', h4'⟩ := h'.th4
  obtain ⟨hth3, -, -⟩ :=
    thBytes_injective hle hle' (h4.input_eq (hth4 ▸ h4') hfree)
  obtain ⟨hth2, -, -⟩ := thBytes_injective (plaintext_le pending.plaintext)
    (plaintext_le pending'.plaintext) (h.th3.input_eq (hth3 ▸ h'.th3) hfree)
  obtain ⟨-, hhash⟩ := th2Bytes_injective (h.th2.input_eq (hth2 ▸ h'.th2) hfree)
  have hmsg1 : self.msg1.toList = other.msg1.toList :=
    hfree.hashed (List.mem_append_left _ h.sent)
      (List.mem_append_right _ h'.sent) hhash
  have hparsed := parseGX_message1Bytes self.ephPublic self.cI
  rw [← h.msg1, hmsg1, h'.msg1, parseGX_message1Bytes] at hparsed
  exact (Prod.mk.inj (Except.ok.inj hparsed)).1.symm

/-- `TH_2` determines the ephemeral key in message 2. -/
theorem EdhocResponder.HasTh4.ephPublic_eq {self other : EdhocResponder}
    {msg1 msg1' : Bytes} (h : self.HasTh4 X msg1) (h' : other.HasTh4 X msg1')
    (hth4 : self.th4 = other.th4)
    (hfree : CollisionFree X (self.asked ++ other.asked)) :
    self.ephPublic = other.ephPublic := by
  obtain ⟨plaintext, cred, hle, h4⟩ := h.th4
  obtain ⟨plaintext', cred', hle', h4'⟩ := h'.th4
  obtain ⟨hth3, -, -⟩ :=
    thBytes_injective hle hle' (h4.input_eq (hth4 ▸ h4') hfree)
  have hmax : ∀ responder : EdhocResponder, (message2Plaintext X
      responder.privkey responder.pubkey responder.prk3e2m responder.th2
      responder.cR).length ≤ Cbor.bstrMax := fun responder =>
    le_trans (length_message2Plaintext_le _ _ _ _ _) (by decide)
  obtain ⟨hth2, -, -⟩ := thBytes_injective (hmax self) (hmax other)
    (h.th3.input_eq (hth3 ▸ h'.th3) hfree)
  exact (th2Bytes_injective (h.th2.input_eq (hth2 ▸ h'.th2) hfree)).1

/-- Two roles that made one `TH_4` send under different identifiers. -/
theorem cR_ne_of_th4_eq {initiator : EdhocInitiator}
    {responder : EdhocResponder} {pending : PendingMessage2 X}
    {peer : PeerCredential} {msg1 : Bytes}
    (hI : initiator.HasTh4 X pending peer) (hR : responder.HasTh4 X msg1)
    (hth4 : initiator.th4 = responder.th4)
    (hfree : CollisionFree X (initiator.asked ++ responder.asked))
    (hunforged : Unforged X responder.pubkey initiator.asked
      responder.asked) : initiator.cR ≠ responder.cI := by
  obtain ⟨-, hcR, -⟩ := session_eq hI hR hth4 hfree hunforged
  exact fun hsame => hR.ids_ne (hsame.symm.trans hcR)

theorem EdhocInitiator.exists_hasTh4 {seed ephSeed : Bytes32}
    {cI : ConnectionId} {ops : List (EdhocInitiator.Op X)}
    (h : (EdhocInitiator.afterOps X seed ephSeed cI ops).lifecycle =
      .complete) :
    ∃ pending peer, (EdhocInitiator.afterOps X seed ephSeed cI ops).HasTh4 X
      pending peer :=
  (EdhocInitiator.run_follows seed ephSeed cI ops).complete h

theorem EdhocResponder.exists_hasTh4 {seed ephSeed : Bytes32} {cR : UInt8}
    {ops : List (EdhocResponder.Op X)}
    (h : (EdhocResponder.afterOps X seed ephSeed cR ops).lifecycle =
      .complete) :
    ∃ msg1, (EdhocResponder.afterOps X seed ephSeed cR ops).HasTh4 X msg1 :=
  (EdhocResponder.run_follows seed ephSeed cR ops).complete h

/-- Two sessions with ephemeral keys of their own do not send under one
identifier and one `TH_4`. -/
theorem Ideal.not_th4_eq {world : List (Session X)} (hideal : Ideal world)
    {s t : Session X} (hs : s ∈ world) (ht : t ∈ world)
    (hfresh : s.state.ephPublic ≠ t.state.ephPublic)
    (hcomplete : s.state.lifecycle = .complete)
    (hcomplete' : t.state.lifecycle = .complete)
    (hsender : s.ids.1 = t.ids.1) : s.state.th4 ≠ t.state.th4 := by
  intro hth4
  have hfree := hideal.free_append hs ht (List.Subset.refl _)
    (List.Subset.refl _)
  have hfree' := hideal.free_append ht hs (List.Subset.refl _)
    (List.Subset.refl _)
  cases s with
  | initiator =>
      obtain ⟨pending, peer, hI⟩ := EdhocInitiator.exists_hasTh4 hcomplete
      cases t with
      | initiator =>
          obtain ⟨_, _, hI'⟩ := EdhocInitiator.exists_hasTh4 hcomplete'
          exact hfresh (hI.ephPublic_eq hI' hth4 hfree)
      | responder =>
          obtain ⟨_, hR⟩ := EdhocResponder.exists_hasTh4 hcomplete'
          exact cR_ne_of_th4_eq hI hR hth4 hfree (hideal.bound _ hs _ ht)
            hsender
  | responder =>
      obtain ⟨msg1, hR⟩ := EdhocResponder.exists_hasTh4 hcomplete
      cases t with
      | initiator =>
          obtain ⟨_, _, hI⟩ := EdhocInitiator.exists_hasTh4 hcomplete'
          exact cR_ne_of_th4_eq hI hR hth4.symm hfree' (hideal.bound _ ht _ hs)
            hsender.symm
      | responder =>
          obtain ⟨_, hR'⟩ := EdhocResponder.exists_hasTh4 hcomplete'
          exact hfresh (hR.ephPublic_eq hR' hth4 hfree)

/-! The exported contexts. -/

/-- The derivations of two exported contexts do not collide. -/
def ExportsApart (s t : Session X) : Prop :=
  ∀ own other, s.exportOscore = .ok own → t.exportOscore = .ok other →
    Material.NoCollision own.toMaterial other.toMaterial ∧
      ExpandsApart X s.state.prk4e3m s.state.th4 t.state.prk4e3m t.state.th4

/-- One sender key is expanded from one secret, for one sender. -/
theorem sender_of_senderKey {C : Crypto}
    {material other : Material C}
    (h : Material.NoCollision material other)
    (hkey : material.senderKey = other.senderKey) :
    material.masterSecret = other.masterSecret ∧
      material.senderId = other.senderId := by
  rw [Material.senderKey_eq_expand, Material.senderKey_eq_expand] at hkey
  obtain ⟨hprk, hinfo⟩ := h.expand hkey
  obtain ⟨hsender, -⟩ := infoBytes_injective material.senderId_short
    other.senderId_short material.shortContext other.shortContext hinfo
  exact ⟨Subtype.ext (h.hmac hprk).2, hsender⟩

/-- One record is named by one secret, for one sender. -/
theorem sender_of_contextId {C : Crypto}
    {material other : Material C}
    (h : Material.NoCollision material other)
    (hid : material.contextId = other.contextId) :
    material.masterSecret = other.masterSecret ∧
      material.senderId = other.senderId := by
  rw [material.contextId_eq, other.contextId_eq] at hid
  obtain ⟨hsecret, -, -, hsender⟩ := contextIdPreimage_injective
    material.admitted other.admitted (h.sha256 hid)
  exact ⟨Subtype.ext hsecret, hsender⟩

/-- Whatever the attacker does with any number of sessions that have ephemeral
keys of their own: the contexts that two of them export count in different
sender records and encrypt under different keys. -/
theorem exports_stay_apart {world : List (Session X)} (hideal : Ideal world)
    (hfresh : world.Pairwise fun s t =>
      s.state.ephPublic ≠ t.state.ephPublic)
    (hexports : world.Pairwise ExportsApart) :
    world.Pairwise fun s t => ∀ own other, s.exportOscore = .ok own →
      t.exportOscore = .ok other → own.contextId ≠ other.contextId ∧
        own.senderKey ≠ other.senderKey := by
  refine (hfresh.and hexports).imp_of_mem ?_
  rintro s t hs ht ⟨hfresh, hexports⟩ own other hown hother
  have hself := Session.exported_of_exportOscore hown
  have hpeer := Session.exported_of_exportOscore hother
  obtain ⟨hfree, hexpand⟩ := hexports own other hown hother
  have hapart : ¬ (own.masterSecret = other.masterSecret ∧
      own.senderId = other.senderId) := by
    rintro ⟨hsecret, hsender⟩
    rw [hself.masterSecret, hpeer.masterSecret] at hsecret
    rw [hself.senderId, hpeer.senderId] at hsender
    exact hideal.not_th4_eq hs ht hfresh hself.complete hpeer.complete
      (HVec.ext hsender) (hexpand.th_eq hsecret)
  exact ⟨fun hid => hapart (sender_of_contextId hfree hid),
    fun hkey => hapart (sender_of_senderKey hfree hkey)⟩

theorem exports_stay_apart_standIn :
    (∀ s ∈ standInWorld, ∃ own, s.exportOscore = .ok own) ∧
      standInWorld.Pairwise fun s t => ∀ own other, s.exportOscore = .ok own →
        t.exportOscore = .ok other → own.contextId ≠ other.contextId ∧
          own.senderKey ≠ other.senderKey := by
  have hexport : ∀ s ∈ standInWorld, s.exportOscore.isOk = true := by
    decide +kernel
  refine ⟨fun s hs => Outcome.exists_ok_iff.mpr (hexport s hs),
    exports_stay_apart standInWorld_ideal (by decide +kernel) ?_⟩
  refine List.pairwise_pair.mpr fun own other hown hother => ?_
  have hI := Session.exported_of_exportOscore hown
  have hR := Session.exported_of_exportOscore hother
  -- the two sides hold one secret, and send under different identifiers
  have hprk : standInWorld[0].state.prk4e3m = standInWorld[1].state.prk4e3m :=
    by decide +kernel
  have hth4 : standInWorld[0].state.th4 = standInWorld[1].state.th4 := by
    decide +kernel
  have hsecret : own.masterSecret = other.masterSecret :=
    (hI.masterSecret.trans (congrArg₂ (oscoreSecret _) hprk hth4)).trans
      hR.masterSecret.symm
  have hsalt : own.masterSalt = other.masterSalt :=
    (hI.masterSalt.trans (congrArg₂ (fun prk th =>
      (oscoreSalt .standIn prk th).val) hprk hth4)).trans hR.masterSalt.symm
  have hkey : Crypto.standIn.hkdfExpand own.toMaterial.prk
      own.toMaterial.keyInfo keyLen ≠ Crypto.standIn.hkdfExpand
        other.toMaterial.prk other.toMaterial.keyInfo keyLen := by
    simp only [Material.prk, Material.keyInfo, hI.masterSecret, hI.masterSalt,
      hI.idContext, hI.senderId, hR.masterSecret, hR.masterSalt, hR.idContext,
      hR.senderId]
    decide +kernel
  have hsha : Crypto.standIn.sha256 own.toMaterial.preimage ≠
      Crypto.standIn.sha256 other.toMaterial.preimage := by
    simp only [Material.preimage, hI.masterSecret, hI.masterSalt,
      hI.idContext, hI.senderId, hR.masterSecret, hR.masterSalt, hR.idContext,
      hR.senderId]
    decide +kernel
  have hexpand : ExpandsApart .standIn standInWorld[0].state.prk4e3m
      standInWorld[0].state.th4 standInWorld[1].state.prk4e3m
      standInWorld[1].state.th4 := by
    rw [hprk, hth4]
    exact ⟨fun _ => ⟨rfl, rfl⟩, fun _ => rfl, fun _ => rfl⟩
  refine ⟨⟨fun _ => ⟨?_, ?_⟩, fun h => absurd h hkey, fun h => absurd h hsha⟩,
    hexpand⟩
  · exact congrArg Crypto.padBlock hsalt
  · exact congrArg Subtype.val hsecret

end Oscore.Edhoc
