import Duocb.Config.RoundTrip

set_option relaxedAutoImplicit false
set_option autoImplicit false

/-!
# A save that is interrupted

A save writes the key before the file, so that the two stores can fall out of step in one direction
only. While the key stays the same, or there is no file yet, this is harmless. When the identity
changes under a file that holds a card of the old key, the new key locks its user out until the file
is replaced.

## Main definitions

* `Duocb.Store.RefersTo` — a file refers to a key by the own card it holds.
* `Duocb.Store.Consistent` — a store that loads, with the old or the new configuration or nothing.

## Main results

* `Duocb.App.interrupted_save_consistent` — when a save can be interrupted at any step.
* `Duocb.App.interrupted_reset_locked_out` — an interrupted reset leaves a store that does not load.
-/

namespace Duocb

variable {τ : Type} {N : Nostr} {B : Bech32} {J : ConfigJson} {path : String}

/-- Two configurations are the same, up to the form of the private key. -/
def Config.Agrees (B : Bech32) (c d : Config) : Prop :=
  c.toConfigFile = d.toConfigFile ∧
    Identity.parseNsec B c.identitySecret = Identity.parseNsec B d.identitySecret

/-- A configuration that has nothing of an identity but the key. -/
structure ConfigFile.CleanStart (file : ConfigFile) : Prop where
  myName : file.myName = none
  selfCard : file.selfCard = none
  peers : file.peers = []

/-- The file of a store refers to a key: the own card in it is a card of this key. -/
def Store.RefersTo (N : Nostr) (J : ConfigJson) (s : Store) (key : PublicKey) : Prop :=
  ∃ content file encoded card, s.file = some content ∧ J.fromJson content = .ok file ∧
    file.selfCard = some encoded ∧ IdentityCard.parse N encoded = .ok card ∧ card.publicKey = key

/-- The credential of a store is the private key of a public one. -/
def Store.Holds (B : Bech32) (s : Store) (key : PublicKey) : Prop :=
  ∃ secret identity, s.credential = some secret ∧ Identity.parseNsec B secret = .ok identity ∧
    identity.publicKey = key

/-- The next launch loads the store, and has the old configuration, the new one, or a clean start.
The key that the file refers to is there. -/
structure Store.Consistent (N : Nostr) (B : Bech32) (J : ConfigJson) (path : String)
    (old new : Config) (s : Store) : Prop where
  loads : ∀ identity suffix, ∃ cfg, Config.load N B J path (.fresh B identity suffix) s = .ok cfg ∧
    (cfg.Agrees B old ∨ cfg.Agrees B new ∨ cfg.CleanStart)
  kept : ∀ key, s.RefersTo N J key → s.Holds B key

/-- The key that an accepted file refers to is the one of its identity. -/
lemma ConfigFile.Accepted.publicKey {file : ConfigFile} {identity : Identity}
    (h : file.Accepted N identity) {encoded : String} {card : IdentityCard}
    (hself : file.selfCard = some encoded) (hcard : IdentityCard.parse N encoded = .ok card) :
    card.publicKey = identity.publicKey := by
  rcases h.named with ⟨-, hnone⟩ | ⟨name, encoded', card', -, hsome, -, hcard', hkey, -⟩
  · rw [hself] at hnone
    cases hnone
  · obtain rfl : encoded = encoded' := Option.some.inj (hself.symm.trans hsome)
    obtain rfl : card = card' := Except.ok.inj (hcard.symm.trans hcard')
    exact hkey

/-- A file without cards is accepted for every identity. -/
lemma ConfigFile.Accepted.of_cleanStart {file : ConfigFile} {identity : Identity}
    (h : file.Accepted N identity) (hclean : file.CleanStart) (other : Identity) :
    file.Accepted N other where
  suffix := h.suffix
  named := Or.inl ⟨hclean.myName, hclean.selfCard⟩
  count := h.count
  peers := ⟨[], hclean.peers ▸ .nil, List.nodup_nil, fun _ hc => absurd hc List.not_mem_nil⟩

namespace Store.Consistent

variable {old new cfg : Config} {s : Store}

/-- Without a file the next launch is a first one. -/
lemma of_file_none (h : s.file = none) : s.Consistent N B J path old new where
  loads identity suffix := by
    refine ⟨.fresh B identity suffix, ?_, Or.inr (Or.inr ⟨rfl, rfl, rfl⟩)⟩
    simp only [Config.load, h]
  kept key hrefers := by
    obtain ⟨content, file, encoded, card, hfile, -⟩ := hrefers
    rw [h] at hfile
    cases hfile

/-- With a file that is accepted for the key of the store, it depends on what the two are.

**Proof sketch.** Loading reads the file and the credential, which are those of the hypotheses. A
file that refers to a key is accepted for it, so the key is the stored one. -/
lemma of_accepted {content : String} {identity : Identity} (hfile : s.file = some content)
    (hjson : J.fromJson content = .ok cfg.toConfigFile) (hversion : cfg.version = CONFIG_VERSION)
    (hcred : s.credential = some cfg.identitySecret)
    (hparse : Identity.parseNsec B cfg.identitySecret = .ok identity)
    (haccepted : cfg.toConfigFile.Accepted N identity)
    (h : cfg.Agrees B old ∨ cfg.Agrees B new ∨ cfg.CleanStart) :
    s.Consistent N B J path old new where
  loads _ _ := ⟨cfg, (Config.load_eq_ok hfile).2
    ⟨identity, hjson, hversion, hcred, hparse, haccepted⟩, h⟩
  kept key hrefers := by
    obtain ⟨content', file, encoded, card, hfile', hjson', hself, hcard, rfl⟩ := hrefers
    obtain rfl : content = content' := Option.some.inj (hfile.symm.trans hfile')
    obtain rfl : cfg.toConfigFile = file := Except.ok.inj (hjson.symm.trans hjson')
    exact ⟨cfg.identitySecret, identity, hcred, hparse, (haccepted.publicKey hself hcard).symm⟩

end Store.Consistent

namespace App

/-- **When a save can be interrupted at any step.** A save of what an application holds, to a store
that loads, leaves a consistent store at every step if and only if there is no file yet, or the key
stays the same, or the file does, or the file holds nothing of the old identity.

**Proof sketch.** A save leaves the store as it was, or with the new key and the old file, or with
the new key and the new file. The first and the last load. The store between the two is reached by
the first step, and there the old file has to be accepted with the new key. -/
theorem interrupted_save_consistent (hN : N.Lawful) (hB : B.Lawful) (hJ : J.Lawful) {a : App τ}
    (h : a.Reached N B J path) {prior : Store} {old : Config} {identity : Identity}
    {suffix : String}
    (hprior : Config.load N B J path (.fresh B identity suffix) prior = .ok old) :
    (∀ labels s, Machine.exec (Saving.step J path (a.config B)) (.start prior) labels = some s →
      s.store.Consistent N B J path old (a.config B)) ↔
    prior.file = none ∨ Identity.parseNsec B old.identitySecret = .ok a.identity ∨
      old.toConfigFile = (a.config B).toConfigFile ∨ old.CleanStart := by
  have hnsec := Identity.parseNsec_toNsec hB a.identity
  have haccepted := (h.sound hN hB).accepted (B := B) hN
  constructor
  · intro hall
    cases hfile : prior.file with
    | none => exact Or.inl rfl
    | some content =>
      right
      obtain ⟨_, hjson, -⟩ := (Config.load_eq_ok hfile).1 hprior
      -- the first step stores the key
      obtain ⟨s, hs, hstore⟩ : ∃ s, Machine.exec (Saving.step J path (a.config B)) (.start prior)
          [.succeeds] = some s ∧
            s.store = { prior with credential := some (B.toNsec a.identity) } := by
        simp only [Machine.exec_cons, Machine.exec_nil, Saving.step, Saving.start]
        split <;> exact ⟨_, rfl, rfl⟩
      have hconsistent := hall _ _ hs
      rw [hstore] at hconsistent
      obtain ⟨cfg, hload, hcfg⟩ := hconsistent.loads identity suffix
      obtain ⟨_, hjson', -, hcred, -⟩ := (Config.load_eq_ok
        (s := { prior with credential := some (B.toNsec a.identity) }) hfile).1 hload
      have hsame : cfg.toConfigFile = old.toConfigFile :=
        Except.ok.inj (hjson'.symm.trans hjson)
      have hsecret : cfg.identitySecret = B.toNsec a.identity := (Option.some.inj hcred).symm
      rcases hcfg with ⟨-, hagrees⟩ | ⟨hagrees, -⟩ | hclean
      · rw [hsecret, hnsec] at hagrees
        exact Or.inl hagrees.symm
      · exact Or.inr (Or.inl (hsame.symm.trans hagrees))
      · exact Or.inr (Or.inr (hsame ▸ hclean))
  · intro hcond labels s hrun
    rcases (Saving.reachable hrun).1 with hstore | ⟨hcred, hsfile⟩ | ⟨hcred, content, hjson, hsfile⟩
    · -- nothing has been written
      rw [hstore]
      cases hfile : prior.file with
      | none => exact .of_file_none hfile
      | some content =>
        obtain ⟨_, hjson, hversion, hcred, hparse, hold⟩ := (Config.load_eq_ok hfile).1 hprior
        exact .of_accepted hfile hjson hversion hcred hparse hold (Or.inl ⟨rfl, rfl⟩)
    · -- the key has been written, and the file is the old one
      cases hfile : prior.file with
      | none => exact .of_file_none (hsfile.trans hfile)
      | some content =>
        obtain ⟨own, hjson, hversion, -, hparse, hold⟩ := (Config.load_eq_ok hfile).1 hprior
        let mixed : Config := ⟨old.toConfigFile, B.toNsec a.identity⟩
        have hmixed : mixed.toConfigFile.Accepted N a.identity →
            mixed.Agrees B old ∨ mixed.Agrees B (a.config B) ∨ mixed.CleanStart →
            s.store.Consistent N B J path old (a.config B) :=
          Store.Consistent.of_accepted (hsfile.trans hfile) hjson hversion hcred hnsec
        rcases hcond with hnone | hkey | hsame | hclean
        · rw [hfile] at hnone
          cases hnone
        · obtain rfl : own = a.identity := Except.ok.inj (hparse.symm.trans hkey)
          exact hmixed hold (Or.inl ⟨rfl, hnsec.trans hkey.symm⟩)
        · exact hmixed (hsame ▸ haccepted) (Or.inr (Or.inl ⟨hsame, rfl⟩))
        · exact hmixed (hold.of_cleanStart hclean _) (Or.inr (Or.inr hclean))
    · -- everything has been written
      exact .of_accepted hsfile (hJ _ _ hjson) rfl hcred hnsec haccepted
        (Or.inr (Or.inl ⟨rfl, rfl⟩))

/-- **A file whose own card is of another key than the credential is refused**, with the error that
the two do not match.

**Proof sketch.** The checks before the one of the card pass, and that one fails by the key. -/
lemma load_other_key {generated : Config} {s : Store} {content secret name encoded : String}
    {file : ConfigFile} {identity : Identity} {card : IdentityCard}
    (hfile : s.file = some content) (hread : J.fromJson content = .ok file)
    (hversion : file.version = CONFIG_VERSION) (hcred : s.credential = some secret)
    (hsecret : Identity.parseNsec B secret = .ok identity)
    (hsuffix : isValidSuffix file.deviceSuffix = true) (hname : file.myName = some name)
    (hself : file.selfCard = some encoded) (hvalid : validateName name = .ok ())
    (hparse : IdentityCard.parse N encoded = .ok card)
    (hkey : card.publicKey ≠ identity.publicKey) :
    Config.load N B J path generated s =
      .error (.msg s!"config {path} self card does not match its identity and name") := by
  have hnamed : ConfigFile.checkNamed N path identity file =
      .error (.msg s!"config {path} self card does not match its identity and name") := by
    simp only [ConfigFile.checkNamed, hname, hself, hvalid, hparse]
    simp [bailIf, hkey, bind, Except.bind]
  simp [Config.load, hfile, hread, bailIf, hversion, Store.secret, hcred, hsecret,
    ConfigFile.check, hsuffix, hnamed, bind, Except.bind]

section Sample

/-- The configuration of the device before it trusts another one, -/
def sampleOld : Config :=
  ⟨{ (sampleApp.config .standard).toConfigFile with peers := [] },
    (sampleApp.config .standard).identitySecret⟩

/-- the device after a reset, -/
def sampleReset : App Unit :=
  let asked := (sampleApp.act sampleWall .requestResetIdentity).1
  (asked.act sampleWall (.resetIdentity ⟨sampleKey 3⟩ none)).1

/-- and what is stored. -/
def sampleStore : Store := ⟨some sampleOld.identitySecret, some sampleOld.text, none⟩

/-- The device has reached the state in which it was reset. -/
lemma sampleReset_reached :
    sampleReset.Reached .ofJson .standard .pretty "config.json" := by
  have hrun : Machine.exec uiStep sampleApp [.action sampleWall .requestResetIdentity,
      .action sampleWall (.resetIdentity ⟨sampleKey 3⟩ none)] = some sampleReset := rfl
  exact (sampleApp_reached .pretty "config.json").next hrun
    ⟨trivial, fun _ _ => ⟨trivial, fun _ _ => trivial⟩⟩

/-- The file reads back from its text, -/
lemma sampleOld_read : ConfigJson.pretty.fromJson sampleOld.text = .ok sampleOld.toConfigFile :=
  ConfigJson.pretty_lawful _ _ (ConfigJson.toJson_pretty (by decide))

/-- its own card from the text in it, -/
lemma sampleOld_selfCard : IdentityCard.parse .ofJson (sampleCard 1).encode = .ok (sampleCard 1) :=
  Nostr.parse_ofJson _ (by decide +kernel)

/-- and the store is loaded. -/
lemma sampleStore_load : Config.load .ofJson .standard .pretty "config.json"
    (.fresh .standard ⟨sampleKey 4⟩ sampleSuffix) sampleStore = .ok sampleOld := by
  refine (Config.load_eq_ok rfl).2 ⟨⟨sampleKey 1⟩, sampleOld_read, rfl, rfl,
    Identity.parseNsec_toNsec Bech32.standard_lawful _, ?_⟩
  exact ⟨by decide, Or.inr ⟨"desk", _, sampleCard 1, rfl, rfl, by decide, sampleOld_selfCard, rfl,
    rfl⟩, by decide, [], .nil, .nil, by simp⟩

/-- **An interrupted reset leaves a store that does not load.** The device has a file with a card of
its key. Its user resets the identity, and the save stops after its first step.

**Proof sketch.** The first step of the save overwrites the credential. The file that is still there
has a card of the old key, which is not that of the identity, so it does not load. -/
theorem interrupted_reset_locked_out :
    Nostr.ofJson.Lawful ∧ Bech32.standard.Lawful ∧ ConfigJson.pretty.Lawful ∧
    sampleReset.Reached .ofJson .standard .pretty "config.json" ∧
    Config.load .ofJson .standard .pretty "config.json"
      (.fresh .standard ⟨sampleKey 4⟩ sampleSuffix) sampleStore = .ok sampleOld ∧
    ∃ s, Machine.exec (Saving.step .pretty "config.json" (sampleReset.config .standard))
        (.start sampleStore) [.succeeds] = some s ∧
      Config.load .ofJson .standard .pretty "config.json"
        (.fresh .standard ⟨sampleKey 4⟩ sampleSuffix) s.store =
          .error (.msg "config config.json self card does not match its identity and name") ∧
      ¬ s.store.Consistent .ofJson .standard .pretty "config.json" sampleOld
        (sampleReset.config .standard) := by
  have herror : Config.load .ofJson .standard .pretty "config.json"
      (.fresh .standard ⟨sampleKey 4⟩ sampleSuffix)
      { sampleStore with credential := some (sampleReset.config .standard).identitySecret } =
        .error (.msg "config config.json self card does not match its identity and name") :=
    load_other_key rfl sampleOld_read rfl rfl
      (Identity.parseNsec_toNsec Bech32.standard_lawful ⟨sampleKey 3⟩) (by decide) rfl rfl
      (by decide) sampleOld_selfCard (by decide)
  refine ⟨Nostr.ofJson_mints.toLawful, Bech32.standard_lawful, ConfigJson.pretty_lawful,
    sampleReset_reached, sampleStore_load, ⟨{ sampleStore with
      credential := some (sampleReset.config .standard).identitySecret },
      .creating (sampleReset.config .standard).text⟩, rfl, herror, fun hconsistent => ?_⟩
  obtain ⟨cfg, hload, -⟩ := hconsistent.loads ⟨sampleKey 4⟩ sampleSuffix
  rw [herror] at hload
  cases hload

/-- A save of a new trusted card that is interrupted after its first step. -/
theorem interrupted_save_consistent_sample : ∃ s,
    Machine.exec (Saving.step .pretty "config.json" (sampleApp.config .standard))
      (.start sampleStore) [.succeeds] = some s ∧
    s.store.Consistent .ofJson .standard .pretty "config.json" sampleOld
      (sampleApp.config .standard) := by
  obtain ⟨s, hs⟩ : ∃ s, Machine.exec (Saving.step .pretty "config.json"
      (sampleApp.config .standard)) (.start sampleStore) [.succeeds] = some s := ⟨_, rfl⟩
  have hconsistent := (interrupted_save_consistent Nostr.ofJson_mints.toLawful
    Bech32.standard_lawful ConfigJson.pretty_lawful (sampleApp_reached .pretty "config.json")
    sampleStore_load).2
    (Or.inr (Or.inl (Identity.parseNsec_toNsec Bech32.standard_lawful _)))
  exact ⟨s, hs, hconsistent [.succeeds] s hs⟩

end Sample

end App

end Duocb
