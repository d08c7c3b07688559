import Mathlib.Data.List.Forall2
import Duocb.App
import Duocb.Library.Machine

set_option relaxedAutoImplicit false
set_option autoImplicit false

/-!
# The configuration

What survives a launch is split in two: the identity key is in the credential store of the operating
system, and a JSON file holds the public remainder. Loading pairs the two and checks one against the
other. Saving writes the key first, then a complete new file beside the old one, and renames it.

## Main definitions

* `Duocb.ConfigFile`, `Duocb.Config` — the public remainder, and the whole configuration.
* `Duocb.Store` — the credential store, and the files.
* `Duocb.Config.load` — what a launch reads, with every check.
* `Duocb.Saving`, `Duocb.Saving.step` — one save, call by call.
* `Duocb.App.new`, `Duocb.App.config` — the application a configuration launches, and the
  configuration an application saves.

## Main results

* `Duocb.ConfigFile.check_eq_ok` — what holds of a configuration that is accepted.
* `Duocb.Config.load_eq_ok` — what is loaded from a store with a file.
* `Duocb.Saving.completes` — a save that nothing disturbs completes.
* `Duocb.Saving.reachable` — what the store can hold while a save is on its way.
-/

namespace Duocb

/-- Version of the configuration file. -/
def CONFIG_VERSION : ℕ := 5

/-- The configuration file: everything but the identity key. The cards are kept as their texts, and
are parsed when the file is loaded. -/
structure ConfigFile where
  version : ℕ
  deviceSuffix : String
  myName : Option String
  selfCard : Option String
  peers : List String
  deriving DecidableEq

/-- A configuration. -/
structure Config extends ConfigFile where
  /-- The identity, as its private key. -/
  identitySecret : String
  deriving DecidableEq

/-- The JSON of configuration files, a library's. -/
structure ConfigJson where
  toJson : ConfigFile → Except Error String
  fromJson : String → Except Error ConfigFile

/-- What the library promises: a file reads back from its JSON. -/
def ConfigJson.Lawful (J : ConfigJson) : Prop := ∀ c s, J.toJson c = .ok s → J.fromJson s = .ok c

/-- What is kept between launches: the credential of this configuration path, the text at the path
itself, and the bytes of the temporary file beside it. -/
structure Store where
  credential : Option String
  file : Option String
  temp : Option Bytes
  deriving DecidableEq

/-- The configuration of a first launch, with a generated identity and suffix. -/
def Config.fresh (B : Bech32) (identity : Identity) (suffix : String) : Config :=
  ⟨⟨CONFIG_VERSION, suffix, none, none, []⟩, B.toNsec identity⟩

/-! ## Loading -/

variable (N : Nostr) (B : Bech32) (J : ConfigJson) (path : String)

namespace ConfigFile

/-- The name and the own card belong together, and to the identity. A device has both or neither;
the card must verify, be of the identity's key, and carry the name with the suffix. -/
def checkNamed (identity : Identity) (file : ConfigFile) : Except Error Unit :=
  match file.myName, file.selfCard with
  | none, none => .ok ()
  | some name, some encoded => do
    withContext (validateName name) s!"config {path} has an invalid device name"
    let card ← withContext (IdentityCard.parse N encoded) s!"config {path} has an invalid self card"
    bailIf (card.publicKey ≠ identity.publicKey ∨
        card.name ≠ displayIdentity name file.deviceSuffix)
      s!"config {path} self card does not match its identity and name"
  | _, _ => .error (.msg s!"config {path} must contain both my_name and self_card, or neither")

/-- The trusted cards are cards, of different keys, and none is the own. The keys that were seen
before are handed on, so that a second card of one key is found. -/
def checkPeers (identity : Identity) : List String → List PublicKey → Except Error Unit
  | [], _ => .ok ()
  | encoded :: rest, seen => do
    let card ← withContext (IdentityCard.parse N encoded) s!"config {path} has an invalid peer card"
    bailIf (card.publicKey = identity.publicKey) s!"config {path} peer list contains itself"
    bailIf (card.publicKey ∈ seen) s!"config {path} peer list contains a duplicate public key"
    checkPeers identity rest (card.publicKey :: seen)

/-- The checks of a file against an identity. They run in the order of the source, and the first one
that fails gives the error, which names the path of the file. -/
def check (identity : Identity) (file : ConfigFile) : Except Error Unit := do
  bailIf (isValidSuffix file.deviceSuffix = false) s!"config {path} has an invalid device suffix"
  checkNamed N path identity file
  bailIf (MAX_TRUSTED_PEERS < file.peers.length)
    s!"config {path} has more than {MAX_TRUSTED_PEERS} trusted peers"
  checkPeers N path identity file.peers []

end ConfigFile

/-- The key of the credential store. A configuration file without one is real loss. -/
def Store.secret (s : Store) : Except Error String :=
  match s.credential with
  | some secret => .ok secret
  | none => .error (.msg (s!"config {path} has no identity key in the OS credential store " ++
      "(the config and its key are stored separately, and the key does not travel with the file)"))

/-- Read the configuration. Without a file this is a first launch, with a configuration that is
generated. -/
def Config.load (generated : Config) (s : Store) : Except Error Config :=
  match s.file with
  | none => .ok generated
  | some content => do
    let file ← withContext (J.fromJson content) s!"parsing config {path}"
    bailIf (file.version ≠ CONFIG_VERSION)
      (s!"config {path} has unsupported version {file.version} " ++
        "(this release does not migrate older configs)")
    let secret ← s.secret path
    let identity ← withContext (Identity.parseNsec B secret)
      s!"config {path} has an invalid identity key"
    file.check N path identity
    return ⟨file, secret⟩

/-! ## Saving -/

/-- Which call of a save is under way. The key goes to the credential store first. Then the content
is written to a temporary file, which replaces the configuration at the end. -/
inductive SavePhase where
  | storingKey
  | creating (content : String)
  | restricting (content : String)
  /-- So many bytes have been written. -/
  | writing (content : String) (written : ℕ)
  | flushing (content : String)
  | replacing (content : String)
  | saved
  | failed (e : Error)
  deriving DecidableEq

/-- A save on its way. -/
structure Saving where
  store : Store
  phase : SavePhase
  deriving DecidableEq

/-- What happens to a save: its call succeeds, or fails, or writes some bytes. -/
inductive SaveLabel where
  | succeeds
  | fails (e : Error)
  | writes (bytes : ℕ)
  deriving DecidableEq

namespace Saving

/-- A save about to start. -/
def start (s : Store) : Saving := ⟨s, .storingKey⟩

/-- The path of the temporary file. -/
def tempPath : String := path ++ ".tmp"

/-- The context of a failure in staging the new content. -/
def stagingContext (call : String) (e : Error) : Error :=
  (e.context s!"{call} {tempPath path}").context s!"staging config {tempPath path}"

/-- One step of a save. A call succeeds, or fails with an error that ends the save; the content is
written piece by piece. A crash leaves the store as the last step left it. -/
def step (cfg : Config) (s : Saving) : SaveLabel → Option Saving
  | .succeeds =>
    match s.phase with
    | .storingKey =>
      let store := { s.store with credential := some cfg.identitySecret }
      match withContext (J.toJson cfg.toConfigFile) "serializing config" with
      | .ok content => some ⟨store, .creating content⟩
      | .error e => some ⟨store, .failed e⟩
    | .creating content => some ⟨{ s.store with temp := some [] }, .restricting content⟩
    | .restricting content => some ⟨s.store, .writing content 0⟩
    | .writing content written =>
      if written = content.utf8ByteSize then some ⟨s.store, .flushing content⟩ else none
    | .flushing content => some ⟨s.store, .replacing content⟩
    | .replacing content => some ⟨{ s.store with file := some content, temp := none }, .saved⟩
    | .saved | .failed _ => none
  | .writes bytes =>
    match s.phase with
    | .writing content written =>
      if written + bytes ≤ content.utf8ByteSize then
        some ⟨{ s.store with temp := some ((utf8 content).take (written + bytes)) },
          .writing content (written + bytes)⟩
      else none
    | _ => none
  | .fails e =>
    match s.phase with
    | .storingKey => some ⟨s.store, .failed (e.context s!"storing the identity key for {path}")⟩
    | .creating _ => some ⟨s.store, .failed (stagingContext path "creating" e)⟩
    | .restricting _ => some ⟨s.store, .failed
        ((e.context "restricting config-related file permissions").context
          s!"staging config {tempPath path}")⟩
    | .writing _ _ => some ⟨s.store, .failed (stagingContext path "writing" e)⟩
    | .flushing _ => some ⟨s.store, .failed (stagingContext path "flushing" e)⟩
    | .replacing _ => some ⟨s.store, .failed
        (e.context s!"atomically replacing config {path} from {tempPath path}")⟩
    | .saved | .failed _ => none

/-- The labels of a save that nothing disturbs: its key is stored, its content is written at once,
and every call succeeds. -/
def undisturbed (content : String) : List SaveLabel :=
  [.succeeds, .succeeds, .succeeds, .writes content.utf8ByteSize, .succeeds, .succeeds, .succeeds]

variable {J path}

/-- **A save that nothing disturbs completes**, whatever was stored before, and leaves the key and
the file. -/
theorem completes {cfg : Config} {content : String}
    (hjson : J.toJson cfg.toConfigFile = .ok content) (s : Store) :
    Machine.exec (step J path cfg) (start s) (undisturbed content) =
      some ⟨⟨some cfg.identitySecret, some content, none⟩, .saved⟩ := by
  simp [undisturbed, start, step, hjson]

end Saving

/-! ## The application and its configuration -/

namespace App

variable {τ : Type}

/-- What the application saves. The key goes in its bech32 form, and each card as the text it was
parsed from. -/
def config (a : App τ) : Config where
  version := CONFIG_VERSION
  identitySecret := B.toNsec a.identity
  deviceSuffix := a.deviceSuffix
  myName := a.savedName
  selfCard := a.selfCard.map IdentityCard.encode
  peers := a.peers.map IdentityCard.encode

/-- The card of this moment, if one can be minted. -/
def minted (a : App τ) (w : Wall) : Option IdentityCard :=
  a.savedName.bind fun name =>
    (cardValidFrom N a.identity name a.deviceSuffix w.now).toOption

/-- The application that a configuration launches. Its own card is minted again when it is stale. A
name that is not valid, a card that is not of the identity and its name, and cards that do not parse
are left out. -/
def new (channel : SignalChannel) (cfg : Config) (w : Wall) (failure : Option String) :
    Except Error (App τ) := do
  let identity ← Identity.parseNsec B cfg.identitySecret
  let savedName := cfg.myName.filter fun name => (validateName name).isOk
  let expected := savedName.map fun name => displayIdentity name cfg.deviceSuffix
  let selfCard := (cfg.selfCard.bind fun card => (IdentityCard.parse N card).toOption).filter
    fun card => card.publicKey = identity.publicKey ∧ expected = some card.name
  let peers := cfg.peers.filterMap fun card => (IdentityCard.parse N card).toOption
  let a : App τ := init channel identity savedName cfg.deviceSuffix selfCard peers
  return a.renewSelfCardIfStale w (a.minted N w) failure

/-- A launch: what is loaded from some store, in which a first launch finds nothing and generates an
identity and a suffix. -/
def Launched (a : App τ) : Prop :=
  ∃ (identity : Identity) (suffix : String) (s : Store) (cfg : Config) (channel : SignalChannel)
    (w : Wall) (failure : Option String), isValidSuffix suffix = true ∧
    Config.load N B J path (Config.fresh B identity suffix) s = .ok cfg ∧
    new N B channel cfg w failure = .ok a

end App

/-! ## What is accepted -/

variable {N B J path}

/-- What holds of a file that is accepted for an identity. Every check is a field here, with the
cards that the texts parse to. -/
structure ConfigFile.Accepted (N : Nostr) (identity : Identity) (file : ConfigFile) : Prop where
  suffix : isValidSuffix file.deviceSuffix = true
  named : (file.myName = none ∧ file.selfCard = none) ∨
    ∃ name encoded card, file.myName = some name ∧ file.selfCard = some encoded ∧
      validateName name = .ok () ∧ IdentityCard.parse N encoded = .ok card ∧
      card.publicKey = identity.publicKey ∧ card.name = displayIdentity name file.deviceSuffix
  count : file.peers.length ≤ MAX_TRUSTED_PEERS
  peers : ∃ cards,
      List.Forall₂ (fun text card => IdentityCard.parse N text = .ok card) file.peers cards ∧
    (cards.map IdentityCard.publicKey).Nodup ∧ ∀ card ∈ cards, card.publicKey ≠ identity.publicKey

namespace ConfigFile

/-- **When the name and the own card of a file are accepted**: there are none, or both are valid and
the card is that of the identity and the name.

**Proof sketch.** By what the file has of the two. With both, the checks are taken one after the
other, and each is one of the conditions. -/
lemma checkNamed_eq_ok {identity : Identity} {file : ConfigFile} {u : Unit} :
    checkNamed N path identity file = .ok u ↔ (file.myName = none ∧ file.selfCard = none) ∨
      ∃ name encoded card, file.myName = some name ∧ file.selfCard = some encoded ∧
        validateName name = .ok () ∧ IdentityCard.parse N encoded = .ok card ∧
        card.publicKey = identity.publicKey ∧
          card.name = displayIdentity name file.deviceSuffix := by
  unfold checkNamed
  cases file.myName with
  | none => cases file.selfCard <;> simp
  | some name =>
    cases file.selfCard with
    | none => simp
    | some encoded =>
      simp only [bind_eq_ok, withContext_eq_ok, bailIf_eq_ok, not_or, not_not]
      constructor
      · rintro ⟨_, hname, card, hparse, hkey, hdisplay⟩
        exact Or.inr ⟨name, encoded, card, rfl, rfl, hname, hparse, hkey, hdisplay⟩
      · rintro (⟨h, -⟩ | ⟨name', encoded', card, h, h', hname, hparse, hkey, hdisplay⟩)
        · cases h
        · cases h
          cases h'
          exact ⟨(), hname, card, hparse, hkey, hdisplay⟩

/-- **When the trusted cards of a file are accepted**: they are cards of different devices, and none
is the own one.

**Proof sketch.** By induction on the texts, with the keys that were seen so far. -/
lemma checkPeers_eq_ok {identity : Identity} {texts : List String} {seen : List PublicKey}
    {u : Unit} : checkPeers N path identity texts seen = .ok u ↔
      ∃ cards, List.Forall₂ (fun text card => IdentityCard.parse N text = .ok card) texts cards ∧
        (cards.map IdentityCard.publicKey).Nodup ∧
        (∀ card ∈ cards, card.publicKey ≠ identity.publicKey) ∧
        ∀ card ∈ cards, card.publicKey ∉ seen := by
  induction texts generalizing seen with
  | nil => exact ⟨fun _ => ⟨[], .nil, List.nodup_nil, by simp, by simp⟩, fun _ => rfl⟩
  | cons text texts ih =>
    simp only [checkPeers, bind_eq_ok, withContext_eq_ok, bailIf_eq_ok, ih]
    constructor
    · rintro ⟨card, hparse, -, hown, -, hseen, cards, hcards, hdistinct, howns, hseens⟩
      refine ⟨card :: cards, .cons hparse hcards, ?_, ?_, ?_⟩
      · rw [List.map_cons, List.nodup_cons]
        refine ⟨fun hmem => ?_, hdistinct⟩
        obtain ⟨c, hc, hkey⟩ := List.mem_map.1 hmem
        exact hseens c hc (by simp [hkey])
      · exact List.forall_mem_cons.2 ⟨hown, howns⟩
      · refine List.forall_mem_cons.2 ⟨hseen, fun c hc hmem => hseens c hc ?_⟩
        exact List.mem_cons_of_mem _ hmem
    · rintro ⟨cards, hcards, hdistinct, howns, hseens⟩
      cases hcards with
      | @cons _ card _ cards hparse hcards =>
        rw [List.map_cons, List.nodup_cons] at hdistinct
        refine ⟨card, hparse, (), howns card List.mem_cons_self, (), hseens card List.mem_cons_self,
          cards, hcards, hdistinct.2, fun c hc => howns c (List.mem_cons_of_mem _ hc),
          fun c hc hmem => ?_⟩
        rcases List.mem_cons.1 hmem with hkey | hmem
        · exact hdistinct.1 (List.mem_map.2 ⟨c, hc, hkey⟩)
        · exact hseens c (List.mem_cons_of_mem _ hc) hmem

/-- **What holds of a configuration that is accepted.**

**Proof sketch.** The check is the four checks of its parts, one after the other. -/
theorem check_eq_ok {identity : Identity} {file : ConfigFile} {u : Unit} :
    file.check N path identity = .ok u ↔ file.Accepted N identity := by
  simp only [check, bind_eq_ok, bailIf_eq_ok, checkNamed_eq_ok, checkPeers_eq_ok]
  constructor
  · rintro ⟨_, hsuffix, _, hnamed, _, hcount, cards, hcards, hdistinct, hothers, -⟩
    exact ⟨by simpa using hsuffix, hnamed, Nat.le_of_not_lt hcount, cards, hcards, hdistinct,
      hothers⟩
  · rintro ⟨hsuffix, hnamed, hcount, cards, hcards, hdistinct, hothers⟩
    exact ⟨(), by simpa using hsuffix, (), hnamed, (), Nat.not_lt.2 hcount, cards, hcards,
      hdistinct, hothers, fun _ _ => List.not_mem_nil⟩

end ConfigFile

/-- What is loaded from a store with a file: the file, if it is accepted for the identity of the
credential.

**Proof sketch.** Loading is the sequence of reading the file, its version, the credential, the key
and the check. -/
lemma Config.load_eq_ok {generated cfg : Config} {s : Store} {content : String}
    (hfile : s.file = some content) :
    Config.load N B J path generated s = .ok cfg ↔
      ∃ identity, J.fromJson content = .ok cfg.toConfigFile ∧ cfg.version = CONFIG_VERSION ∧
        s.credential = some cfg.identitySecret ∧
        Identity.parseNsec B cfg.identitySecret = .ok identity ∧
        cfg.toConfigFile.Accepted N identity := by
  simp only [Config.load, hfile, bind_eq_ok, withContext_eq_ok, bailIf_eq_ok, pure, Except.pure,
    Except.ok.injEq]
  constructor
  · rintro ⟨file, hjson, _, hversion, secret, hsecret, identity, hparse, _, hcheck, rfl⟩
    refine ⟨identity, hjson, not_not.1 hversion, ?_, hparse, ConfigFile.check_eq_ok.1 hcheck⟩
    unfold Store.secret at hsecret
    split at hsecret
    · rename_i hcred
      rw [hcred, Except.ok.inj hsecret]
    · cases hsecret
  · rintro ⟨identity, hjson, hversion, hcred, hparse, haccepted⟩
    refine ⟨cfg.toConfigFile, hjson, (), not_not.2 hversion, cfg.identitySecret, ?_, identity,
      hparse, (), ConfigFile.check_eq_ok.2 haccepted, rfl⟩
    simp [Store.secret, hcred]

/-! ## What a launch starts with -/

namespace App

variable {τ : Type}

/-- The cards that texts parse to. -/
lemma filterMap_parse {texts : List String} {cards : List IdentityCard}
    (h : List.Forall₂ (fun text card => IdentityCard.parse N text = .ok card) texts cards) :
    texts.filterMap (fun text => (IdentityCard.parse N text).toOption) = cards := by
  induction h with
  | nil => rfl
  | cons hcard _ ih =>
    rw [List.filterMap_cons, hcard, ih]
    rfl

/-- Whatever is launched starts on the home screen, with trusted cards that the configuration holds
and that are not the own. -/
lemma new_ok {channel : SignalChannel} {cfg : Config} {w : Wall} {failure : Option String}
    {a : App τ} (h : new N B channel cfg w failure = .ok a) :
    ∃ identity, Identity.parseNsec B cfg.identitySecret = .ok identity ∧ a.identity = identity ∧
      a.peers = ((cfg.peers.filterMap fun card => (IdentityCard.parse N card).toOption).filter
        fun card => card.publicKey ≠ identity.publicKey).take MAX_TRUSTED_PEERS ∧
      a.screen = .home := by
  simp only [new, bind_eq_ok, pure, Except.pure, Except.ok.injEq] at h
  obtain ⟨identity, hparse, rfl⟩ := h
  refine ⟨identity, hparse, ?_⟩
  simp only [renewSelfCardIfStale]
  split
  · exact ⟨rfl, rfl, rfl⟩
  · cases failure <;> exact ⟨rfl, rfl, rfl⟩

end App

/-! ## What a save can leave behind -/

/-- The content that is being staged. -/
def SavePhase.content : SavePhase → Option String
  | .creating content | .restricting content | .writing content _ | .flushing content
  | .replacing content => some content
  | _ => none

namespace Saving

/-- The key has been written, and the file has not been replaced. -/
def Keyed (cfg : Config) (prior s : Store) : Prop :=
  s.credential = some cfg.identitySecret ∧ s.file = prior.file

/-- The key has been written, and the file replaced. -/
def Replaced (J : ConfigJson) (cfg : Config) (s : Store) : Prop :=
  s.credential = some cfg.identitySecret ∧
    ∃ content, J.toJson cfg.toConfigFile = .ok content ∧ s.file = some content

/-- Where a save stands, by its phase. Before the key is stored nothing has changed; after that the
key is the new one, and the file is the old one until the content replaces it. -/
structure Inv (J : ConfigJson) (cfg : Config) (prior : Store) (s : Saving) : Prop where
  waiting : s.phase = .storingKey → s.store = prior
  staged : ∀ content, s.phase.content = some content →
    J.toJson cfg.toConfigFile = .ok content ∧ Keyed cfg prior s.store
  saved : s.phase = .saved → Replaced J cfg s.store
  failed : ∀ e, s.phase = .failed e → s.store = prior ∨ Keyed cfg prior s.store

/-- A save that has just begun has touched nothing. -/
lemma Inv.start (cfg : Config) (prior : Store) : (start prior).Inv J cfg prior :=
  ⟨fun _ => rfl, fun _ h => (by cases h), fun h => (by cases h), fun _ h => (by cases h)⟩

/-- A staged save stays so, whatever becomes of the temporary file. -/
lemma Inv.of_keyed {cfg : Config} {prior store : Store} {phase : SavePhase} {content : String}
    (hphase : phase.content = some content) (hjson : J.toJson cfg.toConfigFile = .ok content)
    (h : Keyed cfg prior store) : (Saving.mk store phase).Inv J cfg prior := by
  refine ⟨?_, fun c hc => ⟨?_, h⟩, ?_, ?_⟩
  · rintro rfl
    cases hphase
  · rw [show phase.content = some c from hc] at hphase
    rw [hjson, Option.some.inj hphase]
  · rintro rfl
    cases hphase
  · rintro e rfl
    cases hphase

/-- A save that fails leaves the store as it is. -/
lemma Inv.of_failed {cfg : Config} {prior store : Store} {e : Error}
    (h : store = prior ∨ Keyed cfg prior store) : (Saving.mk store (.failed e)).Inv J cfg prior :=
  ⟨fun h => (by cases h), fun _ h => (by cases h), fun h => (by cases h), fun _ _ => h⟩

/-- A step keeps where a save stands.

**Proof sketch.** By cases on the step and on the phase of the save. -/
lemma Inv.step {cfg : Config} {prior : Store} {s s' : Saving} {l : SaveLabel}
    (h : s.Inv J cfg prior) (hstep : s.step J path cfg l = some s') : s'.Inv J cfg prior := by
  obtain ⟨store, phase⟩ := s
  cases l with
  | succeeds =>
    cases phase with
    | storingKey =>
      have hstore : store = prior := h.waiting rfl
      have hkeyed : Keyed cfg prior { store with credential := some cfg.identitySecret } :=
        ⟨rfl, by rw [hstore]⟩
      simp only [Saving.step] at hstep
      split at hstep
      · rename_i content hjson
        obtain rfl := Option.some.inj hstep
        exact .of_keyed rfl (withContext_eq_ok.1 hjson) hkeyed
      · obtain rfl := Option.some.inj hstep
        exact .of_failed (Or.inr hkeyed)
    | creating content =>
      obtain rfl := Option.some.inj hstep
      obtain ⟨hjson, hkeyed⟩ := h.staged content rfl
      exact .of_keyed rfl hjson hkeyed
    | restricting content =>
      obtain rfl := Option.some.inj hstep
      obtain ⟨hjson, hkeyed⟩ := h.staged content rfl
      exact .of_keyed rfl hjson hkeyed
    | writing content written =>
      simp only [Saving.step, Option.ite_none_right_eq_some] at hstep
      obtain ⟨-, hstep⟩ := hstep
      obtain rfl := Option.some.inj hstep
      obtain ⟨hjson, hkeyed⟩ := h.staged content rfl
      exact .of_keyed rfl hjson hkeyed
    | flushing content =>
      obtain rfl := Option.some.inj hstep
      obtain ⟨hjson, hkeyed⟩ := h.staged content rfl
      exact .of_keyed rfl hjson hkeyed
    | replacing content =>
      obtain rfl := Option.some.inj hstep
      obtain ⟨hjson, hcred, -⟩ := h.staged content rfl
      exact ⟨fun h => (by cases h), fun _ h => (by cases h),
        fun _ => ⟨hcred, content, hjson, rfl⟩, fun _ h => (by cases h)⟩
    | saved => cases hstep
    | failed e => cases hstep
  | writes bytes =>
    cases phase with
    | writing content written =>
      simp only [Saving.step, Option.ite_none_right_eq_some] at hstep
      obtain ⟨-, hstep⟩ := hstep
      obtain rfl := Option.some.inj hstep
      obtain ⟨hjson, hkeyed⟩ := h.staged content rfl
      exact .of_keyed rfl hjson hkeyed
    | _ => cases hstep
  | fails e =>
    cases phase with
    | storingKey =>
      obtain rfl := Option.some.inj hstep
      exact .of_failed (Or.inl (h.waiting rfl))
    | saved | failed e => cases hstep
    | _ =>
      obtain rfl := Option.some.inj hstep
      exact .of_failed (Or.inr (h.staged _ rfl).2)

/-- **What the store can hold while a save is on its way**: what it held before, the new key with
the old file, or the new key with the new file.

**Proof sketch.** The invariant holds at the start and is kept by every step; it says for each phase
what the store holds. -/
theorem reachable {cfg : Config} {prior : Store} {labels : List SaveLabel} {s : Saving}
    (hrun : Machine.exec (step J path cfg) (.start prior) labels = some s) :
    (s.store = prior ∨ Keyed cfg prior s.store ∨ Replaced J cfg s.store) ∧
      (s.phase = .saved → Replaced J cfg s.store) := by
  have hinv : s.Inv J cfg prior := Machine.reachable_invariant
    (I := fun s : Saving => s.Inv J cfg prior) (Inv.start cfg prior)
    (fun _ _ _ h hstep => h.step hstep) ⟨labels, hrun⟩
  refine ⟨?_, hinv.saved⟩
  cases hphase : s.phase with
  | storingKey => exact Or.inl (hinv.waiting hphase)
  | saved => exact Or.inr (Or.inr (hinv.saved hphase))
  | failed e =>
    rcases hinv.failed e hphase with h | h
    · exact Or.inl h
    · exact Or.inr (Or.inl h)
  | creating content | restricting content | writing content _ | flushing content
  | replacing content =>
    exact Or.inr (Or.inl (hinv.staged content (by rw [hphase]; rfl)).2)

end Saving

end Duocb
