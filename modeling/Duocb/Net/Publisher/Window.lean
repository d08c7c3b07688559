import Mathlib.Data.List.Forall2
import Duocb.Net.Publisher

set_option relaxedAutoImplicit false
set_option autoImplicit false

/-!
# How long a PIN can be looked up

The record of a PIN is published under a key that is derived from the PIN and from the minute in
which it was minted. A joiner that typed the PIN derives the keys of the minute on its clock and of
the two beside it. A host honours a PIN while it is shown, which is a minute long from any second
on, and for one more period after that. The two windows differ.

The publisher runs here beside a clock in nanoseconds, and rotates exactly when a period is over.

## Main definitions

* `Duocb.PinKdf`, `Duocb.pinKeys`, `Duocb.candidateKeys` — the keys of a record and of a lookup.
* `Duocb.PinHost`, `Duocb.PinHost.step` — the publisher beside a clock.
* `Duocb.PinHost.Honours` — a PIN that was minted at some time still authenticates.

## Main results

* `Duocb.mem_candidateKeys` — the keys a lookup derives.
* `Duocb.PinHost.Inv.step` — every step keeps what is known of the PINs' ages.
* `Duocb.PinHost.lookup_window` — an honoured PIN can be looked up in the minute it was minted in
  and in the next one, which covers the time it is shown.
* `Duocb.PinHost.lookup_window_misses` — a PIN that is honoured and cannot be looked up.
-/

namespace Duocb

/-! ## Keys -/

/-- The libraries that record keys rest on: Argon2id under a salt, and reading a secret key. -/
structure PinKdf (Keys : Type) where
  argon2 : String → Bytes → Except Error Bytes
  secretKey : Bytes → Except Error Keys

/-- Salt domain of the rendezvous keys. -/
def KDF_SALT_DOMAIN : Bytes := utf8 "duocb:pin-rendezvous:v1"

/-- A 64-bit number, big-endian. -/
def be64 (n : UInt64) : Bytes :=
  [(n >>> 56).toUInt8, (n >>> 48).toUInt8, (n >>> 40).toUInt8, (n >>> 32).toUInt8,
    (n >>> 24).toUInt8, (n >>> 16).toUInt8, (n >>> 8).toUInt8, n.toUInt8]

/-- What the KDF is salted with for a bucket. -/
def kdfSalt (bucket : UInt64) : Bytes := KDF_SALT_DOMAIN ++ be64 bucket

/-- Ideal libraries: no two salts in use give one key, and no two keys are read alike. -/
structure PinKdf.Ideal {Keys : Type} (K : PinKdf Keys) : Prop where
  argon2_inj : ∀ {pin b b' m}, K.argon2 pin (kdfSalt b) = .ok m →
    K.argon2 pin (kdfSalt b') = .ok m → kdfSalt b = kdfSalt b'
  secretKey_inj : ∀ {m m' k}, K.secretKey m = .ok k → K.secretKey m' = .ok k → m = m'

section Keys

variable {Keys : Type} (K : PinKdf Keys)

/-- The rendezvous key material of a PIN and a bucket. -/
def deriveKeyMaterial (canonicalPin : String) (bucket : UInt64) : Except Error Bytes :=
  K.argon2 canonicalPin (kdfSalt bucket)

/-- The record keypair of a PIN and a bucket. -/
def pinKeys (canonicalPin : String) (bucket : UInt64) : Except Error Keys := do
  let material ← deriveKeyMaterial K canonicalPin bucket
  withContext (K.secretKey material) "deriving record key from PIN"

/-- The bucket of a time in seconds: whole rotation periods since the epoch. -/
def currentBucket (secs : UInt64) : UInt64 := secs / UInt64.ofNat BUCKET_SECS

/-- The buckets a lookup tries: the current one, the previous one and the next one. -/
def lookupBuckets (secs : UInt64) : List UInt64 :=
  [currentBucket secs, currentBucket secs - 1, currentBucket secs + 1]

/-- The keypairs a lookup tries, in search-preference order. -/
def candidateKeys (canonicalPin : String) (secs : UInt64) : Except Error (List Keys) :=
  (lookupBuckets secs).mapM (pinKeys K canonicalPin)

/-- A big-endian number can be read back. -/
lemma be64_inj {m n : UInt64} (h : be64 m = be64 n) : m = n := by
  simp only [be64, List.cons.injEq, and_true, ← UInt8.toNat_inj, UInt64.toNat_toUInt8,
    UInt64.toNat_shiftRight, Nat.shiftRight_eq_div_pow] at h
  have hm := m.toNat_lt
  have hn := n.toNat_lt
  rw [← UInt64.toNat_inj]
  simp at h
  omega

/-- The salt of a bucket is that of no other one. -/
lemma kdfSalt_inj {b b' : UInt64} (h : kdfSalt b = kdfSalt b') : b = b' :=
  be64_inj (List.append_cancel_left h)

variable {K}

/-- The material of a record key that was derived. -/
lemma pinKeys_eq_ok {pin : String} {bucket : UInt64} {key : Keys} :
    pinKeys K pin bucket = .ok key ↔
      ∃ m, K.argon2 pin (kdfSalt bucket) = .ok m ∧ K.secretKey m = .ok key := by
  unfold pinKeys deriveKeyMaterial
  rcases K.argon2 pin (kdfSalt bucket) with e | m
  · simp [bind, Except.bind]
  · rcases h : K.secretKey m with e | k <;> simp [bind, Except.bind, h]

/-- Ideal libraries give two buckets two keys. -/
lemma PinKdf.Ideal.pinKeys_inj (hK : K.Ideal) {pin : String} {b b' : UInt64} {key : Keys}
    (h : pinKeys K pin b = .ok key) (h' : pinKeys K pin b' = .ok key) : b = b' := by
  obtain ⟨m, hm, hkey⟩ := pinKeys_eq_ok.1 h
  obtain ⟨m', hm', hkey'⟩ := pinKeys_eq_ok.1 h'
  obtain rfl := hK.secretKey_inj hkey hkey'
  exact kdfSalt_inj (hK.argon2_inj hm hm')

/-- A list that is mapped without an error is mapped element by element.

**Proof sketch.** By induction on the list: its head is mapped without an error, and so is its rest.
-/
lemma mem_of_mapM_eq_ok {α β ε : Type} {f : α → Except ε β} {l : List α} {ys : List β}
    (h : l.mapM f = .ok ys) (y : β) : y ∈ ys ↔ ∃ a ∈ l, f a = .ok y := by
  induction l generalizing ys with
  | nil =>
    obtain rfl : [] = ys := by simpa [pure, Except.pure] using h
    simp
  | cons a l ih =>
    rw [List.mapM_cons] at h
    rcases hf : f a with e | b
    · simp [hf, bind, Except.bind] at h
    · rcases hl : l.mapM f with e | bs
      · simp [hf, hl, bind, Except.bind] at h
      · obtain rfl : b :: bs = ys := by simpa [hf, hl, bind, Except.bind, pure, Except.pure] using h
        simp [ih hl, hf, eq_comm]

/-- **The keys a lookup derives** are those of its three buckets. -/
lemma mem_candidateKeys {pin : String} {secs : UInt64} {keys : List Keys}
    (h : candidateKeys K pin secs = .ok keys) (key : Keys) :
    key ∈ keys ↔ ∃ b ∈ lookupBuckets secs, pinKeys K pin b = .ok key :=
  mem_of_mapM_eq_ok h key

end Keys

/-! ## Buckets -/

/-- A bucket counts whole minutes. -/
lemma toNat_currentBucket (secs : UInt64) : (currentBucket secs).toNat = secs.toNat / 60 := by
  simp [currentBucket, BUCKET_SECS]

/-- A bucket of the past is tried by a lookup exactly when it is the current or the previous one. -/
lemma mem_lookupBuckets {minted now : UInt64} (h : minted.toNat ≤ now.toNat) :
    currentBucket minted ∈ lookupBuckets now ↔ now.toNat / 60 ≤ minted.toNat / 60 + 1 := by
  have hnow := now.toNat_lt
  have hle : minted.toNat / 60 ≤ now.toNat / 60 := Nat.div_le_div_right h
  simp only [lookupBuckets, List.mem_cons, List.not_mem_nil, or_false, ← UInt64.toNat_inj,
    UInt64.toNat_sub, UInt64.toNat_add, toNat_currentBucket, UInt64.toNat_one]
  omega

/-! ## The publisher beside a clock -/

/-- Nanoseconds of a second. -/
def NANOS : ℕ := 1000000000

/-- The whole seconds of a time since the epoch, as the clock tells them. -/
def asSecs (time : ℕ) : UInt64 := UInt64.ofNat (time / NANOS)

/-- A PIN publisher and what it shares, beside a clock. For the record: when the turn at hand began,
the PIN on display, and the PINs behind the honoured passwords, each with the time it was minted. -/
structure PinHost where
  publisher : PinPublisher
  shared : PinShared
  clock : ℕ
  shownAt : ℕ
  shown : Option (String × ℕ)
  recent : List (String × ℕ)
  deriving DecidableEq

/-- What moves a publisher beside a clock. The clock and the user are outside of the publisher, and
move between any two of its steps. -/
inductive PinHostLabel where
  /-- Time passes. -/
  | tick (now : ℕ)
  /-- The publisher takes a step. -/
  | publish (l : PinLabel)
  /-- The user asks for a new PIN, a peer pairs, or the session is cancelled. -/
  | askRefresh
  | pair
  | cancel

namespace PinHost

/-- The end of the period that runs. -/
def rotateAt (s : PinHost) : ℕ := s.shownAt + BUCKET_SECS * NANOS

/-- Time goes on until the period is over, and stands still while a turn begins. The publisher is
woken when the period is over, so that time cannot pass that point while it waits. -/
def MayPass (s : PinHost) (now : ℕ) : Prop :=
  s.clock ≤ now ∧ now / NANOS < 2 ^ 64 ∧
    match s.publisher with
    | .minting => now = s.clock
    | .derivingKeys _ | .waiting => now ≤ s.rotateAt
    | .stopped => True

/-- Whether a PIN may pass is decided by the state and the clock. -/
instance (s : PinHost) (now : ℕ) : Decidable (s.MayPass now) := by
  unfold MayPass
  cases s.publisher <;> exact inferInstance

variable (C : Crypto) (channel : SignalChannel)

/-- What is recorded of a publisher that takes a step. A turn that begins shows its PIN at this
time, and a password that is derived is pushed with its PIN. -/
def record (s : PinHost) (publisher : PinPublisher) (shared : PinShared) : PinLabel → PinHost
  | .mint pin _ => { s with
      publisher, shared, shownAt := s.clock
      shown := match publisher with
        | .derivingKeys _ => some (pin, s.clock)
        | _ => none }
  | .derived ran _ _ _ _ => { s with
      publisher, shared
      recent := match s.publisher with
        | .derivingKeys pin =>
          if ran ∧ (C.deriveAuthKeyMaterial pin).isOk then
            ((pin, s.shownAt) :: s.recent).take RECENT_PIN_CACHE
          else s.recent
        | _ => s.recent }
  | .rotate => { s with publisher, shared, shown := none }
  | .refresh => { s with publisher, shared, shown := none, recent := [] }
  | .paired | .cancelled => { s with publisher, shared, shown := none }

/-- One step of a publisher beside a clock. The period is over when the clock says so. A rotation is
a step of the publisher that is taken at this time only. -/
def step (s : PinHost) : PinHostLabel → Option PinHost
  | .tick now => if s.MayPass now then some { s with clock := now } else none
  | .publish l =>
    if l = .rotate ∧ s.clock ≠ s.rotateAt then none
    else (s.publisher.step C channel s.shared l).map fun (publisher, shared, _) =>
      s.record C publisher shared l
  | .askRefresh => some { s with shared := { s.shared with refresh := true } }
  | .pair => some { s with shared := { s.shared with paired := true } }
  | .cancel => some { s with shared := { s.shared with cancelled := true } }

/-- A publisher that is started, with the passwords that its session's memory still holds. The
passwords were derived from PINs that were shown before, at times that have passed. -/
structure Started (s : PinHost) : Prop where
  minting : s.publisher = .minting
  shown : s.shown = none
  recent : List.Forall₂ (fun pw m => C.deriveAuthKeyMaterial m.1 = .ok pw) s.shared.recentPins
    s.recent
  past : ∀ m ∈ s.recent, m.2 ≤ s.clock
  clock : s.clock / NANOS < 2 ^ 64

/-- The host honours a PIN that was minted at some time: it is on display, or its password is
retained. -/
def Honours (s : PinHost) (pin : String) (minted : ℕ) : Prop :=
  s.shown = some (pin, minted) ∨ (pin, minted) ∈ s.recent ∧
    ∃ pw ∈ s.shared.recentPins, C.deriveAuthKeyMaterial pin = .ok pw

/-- What holds of a publisher beside a clock: the record agrees with the passwords, nothing was
minted in the future, and the PIN on display is in its period. -/
structure Inv (s : PinHost) : Prop where
  recent : List.Forall₂ (fun pw m => C.deriveAuthKeyMaterial m.1 = .ok pw) s.shared.recentPins
    s.recent
  past : ∀ m ∈ s.recent, m.2 ≤ s.clock
  clock : s.clock / NANOS < 2 ^ 64
  started : s.shownAt ≤ s.clock ∨ s.publisher = .minting
  shown : ∀ m, s.shown = some m → m.2 = s.shownAt ∧ s.shownAt ≤ s.clock ∧ s.clock ≤ s.rotateAt ∧
    (s.publisher = .waiting ∨ s.publisher = .derivingKeys m.1)

variable {C channel}

/-- A publisher that is started keeps the record. -/
lemma Started.inv {s : PinHost} (h : s.Started C) : s.Inv C where
  recent := h.recent
  past := h.past
  clock := h.clock
  started := Or.inr h.minting
  shown := by simp [h.shown]

/-- Time that passes keeps the record.

**Proof sketch.** Time does not go back, and it does not pass the end of the period while the
publisher waits for it. -/
lemma Inv.tick {s s' : PinHost} (hI : s.Inv C) {now : ℕ}
    (h : s.step C channel (.tick now) = some s') : s'.Inv C := by
  simp only [step] at h
  split_ifs at h with hpass
  obtain rfl := Option.some.inj h
  obtain ⟨hle, hrange, hwhen⟩ := hpass
  refine ⟨hI.recent, fun m hm => Nat.le_trans (hI.past m hm) hle, hrange, ?_, fun m hm => ?_⟩
  · rcases hI.started with hs | hs
    · exact Or.inl (Nat.le_trans hs hle)
    · exact Or.inr hs
  · obtain ⟨hmint, hstart, -, hp⟩ := hI.shown m hm
    refine ⟨hmint, Nat.le_trans hstart hle, ?_, hp⟩
    show now ≤ s.rotateAt
    rcases hp with hp | hp <;> simpa only [hp] using hwhen

/-- A password that was derived is that of the PIN on display.

**Proof sketch.** The PIN on display stays there. Its password is pushed onto those that are
honoured, and the record gets the PIN with the time at which it was shown. If the derivation fails
both stay as they are. -/
lemma Inv.derived {s : PinHost} (hI : s.Inv C) {pin : String}
    (hpin : s.publisher = .derivingKeys pin) {ran written dnssd unicast nostr : Bool}
    {p' : PinPublisher} {sh' : PinShared} {es : List NetEvent}
    (hstep : PinPublisher.step C channel (.derivingKeys pin) s.shared
      (.derived ran written dnssd unicast nostr) = some (p', sh', es)) :
    (s.record C p' sh' (.derived ran written dnssd unicast nostr)).Inv C := by
  have hstarted : s.shownAt ≤ s.clock :=
    hI.started.resolve_right fun hmint => by rw [hmint] at hpin; cases hpin
  -- the PIN on display stays there
  have hshown : ∀ m, s.shown = some m → m.2 = s.shownAt ∧ s.shownAt ≤ s.clock ∧
      s.clock ≤ s.rotateAt ∧ (PinPublisher.waiting = .waiting ∨
        PinPublisher.waiting = .derivingKeys m.1) := fun m hm =>
    ⟨(hI.shown m hm).1, (hI.shown m hm).2.1, (hI.shown m hm).2.2.1, Or.inl rfl⟩
  by_cases hretain : ran ∧ (C.deriveAuthKeyMaterial pin).isOk
  · obtain ⟨rfl, hok⟩ := hretain
    obtain ⟨pw, hd⟩ : ∃ pw, C.deriveAuthKeyMaterial pin = .ok pw := by
      rcases hd : C.deriveAuthKeyMaterial pin with e | pw
      · rw [hd] at hok
        cases hok
      · exact ⟨pw, rfl⟩
    simp only [PinPublisher.step, if_true, hd, Option.some.injEq, Prod.mk.injEq] at hstep
    obtain ⟨rfl, rfl, -⟩ := hstep
    have hrecent : (s.record C .waiting { s.shared with recentPins := s.shared.recentPins.push pw }
        (.derived true written dnssd unicast nostr)).recent =
          ((pin, s.shownAt) :: s.recent).take RECENT_PIN_CACHE := by
      simp only [record, hpin, hok, and_self, if_true]
    refine ⟨?_, ?_, hI.clock, Or.inl hstarted, hshown⟩
    · rw [hrecent]
      exact List.forall₂_take _ (.cons hd hI.recent)
    · rw [hrecent]
      intro m hm
      rcases List.mem_cons.1 (List.mem_of_mem_take hm) with rfl | hm
      · exact hstarted
      · exact hI.past m hm
  · have hsame : p' = .waiting ∧ sh' = s.shared := by
      rcases ran with _ | _
      · simp only [PinPublisher.step, Option.some.injEq, Prod.mk.injEq, Bool.false_eq_true,
          if_false] at hstep
        exact ⟨hstep.1.symm, hstep.2.1.symm⟩
      · rcases hd : C.deriveAuthKeyMaterial pin with e | pw
        · simp only [PinPublisher.step, if_true, hd, Option.some.injEq, Prod.mk.injEq] at hstep
          exact ⟨hstep.1.symm, hstep.2.1.symm⟩
        · exact absurd ⟨rfl, by rw [hd]; rfl⟩ hretain
    obtain ⟨rfl, rfl⟩ := hsame
    have hrecent : (s.record C .waiting s.shared
        (.derived ran written dnssd unicast nostr)).recent = s.recent := by
      simp only [record, hpin, hretain, if_false]
    exact ⟨by rw [hrecent]; exact hI.recent, by rw [hrecent]; exact hI.past, hI.clock,
      Or.inl hstarted, hshown⟩

/-- A step of the publisher keeps the record.

**Proof sketch.** By the label. Minting shows a PIN at the time of the clock, a derivation is the
lemma above, and the other labels leave what is shown. -/
lemma Inv.publish {s s' : PinHost} (hI : s.Inv C) {l : PinLabel}
    (h : s.step C channel (.publish l) = some s') : s'.Inv C := by
  simp only [step] at h
  split_ifs at h with hdue
  obtain ⟨⟨p', sh', es⟩, hstep, rfl⟩ := Option.map_eq_some_iff.1 h
  cases l with
  | mint pin ip =>
    simp only [PinPublisher.step] at hstep
    split at hstep
    · split at hstep
      · obtain ⟨rfl, rfl, rfl⟩ := by simpa using hstep
        exact ⟨hI.recent, hI.past, hI.clock, Or.inl (Nat.le_refl _), by simp [record]⟩
      · obtain ⟨rfl, rfl, rfl⟩ := by simpa using hstep
        refine ⟨hI.recent, hI.past, hI.clock, Or.inl (Nat.le_refl _), ?_⟩
        rintro m ⟨⟩
        exact ⟨rfl, Nat.le_refl _, Nat.le_add_right _ _, Or.inr rfl⟩
    · cases hstep
  | derived ran written dnssd unicast nostr =>
    cases hp : s.publisher with
    | derivingKeys pin => exact hI.derived hp (by rw [← hp]; exact hstep)
    | minting | waiting | stopped => simp [PinPublisher.step, hp] at hstep
  | rotate =>
    simp only [PinPublisher.step] at hstep
    split_ifs at hstep
    obtain ⟨rfl, rfl, rfl⟩ := by simpa using hstep
    exact ⟨hI.recent, hI.past, hI.clock, Or.inr rfl, by simp [record]⟩
  | refresh =>
    simp only [PinPublisher.step] at hstep
    split_ifs at hstep
    obtain ⟨rfl, rfl, rfl⟩ := by simpa using hstep
    exact ⟨.nil, by simp [record], hI.clock, Or.inr rfl, by simp [record]⟩
  | paired | cancelled =>
    simp only [PinPublisher.step] at hstep
    split_ifs at hstep with hwait
    obtain ⟨rfl, rfl, rfl⟩ := by simpa using hstep
    have hstarted := hI.started.resolve_right fun hmint => by rw [hmint] at hwait; cases hwait.1
    exact ⟨hI.recent, hI.past, hI.clock, Or.inl hstarted, by simp [record]⟩

/-- **Every step keeps the record.** -/
theorem Inv.step {s s' : PinHost} (hI : s.Inv C) {l : PinHostLabel}
    (h : s.step C channel l = some s') : s'.Inv C := by
  cases l with
  | tick now => exact hI.tick h
  | publish l => exact hI.publish h
  | askRefresh | pair | cancel =>
    obtain rfl := Option.some.inj h
    exact ⟨hI.recent, hI.past, hI.clock, hI.started, hI.shown⟩

/-- Everything a host honours was minted before. -/
lemma Inv.honoured {s : PinHost} (hI : s.Inv C) {pin : String} {minted : ℕ}
    (hon : s.Honours C pin minted) : minted ≤ s.clock := by
  rcases hon with hshown | ⟨hrecent, -⟩
  · obtain ⟨hmint, hstart, -, -⟩ := hI.shown _ hshown
    have hmint : minted = s.shownAt := hmint
    omega
  · exact hI.past _ hrecent

/-- The seconds of a time that fits in 64 bits. -/
lemma toNat_asSecs {time : ℕ} (h : time / NANOS < 2 ^ 64) : (asSecs time).toNat = time / NANOS := by
  rw [asSecs, UInt64.toNat_ofNat']
  exact Nat.mod_eq_of_lt h

/-- **The window in which an honoured PIN can be looked up.** In every run of a publisher, of every
PIN that was minted at some time and is honoured now: the keys that a lookup derives now include the
key its record was published under if and only if no more than one minute began since the minute of
its minting. While the PIN is shown they always do.

**Proof sketch.** Ideal keys tell buckets apart, so the record's key is derived exactly when its
bucket is tried. Nothing is honoured before it was minted, so that is the current bucket or the one
before. A PIN on display is in its period, which is as long as a bucket. -/
theorem lookup_window {Keys : Type} {K : PinKdf Keys} (hK : K.Ideal) {s₀ s : PinHost}
    (h₀ : s₀.Started C) (hs : Machine.Reachable (step C channel) s₀ s) {pin : String} {minted : ℕ}
    {key : Keys} {keys : List Keys} (hon : s.Honours C pin minted)
    (hkey : pinKeys K pin (currentBucket (asSecs minted)) = .ok key)
    (hkeys : candidateKeys K pin (asSecs s.clock) = .ok keys) :
    (key ∈ keys ↔ s.clock / NANOS / BUCKET_SECS ≤ minted / NANOS / BUCKET_SECS + 1) ∧
    (s.shown = some (pin, minted) → key ∈ keys) := by
  have hI : s.Inv C :=
    Machine.reachable_invariant h₀.inv (fun _ _ _ hI hstep => hI.step hstep) hs
  have hle := hI.honoured hon
  have hsecs : minted / NANOS ≤ s.clock / NANOS := Nat.div_le_div_right hle
  have hnow := toNat_asSecs hI.clock
  have hmint := toNat_asSecs (Nat.lt_of_le_of_lt hsecs hI.clock)
  have hmem : key ∈ keys ↔ s.clock / NANOS / BUCKET_SECS ≤ minted / NANOS / BUCKET_SECS + 1 := by
    rw [mem_candidateKeys hkeys, BUCKET_SECS, ← hnow, ← hmint,
      ← mem_lookupBuckets (by rw [hnow, hmint]; exact hsecs)]
    constructor
    · rintro ⟨b, hb, hbkey⟩
      rwa [hK.pinKeys_inj hkey hbkey]
    · intro hb
      exact ⟨_, hb, hkey⟩
  refine ⟨hmem, fun hshown => hmem.2 ?_⟩
  obtain ⟨rfl, -, hperiod, -⟩ := hI.shown _ hshown
  simp only [rotateAt, BUCKET_SECS, NANOS] at hperiod ⊢
  omega

namespace Sample

/-- Libraries that keep everything they are given. -/
def kdf : PinKdf Bytes where
  argon2 pin salt := .ok (utf8 pin ++ salt)
  secretKey m := .ok m

/-- These libraries tell PINs and buckets apart. -/
lemma kdf_ideal : kdf.Ideal where
  argon2_inj h h' := List.append_cancel_left (Except.ok.inj (h.trans h'.symm))
  secretKey_inj h h' := (Except.ok.inj h).trans (Except.ok.inj h').symm

/-- A publisher that is started in the last second of a minute. -/
def started : PinHost :=
  ⟨.minting, ⟨false, [], false, false⟩, 59 * NANOS, 59 * NANOS, none, []⟩

/-- It shows a PIN for its period, rotates, and shows the next one for a second. -/
def run : List PinHostLabel :=
  [.publish (.mint "M3TDPWFA" none), .publish (.derived true true true true true),
    .tick (119 * NANOS), .publish .rotate, .publish (.mint "7KQ2XW9C" none),
    .publish (.derived true true true true true), .tick (120 * NANOS)]

/-- The password of a PIN. -/
def password (pin : String) : PinPassword := .padded pin

/-- The publisher after this run: it still honours the first PIN. -/
def after : PinHost :=
  ⟨.waiting, ⟨false, [password "7KQ2XW9C", password "M3TDPWFA"], false, false⟩, 120 * NANOS,
    119 * NANOS, some ("7KQ2XW9C", 119 * NANOS),
    [("7KQ2XW9C", 119 * NANOS), ("M3TDPWFA", 59 * NANOS)]⟩

/-- The publisher begins as a publisher does. -/
lemma started_started : started.Started PinAuth.Sample.crypto :=
  ⟨rfl, rfl, .nil, by simp [started], by decide⟩

/-- The run comes to the publisher after it. -/
lemma exec_run :
    Machine.exec (step PinAuth.Sample.crypto .lanOnly) started run = some after := by
  decide +kernel

/-- The first PIN is still honoured: its password is among the recent ones. -/
lemma honours_first : after.Honours PinAuth.Sample.crypto "M3TDPWFA" (59 * NANOS) :=
  Or.inr ⟨by simp [after], password "M3TDPWFA", by simp [after], rfl⟩

/-- The key of the first PIN's record, and the keys of a lookup. -/
def recordKey : Bytes := utf8 "M3TDPWFA" ++ kdfSalt 0

/-- The keys of a lookup: of the bucket at hand, the one before and the one behind. -/
def lookupKeys : List Bytes := [2, 1, 3].map fun b => utf8 "M3TDPWFA" ++ kdfSalt b

/-- The record of the first PIN was published under its bucket's key. -/
lemma recordKey_eq :
    pinKeys kdf "M3TDPWFA" (currentBucket (asSecs (59 * NANOS))) = .ok recordKey := by
  rfl

/-- The lookup computes these keys. -/
lemma lookupKeys_eq : candidateKeys kdf "M3TDPWFA" (asSecs after.clock) = .ok lookupKeys := by
  rfl

end Sample

/-- A PIN that was minted in the last second of a minute, one minute and a second ago. -/
theorem lookup_window_sample :
    (Sample.recordKey ∈ Sample.lookupKeys ↔
      Sample.after.clock / NANOS / BUCKET_SECS ≤ 59 * NANOS / NANOS / BUCKET_SECS + 1) ∧
    (Sample.after.shown = some ("M3TDPWFA", 59 * NANOS) → Sample.recordKey ∈ Sample.lookupKeys) :=
  lookup_window Sample.kdf_ideal Sample.started_started ⟨Sample.run, Sample.exec_run⟩
    Sample.honours_first Sample.recordKey_eq Sample.lookupKeys_eq

/-- The host honours it, and a lookup derives three other keys.

**Proof sketch.** The run is computed, and the key of the record is compared with the three keys of
the lookup. -/
theorem lookup_window_misses :
    Machine.Reachable (step PinAuth.Sample.crypto .lanOnly) Sample.started Sample.after ∧
    Sample.after.Honours PinAuth.Sample.crypto "M3TDPWFA" (59 * NANOS) ∧
    pinKeys Sample.kdf "M3TDPWFA" (currentBucket (asSecs (59 * NANOS))) = .ok Sample.recordKey ∧
    candidateKeys Sample.kdf "M3TDPWFA" (asSecs Sample.after.clock) = .ok Sample.lookupKeys ∧
    Sample.recordKey ∉ Sample.lookupKeys := by
  refine ⟨⟨Sample.run, Sample.exec_run⟩, Sample.honours_first, Sample.recordKey_eq,
    Sample.lookupKeys_eq, ?_⟩
  decide +kernel

end PinHost

end Duocb
