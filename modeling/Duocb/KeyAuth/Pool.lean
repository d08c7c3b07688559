import Duocb.KeyAuth

set_option relaxedAutoImplicit false
set_option autoImplicit false

/-!
# The key handshake under an active attacker

Any number of dialer and listener runs, by any keys and with any parameters, share a network that
the attacker owns: what a run reads is any frame the attacker likes. Two things are out of its
reach. Nonces are globally fresh, and signatures are ideal: a frame that carries a valid proof of
an honest key over a transcript can be delivered only after a run of that key's owner has signed
that transcript.

## Main definitions

* `Duocb.KeyAuth.Run`, `Duocb.KeyAuth.Pool` — the runs and what each has done so far.
* `Duocb.KeyAuth.Reachable` — the pools the attacker can bring about.
* `Duocb.KeyAuth.Agree` — a dialer run and a listener run hold the same view.

## Main results

* `Duocb.KeyAuth.Reachable.inv` — what every reachable pool satisfies.
* `Duocb.KeyAuth.signed_dialer`, `Duocb.KeyAuth.signed_listener` — who can have signed a
  transcript.
* `Duocb.KeyAuth.mutual_authentication` — mutual authentication.
-/

namespace Duocb.KeyAuth

/-- Which half a run plays, and with what. -/
inductive Role where
  | dialer (identity : Identity) (expectedPeer : PublicKey) (dialerId listenerId : String)
  | listener (identity : Identity) (clientPublicKey clientNonce dialerId listenerId : String)

namespace Role

/-- The identity a run signs with. -/
def identity : Role → Identity
  | dialer me _ _ _ | listener me _ _ _ _ => me

/-- The program of a run. A dialer returns nothing, a listener the dialer's key. -/
def prog (C : Crypto) : Role → Handshake (Option PublicKey)
  | dialer me peer did lid => dialerHandshake C me peer did lid >>= fun _ => .ret none
  | listener me key nonce did lid => listenerHandshake C me key nonce did lid >>= fun k => .ret k

/-- What the callers of the handshakes provide: transport ids are short texts, and the client's
nonce came in a control frame. -/
def WellFormed : Role → Prop
  | dialer _ _ did lid => did.utf8ByteSize < 2 ^ 32 ∧ lid.utf8ByteSize < 2 ^ 32
  | listener _ _ nonce did lid => nonce.utf8ByteSize ≤ MAX_CONTROL_MESSAGE_SIZE ∧
      did.utf8ByteSize < 2 ^ 32 ∧ lid.utf8ByteSize < 2 ^ 32

end Role

/-- A run: its parameters, what it has done, and what is left of its program. -/
structure Run where
  role : Role
  hist : List HandshakeEvt
  prog : Handshake (Option PublicKey)

/-- All runs so far. -/
abbrev Pool : Type := List Run

/-- A run of the owner of `K` has signed `m`. -/
def Signed (P : Pool) (K : PublicKey) (m : Bytes) : Prop :=
  ∃ r ∈ P, r.role.identity.publicKey = K ∧ ∃ s, ⟨.signAuth m, s⟩ ∈ r.hist

section Attacker

variable (C : Crypto) (honest : PublicKey → Prop)

/-- Every valid proof of an honest key in the frame is over a transcript its owner has signed. -/
def Unforged (P : Pool) (frame : Frame) : Prop :=
  ∀ K, honest K → ∀ key proof m, (key, .str proof) ∈ frame →
    C.verifyAuthSignature K m proof = .ok () → Signed P K m

/-- The answers a run can get. The attacker picks everything but nonces, and cannot forge. -/
def Answers (P : Pool) : (o : Op) → Ans o → Prop
  | .randomNonce, (n : String) => (∀ r ∈ P, ⟨.randomNonce, n⟩ ∉ r.hist) ∧ n.utf8ByteSize = 43
  | .read max, (.ok frame : Except Error Frame) =>
      Frame.size frame ≤ max ∧ Unforged C honest P frame
  | _, _ => True

/-- The pools the attacker can bring about, starting runs and answering them in any order. An answer
is limited by what the attacker cannot do: guess a nonce, or make a signature of an honest key. -/
inductive Reachable : Pool → Prop where
  | nil : Reachable []
  | start {P : Pool} (role : Role) (hP : Reachable P) (hrole : role.WellFormed) :
      Reachable (P ++ [⟨role, [], role.prog C⟩])
  | act {P : Pool} {i : ℕ} {role : Role} {hist : List HandshakeEvt} {o : Op}
      {k : Ans o → Handshake (Option PublicKey)} (a : Ans o) (hP : Reachable P)
      (hi : P[i]? = some ⟨role, hist, .call o k⟩) (ha : Answers C honest P o a) :
      Reachable (P.set i ⟨role, hist ++ [⟨o, a⟩], k a⟩)

/-- What holds of every reachable pool. Each run has followed its program, no two runs have drawn
one nonce, and every frame that was read was one that the attacker could have. -/
structure Inv (P : Pool) : Prop where
  follows : ∀ r ∈ P, Prog.Follows (r.role.prog C) r.hist r.prog
  wellFormed : ∀ r ∈ P, r.role.WellFormed
  fresh : ∀ (i j : ℕ) (r r' : Run) (n : String), P[i]? = some r → P[j]? = some r' →
    ⟨.randomNonce, n⟩ ∈ r.hist → ⟨.randomNonce, n⟩ ∈ r'.hist → i = j
  nonceSize : ∀ r ∈ P, ∀ n : String, ⟨.randomNonce, n⟩ ∈ r.hist → n.utf8ByteSize = 43
  reads : ∀ r ∈ P, ∀ (max : ℕ) (frame : Frame), ⟨.read max, .ok frame⟩ ∈ r.hist →
    frame.size ≤ max ∧ Unforged C honest P frame

end Attacker

variable {C : Crypto} {honest : PublicKey → Prop}

/-- Signatures are not forgotten when a run goes on. -/
lemma Signed.set {P : Pool} {i : ℕ} {r : Run} {e : HandshakeEvt}
    {q : Handshake (Option PublicKey)} {K : PublicKey} {m : Bytes} (h : Signed P K m)
    (hi : P[i]? = some r) : Signed (P.set i ⟨r.role, r.hist ++ [e], q⟩) K m := by
  obtain ⟨r', hr', hK, s, hs⟩ := h
  obtain ⟨j, hj⟩ := List.mem_iff_getElem?.1 hr'
  by_cases hij : i = j
  · subst hij
    obtain rfl : r = r' := by rw [hi] at hj; exact Option.some.inj hj
    obtain ⟨hlt, -⟩ := List.getElem?_eq_some_iff.1 hi
    exact ⟨_, List.mem_of_getElem? (List.getElem?_set_self hlt), hK, s, by simp [hs]⟩
  · exact ⟨r', List.mem_of_getElem? (by rw [List.getElem?_set_ne hij]; exact hj), hK, s, hs⟩

/-- What was signed in a pool stays signed when a run is added. -/
lemma Signed.append {P : Pool} {K : PublicKey} {m : Bytes} (h : Signed P K m) (r : Run) :
    Signed (P ++ [r]) K m := by
  obtain ⟨r', hr', rest⟩ := h
  exact ⟨r', by simp [hr'], rest⟩

/-- A run that has not started yet leaves the invariant alone.

**Proof sketch.** The new run has no history, so whatever is said of an event is said of an old run.
-/
lemma Inv.start {P : Pool} (h : Inv C honest P) {role : Role} (hrole : role.WellFormed) :
    Inv C honest (P ++ [⟨role, [], role.prog C⟩]) := by
  have hget : ∀ (i : ℕ) (r : Run) (e : HandshakeEvt),
      (P ++ [⟨role, [], role.prog C⟩])[i]? = some r → e ∈ r.hist → P[i]? = some r := by
    intro i r e hr he
    rcases Nat.lt_or_ge i P.length with hi | hi
    · rwa [List.getElem?_append_left hi] at hr
    · rw [List.getElem?_append_right hi, List.getElem?_singleton] at hr
      split at hr
      · obtain rfl := Option.some.inj hr
        simp at he
      · simp at hr
  refine ⟨?_, ?_, ?_, ?_, ?_⟩
  · intro r hr
    rcases List.mem_append.1 hr with hr | hr
    · exact h.follows r hr
    · obtain rfl := List.mem_singleton.1 hr
      exact .nil _
  · intro r hr
    rcases List.mem_append.1 hr with hr | hr
    · exact h.wellFormed r hr
    · obtain rfl := List.mem_singleton.1 hr
      exact hrole
  · intro i j r r' n hr hr' hn hn'
    exact h.fresh i j r r' n (hget i r _ hr hn) (hget j r' _ hr' hn') hn hn'
  · intro r hr n hn
    obtain ⟨i, hi⟩ := List.mem_iff_getElem?.1 hr
    exact h.nonceSize r (List.mem_of_getElem? (hget i r _ hi hn)) n hn
  · intro r hr max frame hf
    obtain ⟨i, hi⟩ := List.mem_iff_getElem?.1 hr
    obtain ⟨hsize, hun⟩ := h.reads r (List.mem_of_getElem? (hget i r _ hi hf)) max frame hf
    exact ⟨hsize, fun K hK key proof m hmem hver => (hun K hK key proof m hmem hver).append _⟩

/-- An answer the attacker may give keeps the invariant.

**Proof sketch.** An event is an old one, or the answer that was just given; that answer is one that
the attacker may give, and the invariant says of it what `Answers` says. -/
lemma Inv.act {P : Pool} (h : Inv C honest P) {i : ℕ} {role : Role} {hist : List HandshakeEvt}
    {o : Op} {k : Ans o → Handshake (Option PublicKey)} {a : Ans o}
    (hi : P[i]? = some ⟨role, hist, .call o k⟩) (ha : Answers C honest P o a) :
    Inv C honest (P.set i ⟨role, hist ++ [⟨o, a⟩], k a⟩) := by
  have hmem := List.mem_of_getElem? hi
  obtain ⟨hlt, -⟩ := List.getElem?_eq_some_iff.1 hi
  have hget : ∀ (j : ℕ) (r : Run), (P.set i ⟨role, hist ++ [⟨o, a⟩], k a⟩)[j]? = some r →
      (i = j ∧ r = ⟨role, hist ++ [⟨o, a⟩], k a⟩) ∨ (i ≠ j ∧ P[j]? = some r) := by
    intro j r hr
    by_cases hij : i = j
    · subst hij
      rw [List.getElem?_set_self hlt] at hr
      exact .inl ⟨rfl, (Option.some.inj hr).symm⟩
    · rw [List.getElem?_set_ne hij] at hr
      exact .inr ⟨hij, hr⟩
  -- what was in a history is still there, and only the new event is new
  have hold : ∀ (j : ℕ) (r : Run) (e : HandshakeEvt),
      (P.set i ⟨role, hist ++ [⟨o, a⟩], k a⟩)[j]? = some r → e ∈ r.hist →
      (∃ r', P[j]? = some r' ∧ r'.role = r.role ∧ e ∈ r'.hist) ∨ (i = j ∧ e = ⟨o, a⟩) := by
    intro j r e hr he
    rcases hget j r hr with ⟨rfl, rfl⟩ | ⟨-, hr⟩
    · rcases List.mem_append.1 he with he | he
      · exact .inl ⟨_, hi, rfl, he⟩
      · exact .inr ⟨rfl, List.mem_singleton.1 he⟩
    · exact .inl ⟨r, hr, rfl, he⟩
  refine ⟨?_, ?_, ?_, ?_, ?_⟩
  · intro r hr
    obtain ⟨j, hj⟩ := List.mem_iff_getElem?.1 hr
    rcases hget j r hj with ⟨-, rfl⟩ | ⟨-, hj⟩
    · exact (h.follows _ hmem).snoc a
    · exact h.follows r (List.mem_of_getElem? hj)
  · intro r hr
    obtain ⟨j, hj⟩ := List.mem_iff_getElem?.1 hr
    rcases hget j r hj with ⟨-, rfl⟩ | ⟨-, hj⟩
    · have hw : role.WellFormed := h.wellFormed _ hmem
      exact hw
    · exact h.wellFormed r (List.mem_of_getElem? hj)
  · intro j j' r r' n hr hr' hn hn'
    rcases hold j r _ hr hn with ⟨s, hs, -, hns⟩ | ⟨rfl, he⟩ <;>
      rcases hold j' r' _ hr' hn' with ⟨s', hs', -, hns'⟩ | ⟨rfl, he'⟩
    · exact h.fresh j j' s s' n hs hs' hns hns'
    · cases he'
      exact absurd hns (ha.1 s (List.mem_of_getElem? hs))
    · cases he
      exact absurd hns' (ha.1 s' (List.mem_of_getElem? hs'))
    · rfl
  · intro r hr n hn
    obtain ⟨j, hj⟩ := List.mem_iff_getElem?.1 hr
    rcases hold j r _ hj hn with ⟨s, hs, -, hns⟩ | ⟨rfl, he⟩
    · exact h.nonceSize s (List.mem_of_getElem? hs) n hns
    · cases he
      exact ha.2
  · intro r hr max frame hf
    obtain ⟨j, hj⟩ := List.mem_iff_getElem?.1 hr
    have hun : frame.size ≤ max ∧ Unforged C honest P frame := by
      rcases hold j r _ hj hf with ⟨s, hs, -, hfs⟩ | ⟨rfl, he⟩
      · exact h.reads s (List.mem_of_getElem? hs) max frame hfs
      · cases he
        exact ha
    exact ⟨hun.1, fun K hK key proof m hin hver => (hun.2 K hK key proof m hin hver).set hi⟩

/-- **Step to run.** Every reachable pool satisfies the invariant. -/
theorem Reachable.inv {P : Pool} (hP : Reachable C honest P) : Inv C honest P := by
  induction hP with
  | nil => exact ⟨by simp, by simp, by simp, by simp, by simp⟩
  | start role _ hrole ih => exact ih.start hrole
  | act a _ hi ha ih => exact ih.act hi ha

/-! ## What one run of a reachable pool has done -/

/-- A challenge that was verified stays so as the history grows. -/
lemma ChallengeVerified.mono {me : Identity} {peer : PublicKey} {did lid nonce : String}
    {challenge : KeyChallenge} {h h' : List HandshakeEvt} (hsub : h ⊆ h')
    (hv : ChallengeVerified C me peer did lid h nonce challenge) :
    ChallengeVerified C me peer did lid h' nonce challenge := by
  obtain ⟨frame, hf, hdec⟩ := hv.received
  exact ⟨hsub hv.drawn, ⟨frame, hsub hf, hdec⟩, hv.proved⟩

/-- Every operation of a dialer run met its obligation. -/
lemma Inv.dialer_did {P : Pool} (h : Inv C honest P) {r : Run} (hr : r ∈ P) {me : Identity}
    {peer : PublicKey} {did lid : String} (hrole : r.role = .dialer me peer did lid)
    {h₁ h₂ : List HandshakeEvt} {e : HandshakeEvt} (hh : r.hist = h₁ ++ e :: h₂) :
    DialerDid C me peer did lid h₁ e.1 := by
  have hf := h.follows r hr
  rw [hrole, hh] at hf
  have hsafe := (dialer_safe C me peer did lid).bind (S := fun _ _ => True)
    (f := fun _ => .ret (none : Option PublicKey)) (fun _ _ _ => trivial) fun _ _ _ => trivial
  exact hsafe.obligation hf fun _ _ => trivial

/-- Every operation of a listener run met its obligation. -/
lemma Inv.listener_did {P : Pool} (h : Inv C honest P) {r : Run} (hr : r ∈ P) {me : Identity}
    {key nonce did lid : String} (hrole : r.role = .listener me key nonce did lid)
    {h₁ h₂ : List HandshakeEvt} {e : HandshakeEvt} (hh : r.hist = h₁ ++ e :: h₂) :
    ListenerDid C me key nonce did lid h₁ e.1 := by
  have hf := h.follows r hr
  rw [hrole, hh] at hf
  have hsafe := (listener_safe C me key nonce did lid).bind (S := fun _ _ => True)
    (f := fun k => .ret (some k)) (fun _ _ _ => trivial) fun _ _ _ => trivial
  exact hsafe.obligation hf fun _ _ => trivial

/-- A dialer run that returned has signed. -/
lemma Inv.dialer_returned {P : Pool} (h : Inv C honest P) {r : Run} (hr : r ∈ P) {me : Identity}
    {peer : PublicKey} {did lid : String} (hrole : r.role = .dialer me peer did lid)
    (hret : r.prog = .ret none) : ∃ m s, ⟨.signAuth m, s⟩ ∈ r.hist := by
  have hf := h.follows r hr
  rw [hrole, hret] at hf
  have hsafe := (dialer_safe C me peer did lid).bind
    (S := fun h r => r = .ok (none : Option PublicKey) → ∃ m s, ⟨.signAuth m, s⟩ ∈ h)
    (f := fun _ => .ret none) (fun _ _ hq _ => hq rfl) (by simp)
  exact hsafe.returned hf (fun _ _ => trivial) rfl

/-- A listener run that returned a key has won the claim for it. -/
lemma Inv.listener_returned {P : Pool} (h : Inv C honest P) {r : Run} (hr : r ∈ P) {me : Identity}
    {key nonce did lid : String} (hrole : r.role = .listener me key nonce did lid) {K : PublicKey}
    (hret : r.prog = .ret (some K)) : ⟨.commitKey K, true⟩ ∈ r.hist := by
  have hf := h.follows r hr
  rw [hrole, hret] at hf
  have hsafe := (listener_safe C me key nonce did lid).bind
    (S := fun h r => ∀ K, r = .ok (some K) → ⟨.commitKey K, true⟩ ∈ h)
    (f := fun k => .ret (some k)) (by simp) (by simp)
  exact hsafe.returned hf (fun _ _ => trivial) K rfl

/-- What a dialer run signed is its transcript for a challenge that verified. -/
lemma Inv.dialer_signed {P : Pool} (h : Inv C honest P) {r : Run} (hr : r ∈ P) {me : Identity}
    {peer : PublicKey} {did lid : String} (hrole : r.role = .dialer me peer did lid) {m : Bytes}
    {s : String} (hs : ⟨.signAuth m, s⟩ ∈ r.hist) : ∃ nonce challenge,
      ChallengeVerified C me peer did lid r.hist nonce challenge ∧
      m = authTranscript "dialer" me.publicKey peer nonce challenge.nonce did lid := by
  obtain ⟨h₁, h₂, hh⟩ := List.append_of_mem hs
  obtain ⟨-, nonce, challenge, hv, hm⟩ := h.dialer_did hr hrole hh
  exact ⟨nonce, challenge, hv.mono (by rw [hh]; exact List.subset_append_left _ _), hm⟩

/-- A dialer run signs at most once. -/
lemma Inv.dialer_signed_once {P : Pool} (h : Inv C honest P) {r : Run} (hr : r ∈ P)
    {me : Identity} {peer : PublicKey} {did lid : String}
    (hrole : r.role = .dialer me peer did lid) {m m' : Bytes} {s s' : String}
    (hs : ⟨.signAuth m, s⟩ ∈ r.hist) (hs' : ⟨.signAuth m', s'⟩ ∈ r.hist) : m = m' := by
  have honce := Prog.eq_of_never_before (P := fun e : HandshakeEvt => ∃ m, e.1 = .signAuth m)
    (h := r.hist) ?_ hs hs' ⟨m, rfl⟩ ⟨m', rfl⟩
  · cases honce
    rfl
  · rintro h₁ ⟨_, a⟩ h₂ hh ⟨m, rfl⟩ e' he' ⟨m', hm'⟩
    exact (h.dialer_did hr hrole hh).1 e' he' m' hm'

/-- What a listener run signed is its transcript for the dialer it admitted. -/
lemma Inv.listener_signed {P : Pool} (h : Inv C honest P) {r : Run} (hr : r ∈ P) {me : Identity}
    {key nonce did lid : String} (hrole : r.role = .listener me key nonce did lid) {m : Bytes}
    {s : String} (hs : ⟨.signAuth m, s⟩ ∈ r.hist) : ∃ K own, C.parseKey key = some K ∧
      ⟨.admitKey K, .ok ()⟩ ∈ r.hist ∧ ⟨.randomNonce, own⟩ ∈ r.hist ∧
      m = authTranscript "listener" K me.publicKey nonce own did lid := by
  obtain ⟨h₁, h₂, hh⟩ := List.append_of_mem hs
  obtain ⟨-, K, own, hK, hadmit, hown, hm⟩ := h.listener_did hr hrole hh
  have hsub : h₁ ⊆ r.hist := by rw [hh]; exact List.subset_append_left _ _
  exact ⟨K, own, hK, hsub hadmit, hsub hown, hm⟩

/-! ## Who can have signed a transcript -/

/-- A text short enough for a length prefix. -/
def Short (s : String) : Prop := s.utf8ByteSize < 2 ^ 32

/-- A nonce that a run of a sound pool drew is short. -/
lemma Inv.short_nonce {P : Pool} (h : Inv C honest P) {r : Run} (hr : r ∈ P) {n : String}
    (hn : ⟨.randomNonce, n⟩ ∈ r.hist) : Short n := by
  have := h.nonceSize r hr n hn
  unfold Short
  omega

/-- The nonce of a challenge is short: it came in a control frame.

**Proof sketch.** The nonce is a field of a frame that was read within the cap of control messages,
and a field is not longer than its frame. -/
lemma Inv.short_challenge {P : Pool} (h : Inv C honest P) {r : Run} (hr : r ∈ P) {me : Identity}
    {peer : PublicKey} {did lid nonce : String} {challenge : KeyChallenge}
    (hv : ChallengeVerified C me peer did lid r.hist nonce challenge) : Short challenge.nonce := by
  obtain ⟨frame, hf, hdec⟩ := hv.received
  have hsize := (h.reads r hr _ frame hf).1
  obtain ⟨hof, -⟩ := decodeLengthPrefixed_ok.1 hdec
  have hstr : frame.str "nonce" = some challenge.nonce := by
    simp only [KeyChallenge.ofFrame, Option.bind_eq_bind, Option.bind_eq_some_iff,
      Option.pure_def, Option.some.injEq] at hof
    obtain ⟨_, _, _, _, n, hn, _, _, rfl⟩ := hof
    exact hn
  have := Frame.size_of_mem (Frame.mem_of_str hstr)
  simp only [MAX_CONTROL_MESSAGE_SIZE] at hsize
  unfold Short
  omega

/-- **A signed dialer transcript was signed by a dialer run** with exactly its fields.

**Proof sketch.** The signature is in some run of the key. The transcript of a dialer has the fields
of its run, and that of a listener names another role. -/
theorem signed_dialer {P : Pool} (h : Inv C honest P) {K ck sk : PublicKey}
    {cn sn ci si : String} (hcn : Short cn) (hsn : Short sn) (hci : Short ci) (hsi : Short si)
    (hs : Signed P K (authTranscript "dialer" ck sk cn sn ci si)) :
    ck = K ∧ ∃ r ∈ P, r.role = .dialer ⟨K⟩ sk ci si ∧ ⟨.randomNonce, cn⟩ ∈ r.hist ∧
      ∃ s, ⟨.signAuth (authTranscript "dialer" ck sk cn sn ci si), s⟩ ∈ r.hist := by
  obtain ⟨r, hr, hK, s, hsig⟩ := hs
  have hwf := h.wellFormed r hr
  rcases hrole : r.role with ⟨me, peer, did, lid⟩ | ⟨me, key, nonce, did, lid⟩
  · rw [hrole] at hwf hK
    obtain ⟨own, challenge, hv, hm⟩ := h.dialer_signed hr hrole hsig
    obtain ⟨-, rfl, rfl, rfl, -, rfl, rfl⟩ := authTranscript_inj (by decide) (by decide) hcn
      (h.short_nonce hr hv.drawn) hsn (h.short_challenge hr hv) hci hwf.1 hsi hwf.2 hm
    refine ⟨hK, r, hr, ?_, hv.drawn, s, hsig⟩
    rw [hrole, ← hK]
    rfl
  · obtain ⟨K', own, -, -, -, hm⟩ := h.listener_signed hr hrole hsig
    exact absurd hm authTranscript_dialer_ne

/-- **A signed listener transcript was signed by a listener run** with exactly its fields, after
it had admitted the dialer's key.

**Proof sketch.** The signature is in some run of the key. A listener signs after it has admitted
the key that the request named, and the transcript of a dialer names another role. -/
theorem signed_listener {P : Pool} (h : Inv C honest P) {K ck sk : PublicKey}
    {cn sn ci si : String} (hcn : Short cn) (hsn : Short sn) (hci : Short ci) (hsi : Short si)
    (hs : Signed P K (authTranscript "listener" ck sk cn sn ci si)) :
    sk = K ∧ ∃ r ∈ P, ∃ key, r.role = .listener ⟨K⟩ key cn ci si ∧ C.parseKey key = some ck ∧
      ⟨.admitKey ck, .ok ()⟩ ∈ r.hist ∧ ⟨.randomNonce, sn⟩ ∈ r.hist ∧
      ∃ s, ⟨.signAuth (authTranscript "listener" ck sk cn sn ci si), s⟩ ∈ r.hist := by
  obtain ⟨r, hr, hK, s, hsig⟩ := hs
  have hwf := h.wellFormed r hr
  rcases hrole : r.role with ⟨me, peer, did, lid⟩ | ⟨me, key, nonce, did, lid⟩
  · obtain ⟨own, challenge, -, hm⟩ := h.dialer_signed hr hrole hsig
    exact absurd hm.symm authTranscript_dialer_ne
  · rw [hrole] at hwf hK
    obtain ⟨K', own, hkey, hadmit, hown, hm⟩ := h.listener_signed hr hrole hsig
    have hnonce : Short nonce := Nat.lt_of_le_of_lt hwf.1 (by decide)
    obtain ⟨-, rfl, rfl, rfl, rfl, rfl, rfl⟩ := authTranscript_inj (by decide) (by decide) hcn
      hnonce hsn (h.short_nonce hr hown) hci hwf.2.1 hsi hwf.2.2 hm
    refine ⟨hK, r, hr, key, ?_, hkey, hadmit, hown, s, hsig⟩
    rw [hrole, ← hK]
    rfl

/-! ## Mutual authentication -/

/-- The dialer run `d` is the other end of the listener run `l`: its owner's key is `K`, it dialed
exactly this listener's key over the same two transport ids, and it signed its proof over the same
two nonces. -/
def Agree (d l : Run) (K : PublicKey) : Prop :=
  ∃ (me : Identity) (key clientNonce serverNonce did lid : String),
    l.role = .listener me key clientNonce did lid ∧ d.role = .dialer ⟨K⟩ me.publicKey did lid ∧
    ⟨.randomNonce, clientNonce⟩ ∈ d.hist ∧ ⟨.randomNonce, serverNonce⟩ ∈ l.hist ∧
    ∃ s, ⟨.signAuth (authTranscript "dialer" K me.publicKey clientNonce serverNonce did lid), s⟩ ∈
      d.hist

/-- What a listener run that returned `K` has seen: the policy's two answers, and a proof that
verified over this run's own transcript. -/
lemma Inv.listener_verified {P : Pool} (h : Inv C honest P) {l : Run} (hl : l ∈ P) {me : Identity}
    {key nonce did lid : String} (hrole : l.role = .listener me key nonce did lid) {K : PublicKey}
    (hret : l.prog = .ret (some K)) : ⟨.commitKey K, true⟩ ∈ l.hist ∧ ∃ own proof,
      ProofVerified C me nonce did lid l.hist K own proof := by
  have hcommit := h.listener_returned hl hrole hret
  refine ⟨hcommit, ?_⟩
  obtain ⟨h₁, h₂, hh⟩ := List.append_of_mem hcommit
  obtain ⟨-, own, proof, hv⟩ := h.listener_did hl hrole hh
  have hsub : h₁ ⊆ l.hist := by rw [hh]; exact List.subset_append_left _ _
  obtain ⟨frame, hf, hdec⟩ := hv.received
  exact ⟨own, proof, hsub hv.admitted, hsub hv.drawn, ⟨frame, hsub hf, hdec⟩, hv.proved⟩

/-- A proof under an honest key that a run accepted was signed by a run of that key's owner. -/
lemma Inv.proof_signed {P : Pool} (h : Inv C honest P) {l : Run} (hl : l ∈ P) {me : Identity}
    {nonce did lid own : String} {K : PublicKey} {proof : KeyProof} (hK : honest K)
    (hv : ProofVerified C me nonce did lid l.hist K own proof) :
    Signed P K (authTranscript "dialer" K me.publicKey nonce own did lid) := by
  obtain ⟨frame, hf, hdec⟩ := hv.received
  obtain ⟨hof, -⟩ := decodeLengthPrefixed_ok.1 hdec
  have hstr : frame.str "proof" = some proof.proof := by
    simp only [KeyProof.ofFrame, Option.bind_eq_bind, Option.bind_eq_some_iff, Option.pure_def,
      Option.some.injEq] at hof
    obtain ⟨_, _, p, hp, rfl⟩ := hof
    exact hp
  exact (h.reads l hl _ frame hf).2 K hK _ _ _ (Frame.mem_of_str hstr) hv.proved

/-- The same for the challenge a dialer verified. -/
lemma Inv.challenge_signed {P : Pool} (h : Inv C honest P) {d : Run} (hd : d ∈ P) {me : Identity}
    {peer : PublicKey} {did lid nonce : String} {challenge : KeyChallenge} (hpeer : honest peer)
    (hv : ChallengeVerified C me peer did lid d.hist nonce challenge) :
    Signed P peer (authTranscript "listener" me.publicKey peer nonce challenge.nonce did lid) := by
  obtain ⟨frame, hf, hdec⟩ := hv.received
  obtain ⟨hof, -⟩ := decodeLengthPrefixed_ok.1 hdec
  have hstr : frame.str "proof" = some challenge.proof := by
    simp only [KeyChallenge.ofFrame, Option.bind_eq_bind, Option.bind_eq_some_iff,
      Option.pure_def, Option.some.injEq] at hof
    obtain ⟨_, _, _, _, _, _, p, hp, rfl⟩ := hof
    exact hp
  exact (h.reads d hd _ frame hf).2 peer hpeer _ _ _ (Frame.mem_of_str hstr) hv.proved

/-- A listener run that accepted an honest key has its other end in the pool. -/
lemma Inv.listener_agrees {P : Pool} (h : Inv C honest P) {l : Run} (hl : l ∈ P) {me : Identity}
    {key nonce did lid : String} (hrole : l.role = .listener me key nonce did lid) {K : PublicKey}
    (hret : l.prog = .ret (some K)) (hK : honest K) : ∃ d ∈ P, Agree d l K := by
  obtain ⟨-, own, proof, hv⟩ := h.listener_verified hl hrole hret
  have hwf := h.wellFormed l hl
  rw [hrole] at hwf
  obtain ⟨-, d, hd, hdrole, hdn, hsig⟩ := signed_dialer h (Nat.lt_of_le_of_lt hwf.1 (by decide))
    (h.short_nonce hl hv.drawn) hwf.2.1 hwf.2.2 (h.proof_signed hl hK hv)
  exact ⟨d, hd, me, key, nonce, own, did, lid, hrole, hdrole, hdn, hv.drawn, hsig⟩

/-- No two listener runs agree with one dialer run: it signed one server nonce, and that nonce was
drawn by one listener run.

**Proof sketch.** The dialer has signed one transcript only. It has the nonces of both listener runs
in it, so that they are the same, and a nonce is drawn by one run. -/
lemma Inv.agree_unique {P : Pool} (h : Inv C honest P) {i j : ℕ} {l l' d : Run} {K : PublicKey}
    (hi : P[i]? = some l) (hj : P[j]? = some l') (hd : d ∈ P) (ha : Agree d l K)
    (ha' : Agree d l' K) : i = j := by
  obtain ⟨me, key, cn, sn, did, lid, hrole, hdrole, hcn, hsn, s, hs⟩ := ha
  obtain ⟨me', key', cn', sn', did', lid', hrole', hdrole', hcn', hsn', s', hs'⟩ := ha'
  have hl := List.mem_of_getElem? hi
  have hl' := List.mem_of_getElem? hj
  have hwf := h.wellFormed l hl
  have hwf' := h.wellFormed l' hl'
  rw [hrole] at hwf
  rw [hrole'] at hwf'
  have hm := h.dialer_signed_once hd hdrole hs hs'
  obtain ⟨-, -, -, -, hnonce, -, -⟩ := authTranscript_inj (by decide) (by decide)
    (h.short_nonce hd hcn) (h.short_nonce hd hcn') (h.short_nonce hl hsn)
    (h.short_nonce hl' hsn') hwf.2.1 hwf'.2.1 hwf.2.2 hwf'.2.2 hm
  rw [← hnonce] at hsn'
  exact h.fresh i j l l' sn hi hj hsn hsn'

/-- No listener run has signed a dialer transcript, nor a dialer run a listener transcript: a
role's own signature is never accepted back. -/
lemma Inv.no_reflection {P : Pool} (h : Inv C honest P) {r : Run} (hr : r ∈ P) {ck sk : PublicKey}
    {cn sn ci si s : String} :
    (∀ me key nonce did lid, r.role = .listener me key nonce did lid →
      ⟨.signAuth (authTranscript "dialer" ck sk cn sn ci si), s⟩ ∉ r.hist) ∧
    ∀ me peer did lid, r.role = .dialer me peer did lid →
      ⟨.signAuth (authTranscript "listener" ck sk cn sn ci si), s⟩ ∉ r.hist := by
  refine ⟨fun me key nonce did lid hrole hs => ?_, fun me peer did lid hrole hs => ?_⟩
  · obtain ⟨K, own, -, -, -, hm⟩ := h.listener_signed hr hrole hs
    exact authTranscript_dialer_ne hm
  · obtain ⟨own, challenge, -, hm⟩ := h.dialer_signed hr hrole hs
    exact authTranscript_dialer_ne hm.symm

/-- What a listener run that accepted guarantees. It was admitted and given the claim, a proof for
its own nonce was checked, and for an honest key there is one dialer run that agrees with it, and
with no other listener run. -/
def ListenerAuthentic (C : Crypto) (honest : PublicKey → Prop) (P : Pool) : Prop :=
  ∀ (i : ℕ) (l : Run) (me : Identity) (key nonce did lid : String) (K : PublicKey),
    P[i]? = some l → l.role = .listener me key nonce did lid → l.prog = .ret (some K) →
    ⟨.admitKey K, .ok ()⟩ ∈ l.hist ∧ ⟨.commitKey K, true⟩ ∈ l.hist ∧
    (∃ own proof, ProofVerified C me nonce did lid l.hist K own proof ∧
      ∀ r ∈ P, ∀ me' key' nonce' did' lid' s, r.role = .listener me' key' nonce' did' lid' →
        ⟨.signAuth (authTranscript "dialer" K me.publicKey nonce own did lid), s⟩ ∉ r.hist) ∧
    (honest K → (∃ d ∈ P, Agree d l K) ∧
      ∀ (j : ℕ) (l' d : Run), P[j]? = some l' → d ∈ P → Agree d l K → Agree d l' K → i = j)

/-- What a dialer run that returned guarantees. A challenge for its own nonce was checked, and for
an honest peer there is a listener run that drew the nonce of the challenge and signed for this
dialer. -/
def DialerAuthentic (C : Crypto) (honest : PublicKey → Prop) (P : Pool) : Prop :=
  ∀ d ∈ P, ∀ (me : Identity) (peer : PublicKey) (did lid : String),
    d.role = .dialer me peer did lid → d.prog = .ret none → ∃ nonce challenge,
      ChallengeVerified C me peer did lid d.hist nonce challenge ∧
      (∀ r ∈ P, ∀ me' peer' did' lid' s, r.role = .dialer me' peer' did' lid' →
        ⟨.signAuth (authTranscript "listener" me.publicKey peer nonce challenge.nonce did lid), s⟩ ∉
          r.hist) ∧
      (honest peer → ∃ l ∈ P, ∃ key, l.role = .listener ⟨peer⟩ key nonce did lid ∧
        C.parseKey key = some me.publicKey ∧ ⟨.randomNonce, challenge.nonce⟩ ∈ l.hist ∧
        ∃ s, ⟨.signAuth (authTranscript "listener" me.publicKey peer nonce challenge.nonce did lid),
          s⟩ ∈ l.hist)

/-- A listener signs only what comes after a successful admit, and a dialer writes a proof only
after the expected key's listener proof verified. -/
def ProofsInOrder (C : Crypto) (P : Pool) : Prop :=
  (∀ l ∈ P, ∀ me key nonce did lid, l.role = .listener me key nonce did lid →
    ∀ h₁ m s h₂, l.hist = h₁ ++ ⟨.signAuth m, s⟩ :: h₂ → ∃ K, ⟨.admitKey K, .ok ()⟩ ∈ h₁) ∧
  ∀ d ∈ P, ∀ me peer did lid, d.role = .dialer me peer did lid →
    ∀ h₁ proof a h₂, d.hist = h₁ ++ ⟨.write (KeyProof.new proof).toFrame, a⟩ :: h₂ →
      ∃ nonce challenge, ChallengeVerified C me peer did lid h₁ nonce challenge

/-- **Mutual authentication of the key handshake.** In every pool the attacker can bring about, a
listener that returns a key has admitted it and won the claim for it, and if its owner is honest
that owner ran the dialing half against exactly this listener with the same nonces and ids, for
this listener run only; a dialer that returns has verified the expected key's listener proof over
its own nonce, key and ids; and neither proves anything early.

**Proof sketch.** A proof that verifies under an honest key was signed by a run of its owner. The
transcript determines the role, the keys, the nonces and the ids of the run that signed it, and a
dialer run signs one transcript, whose server nonce only one listener run has drawn. -/
theorem mutual_authentication {P : Pool} (hP : Reachable C honest P) :
    ListenerAuthentic C honest P ∧ DialerAuthentic C honest P ∧ ProofsInOrder C P := by
  have h := hP.inv
  refine ⟨?_, ?_, ?_, ?_⟩
  · intro i l me key nonce did lid K hi hrole hret
    have hl := List.mem_of_getElem? hi
    obtain ⟨hcommit, own, proof, hv⟩ := h.listener_verified hl hrole hret
    refine ⟨hv.admitted, hcommit, ⟨own, proof, hv, ?_⟩, fun hK => ⟨?_, ?_⟩⟩
    · intro r hr me' key' nonce' did' lid' s hr'
      exact (h.no_reflection hr).1 me' key' nonce' did' lid' hr'
    · exact h.listener_agrees hl hrole hret hK
    · intro j l' d hj hd ha ha'
      exact h.agree_unique hi hj hd ha ha'
  · intro d hd me peer did lid hrole hret
    obtain ⟨m, s, hs⟩ := h.dialer_returned hd hrole hret
    obtain ⟨nonce, challenge, hv, -⟩ := h.dialer_signed hd hrole hs
    have hwf := h.wellFormed d hd
    rw [hrole] at hwf
    have hshort := h.short_nonce hd hv.drawn
    have hshort' := h.short_challenge hd hv
    refine ⟨nonce, challenge, hv, ?_, fun hpeer => ?_⟩
    · intro r hr me' peer' did' lid' s hr'
      exact (h.no_reflection hr).2 me' peer' did' lid' hr'
    · obtain ⟨-, l, hl, key, hlrole, hkey, -, hdrawn, hsig⟩ := signed_listener h hshort hshort'
        hwf.1 hwf.2 (h.challenge_signed hd hpeer hv)
      exact ⟨l, hl, key, hlrole, hkey, hdrawn, hsig⟩
  · intro l hl me key nonce did lid hrole h₁ m s h₂ hh
    obtain ⟨-, K, own, -, hadmit, -, -⟩ := h.listener_did hl hrole hh
    exact ⟨K, hadmit⟩
  · intro d hd me peer did lid hrole h₁ proof a h₂ hh
    rcases h.dialer_did hd hrole hh with ⟨nonce, hreq⟩ | ⟨nonce, challenge, m, s, hv, -, -⟩
    · simp [KeyProof.toFrame, AuthRequest.toFrame, AuthRequest.keyRequest] at hreq
    · exact ⟨nonce, challenge, hv⟩

/-! ## A complete run -/

/-- The answers a run gets over several steps are all within the attacker's reach. -/
def Allowed (C : Crypto) (honest : PublicKey → Prop) (P : Pool) (i : ℕ) (role : Role) :
    List HandshakeEvt → List HandshakeEvt → Prop
  | _, [] => True
  | hist, e :: h => (∀ r, Answers C honest (P.set i ⟨role, hist, r⟩) e.1 e.2) ∧
      Allowed C honest P i role (hist ++ [e]) h

/-- A run goes on for several steps.

**Proof sketch.** By induction on what is followed: each of its operations is one step of the pool,
which changes this run only. -/
lemma Reachable.follow {P : Pool} {i : ℕ} {role : Role} {hist h : List HandshakeEvt}
    {p q : Handshake (Option PublicKey)} (hP : Reachable C honest P)
    (hi : P[i]? = some ⟨role, hist, p⟩) (hf : p.Follows h q)
    (ha : Allowed C honest P i role hist h) :
    Reachable C honest (P.set i ⟨role, hist ++ h, q⟩) := by
  obtain ⟨hlt, hget⟩ := List.getElem?_eq_some_iff.1 hi
  have hself : ∀ {Q : Pool} {r : Run}, Q[i]? = some r → Q.set i r = Q := fun {Q r} hr => by
    obtain ⟨hlt', rfl⟩ := List.getElem?_eq_some_iff.1 hr
    exact List.set_getElem_self hlt'
  induction hf generalizing P hist with
  | nil p => rw [List.append_nil, hself hi]; exact hP
  | @cons o k a h q _ ih =>
    have hfirst := ha.1 (.call o k)
    rw [hself hi] at hfirst
    have hlt' : i < (P.set i ⟨role, hist ++ [⟨o, a⟩], k a⟩).length := by simpa using hlt
    have hget' := List.getElem?_set_self hlt (a := ⟨role, hist ++ [⟨o, a⟩], k a⟩)
    have hnext := ih (hP.act a hi hfirst) hget' ?_ hlt' (List.getElem?_eq_some_iff.1 hget').2
    · rw [List.set_set, List.append_assoc] at hnext
      exact hnext
    · have hall : ∀ (hist : List HandshakeEvt) (h : List HandshakeEvt) (r : Run),
          Allowed C honest P i role hist h → Allowed C honest (P.set i r) i role hist h := by
        intro hist h
        induction h generalizing hist with
        | nil => exact fun _ _ => trivial
        | cons e h ih' =>
          exact fun r hr => ⟨fun r' => by rw [List.set_set]; exact hr.1 r', ih' _ r hr.2⟩
      exact hall _ _ _ ha.2

namespace Sample

/-- The two devices of the run, their ids and their nonces. -/
def dialer : PublicKey := .filled 1

/-- The listener's key, -/
def listener : PublicKey := .filled 2

/-- the nonce that the dialer draws, -/
def dialerNonce : String := String.ofList (List.replicate 43 'd')

/-- and the nonce that the listener draws. -/
def listenerNonce : String := String.ofList (List.replicate 43 'l')

/-- The transcript each role signs. -/
def transcript (role : String) : Bytes :=
  authTranscript role dialer listener dialerNonce listenerNonce "id-d" "id-l"

/-- Primitives under which each device's one signature checks. Only the two signatures of the
exchange check, each over its own transcript. -/
def crypto : Crypto where
  parseKey s := if s = dialer.toHex then some dialer
    else if s = listener.toHex then some listener else none
  verifyAuthSignature K m proof :=
    if K = listener ∧ m = transcript "listener" ∧ proof = "sig-l" ∨
      K = dialer ∧ m = transcript "dialer" ∧ proof = "sig-d" then .ok ()
    else .error (.msg "authentication proof did not verify")
  deriveAuthKeyMaterial _ := .error (.msg "no PIN in this run")
  pakeMsgA _ _ := []
  pakeMsgB _ _ := []
  pakeFinishA _ _ _ _ _ := .ok []
  pakeFinishB _ _ _ _ _ := .ok []
  hmac _ _ := []
  b64Encode _ := ""
  b64Decode _ := none

/-- The dialer's request, -/
def request : Frame := (AuthRequest.keyRequest dialer.toHex dialerNonce).toFrame

/-- the listener's challenge, -/
def challenge : Frame := (KeyChallenge.new listener.toHex listenerNonce "sig-l").toFrame

/-- and the dialer's proof. -/
def proof : Frame := (KeyProof.new "sig-d").toFrame

/-- The dialer's program, with the node ids that it sees, -/
def dialerRole : Role := .dialer ⟨dialer⟩ listener "id-d" "id-l"

/-- and the listener's, which has read the request. -/
def listenerRole : Role := .listener ⟨listener⟩ dialer.toHex dialerNonce "id-d" "id-l"

/-- What each run does, cut where it waits for the other. -/
def opens : List HandshakeEvt := [⟨.randomNonce, dialerNonce⟩, ⟨.write request, .ok ()⟩]

/-- The listener admits the key and answers with its challenge; -/
def challenges : List HandshakeEvt :=
  [⟨.admitKey dialer, .ok ()⟩, ⟨.randomNonce, listenerNonce⟩,
    ⟨.signAuth (transcript "listener"), "sig-l"⟩, ⟨.write challenge, .ok ()⟩]

/-- the dialer verifies it and proves its key; -/
def proves : List HandshakeEvt :=
  [⟨.read MAX_CONTROL_MESSAGE_SIZE, .ok challenge⟩, ⟨.signAuth (transcript "dialer"), "sig-d"⟩,
    ⟨.write proof, .ok ()⟩]

/-- the listener verifies the proof, commits and accepts; -/
def accepts : List HandshakeEvt :=
  [⟨.read MAX_CONTROL_MESSAGE_SIZE, .ok proof⟩, ⟨.commitKey dialer, true⟩,
    ⟨.write AuthResponse.accept.toFrame, .ok ()⟩]

/-- and the dialer reads the verdict. -/
def returns : List HandshakeEvt :=
  [⟨.read MAX_CONTROL_MESSAGE_SIZE, .ok AuthResponse.accept.toFrame⟩]

/-- Both runs after the whole exchange. -/
def pool : Pool :=
  [⟨dialerRole, opens ++ proves ++ returns, .ret none⟩,
    ⟨listenerRole, challenges ++ accepts, .ret (some dialer)⟩]

/-- The dialer's key is read as it is written. -/
lemma parse_dialer : crypto.parseKey dialer.toHex = some dialer := by simp [crypto]

/-- So is the listener's, which is another text. -/
lemma parse_listener : crypto.parseKey listener.toHex = some listener := by
  have hne : listener.toHex ≠ dialer.toHex := by decide +kernel
  simp [crypto, hne]

/-- The challenge carries the listener's signature and no other. -/
lemma unforged_challenge {P : Pool} (hs : Signed P listener (transcript "listener")) :
    Unforged crypto (fun _ => True) P challenge := by
  have hno : ∀ f ∈ challenge, f.2 ≠ .str "sig-d" := by decide +kernel
  intro K _ key p m hmem hver
  simp only [crypto] at hver
  split at hver
  · rename_i hc
    rcases hc with ⟨rfl, rfl, rfl⟩ | ⟨rfl, rfl, rfl⟩
    · exact hs
    · exact absurd rfl (hno _ hmem)
  · simp at hver

/-- The proof carries the dialer's signature and no other. -/
lemma unforged_proof {P : Pool} (hs : Signed P dialer (transcript "dialer")) :
    Unforged crypto (fun _ => True) P proof := by
  have hno : ∀ f ∈ proof, f.2 ≠ .str "sig-l" := by decide +kernel
  intro K _ key p m hmem hver
  simp only [crypto] at hver
  split at hver
  · rename_i hc
    rcases hc with ⟨rfl, rfl, rfl⟩ | ⟨rfl, rfl, rfl⟩
    · exact absurd rfl (hno _ hmem)
    · exact hs
  · simp at hver

/-- The verdict carries no signature. -/
lemma unforged_accept {P : Pool} :
    Unforged crypto (fun _ => True) P AuthResponse.accept.toFrame := by
  have hno : ∀ f ∈ AuthResponse.accept.toFrame, ∀ p, f.2 ≠ .str p := by
    simp [AuthResponse.accept, AuthResponse.toFrame, optField]
  intro K _ key p m hmem
  exact absurd rfl (hno _ hmem p)

/-- The exchange of the two devices runs to acceptance.

**Proof sketch.** The traces of the two ends follow their programs. Each is cut where a frame passes
to the other end, and the pool takes the pieces in the order in which the frames arrive. -/
theorem reachable : Reachable crypto (fun _ => True) pool := by
  have hd : (dialerRole.prog crypto).Follows (opens ++ (proves ++ returns)) (.ret none) :=
    (dialer_follows crypto parse_listener (by simp [crypto, transcript]) (by decide +kernel)
      (by decide +kernel)).bind
  have hl : (listenerRole.prog crypto).Follows (challenges ++ accepts) (.ret (some dialer)) :=
    (listener_follows crypto parse_dialer (by simp [crypto, transcript]) (by decide +kernel)).bind
  obtain ⟨q₁, hd₁, hd'⟩ := hd.split
  obtain ⟨q₂, hd₂, hd₃⟩ := hd'.split
  obtain ⟨q₃, hl₁, hl₂⟩ := hl.split
  have hread : challenge.size ≤ MAX_CONTROL_MESSAGE_SIZE ∧
      proof.size ≤ MAX_CONTROL_MESSAGE_SIZE ∧
      AuthResponse.accept.toFrame.size ≤ MAX_CONTROL_MESSAGE_SIZE := by decide +kernel
  have hdn : dialerNonce.utf8ByteSize = 43 := by decide +kernel
  have hln : listenerNonce.utf8ByteSize = 43 := by decide +kernel
  have hne : dialerNonce ≠ listenerNonce := by decide +kernel
  have h₀ := (.nil : Reachable crypto (fun _ => True) []).start dialerRole
    ⟨by decide, by decide⟩
  have h₁ := h₀.start listenerRole ⟨by decide +kernel, by decide, by decide⟩
  have h₂ := h₁.follow (i := 0) rfl hd₁ ⟨fun _ => ⟨by simp, hdn⟩, fun _ => trivial, trivial⟩
  have h₃ := h₂.follow (i := 1) rfl hl₁ ⟨fun _ => trivial, fun _ => ⟨?_, hln⟩, fun _ => trivial,
    fun _ => trivial, trivial⟩
  · have h₄ := h₃.follow (i := 0) rfl hd₂ ⟨fun _ => ⟨hread.1, unforged_challenge ?_⟩,
      fun _ => trivial, fun _ => trivial, trivial⟩
    · have h₅ := h₄.follow (i := 1) rfl hl₂ ⟨fun _ => ⟨hread.2.1, unforged_proof ?_⟩,
        fun _ => trivial, fun _ => trivial, trivial⟩
      · have h₆ := h₅.follow (i := 0) rfl hd₃ ⟨fun _ => ⟨hread.2.2, unforged_accept⟩, trivial⟩
        simpa [pool] using h₆
      · exact ⟨_, List.mem_cons_self, rfl, "sig-d", by simp [proves]⟩
    · exact ⟨_, List.mem_cons_of_mem _ List.mem_cons_self, rfl, "sig-l", by simp [challenges]⟩
  · simp only [List.nil_append, List.singleton_append, List.set_cons_zero, List.set_cons_succ,
      List.mem_cons, List.not_mem_nil, or_false, forall_eq_or_imp, forall_eq, opens, not_or]
    exact ⟨⟨fun h => hne (eq_of_heq (Sigma.mk.inj h).2).symm, nofun⟩, nofun⟩

end Sample

/-- In the complete run the listener accepted the dialer, and the dialer is its other end. -/
theorem mutual_authentication_sample :
    (∃ d ∈ Sample.pool, Agree d ⟨Sample.listenerRole, Sample.challenges ++ Sample.accepts,
      .ret (some Sample.dialer)⟩ Sample.dialer) ∧
    DialerAuthentic Sample.crypto (fun _ => True) Sample.pool := by
  obtain ⟨hl, hd, -⟩ := mutual_authentication Sample.reachable
  exact ⟨((hl 1 _ _ _ _ _ _ _ rfl rfl rfl).2.2.2 trivial).1, hd⟩

end Duocb.KeyAuth
