import Duocb.Pin.Record

set_option relaxedAutoImplicit false
set_option autoImplicit false

/-!
# The side channel of a PIN record

Where multicast does not get through, the joiner types the address of the host and fetches the
record from it over TCP. The port follows from the keypair of the record, so the joiner probes one
port for each of its candidates, all at once, and takes the first probe that yields a record. Who
answers on such a port may send anything, and any amount of it.

## Main definitions

* `Duocb.unicastAdvertise` — the port and the bytes that a host serves.
* `Duocb.fetch`, `Duocb.fetchAndDecrypt` — one probe.
* `Duocb.unicastLookup` — the race of the probes.

## Main results

* `Duocb.EPHEMERAL_START_le` — the port is an ephemeral one.
* `Duocb.fetchAndDecrypt_advertised` — a probe that is served the bytes of a host yields its record.
* `Duocb.fetchAndDecrypt_eq_some` — what a probe yields was opened with a candidate.
* `Duocb.fetchAndDecrypt_oversize` — too many bytes yield nothing, whatever they begin with.
-/

namespace Duocb

variable {Keys : Type} (S : PinSealing Keys)

/-- The cap on a record. -/
def MAX_RECORD_BYTES : ℕ := 8 * 1024

/-- What a host serves over the side channel, and on which port. The record is sealed under the keys
of the PIN, and the port is one of their hash. A record above the limit is not served. -/
def unicastAdvertise (nonce : Bytes) (keys : Keys) (nodeId : EndpointId)
    (addrs : List SocketAddr) : Except Error (UInt16 × Bytes) := do
  let content ← withContext (encryptPinPayload S nonce keys nodeId)
    "encrypting the unicast PIN record"
  let body ← withContext (S.recordToVec ⟨content, addrs⟩) "serializing the unicast PIN record"
  bailIf (MAX_RECORD_BYTES < body.length)
    ("unicast PIN record too large: " ++ body.length.repr ++ " bytes")
  return (sideChannelPort S keys, body)

/-- Read what is served, up to one byte past the cap. -/
def fetch (served : Except Error Bytes) : Except Error Bytes :=
  served.map fun bytes => bytes.take (MAX_RECORD_BYTES + 1)

/-- One probe: what it makes of what is served. Any failure reads as no record. The record is opened
with the candidate keys one after the other, and the first that opens it gives the target. -/
def fetchAndDecrypt (served : Except Error Bytes) (candidates : List Keys) :
    Option (LanFound EndpointId) :=
  match fetch served with
  | .error _ => none
  | .ok buf =>
    if MAX_RECORD_BYTES < buf.length then none
    else
      match S.recordFromSlice buf with
      | .error _ => none
      | .ok record => candidates.findSome? fun keys =>
        (decryptPinPayload S keys record.e).map fun nodeId => ⟨nodeId, record.addrs⟩

/-- Probe the port of each candidate. The probes that are over before the time is up are listed in
the order in which they end. -/
def unicastLookup (connect : UInt16 → Except Error Bytes) (finished candidates : List Keys) :
    Option (LanFound EndpointId) :=
  if candidates = [] then none
  else finished.findSome? fun keys =>
    fetchAndDecrypt S (connect (sideChannelPort S keys)) candidates

/-- **The port of the side channel is an ephemeral one**: the sum does not wrap around.

**Proof sketch.** The sum of the start and a remainder is at most the last port, so it does not wrap
around. -/
theorem EPHEMERAL_START_le (keys : Keys) : EPHEMERAL_START ≤ sideChannelPort S keys := by
  have hwrap : ∀ x : UInt16, EPHEMERAL_START ≤ EPHEMERAL_START + x % EPHEMERAL_LEN := by
    intro x
    have hmod : x.toNat % 16384 < 16384 := Nat.mod_lt _ (by decide)
    rw [UInt16.le_iff_toNat_le, UInt16.toNat_add, UInt16.toNat_mod]
    have hstart : EPHEMERAL_START.toNat = 49152 := by decide
    have hlen : EPHEMERAL_LEN.toNat = 16384 := by decide
    rw [hstart, hlen]
    omega
  exact hwrap _

variable {S} {keys : Set Keys} {candidates : List Keys}

/-- What a host serves is one record within the cap. -/
lemma unicastAdvertise_eq_ok {nonce : Bytes} {k : Keys} {nodeId : EndpointId}
    {addrs : List SocketAddr} {port : UInt16} {body : Bytes}
    (h : unicastAdvertise S nonce k nodeId addrs = .ok (port, body)) :
    port = sideChannelPort S k ∧ body.length ≤ MAX_RECORD_BYTES ∧
      ∃ content, encryptPinPayload S nonce k nodeId = .ok content ∧
        S.recordToVec ⟨content, addrs⟩ = .ok body := by
  simp only [unicastAdvertise, bind_eq_ok, withContext_eq_ok, bailIf_eq_ok] at h
  obtain ⟨content, hcontent, body', hbody, u, hlen, hpair⟩ := h
  obtain ⟨rfl, rfl⟩ := Prod.mk.inj (Except.ok.inj hpair)
  exact ⟨rfl, Nat.le_of_not_lt hlen, content, hcontent, hbody⟩

/-- What a probe yields of a record that was fetched whole: the node id under the first candidate
that opens it, at the addresses in the record.

**Proof sketch.** Each step of the probe either gives up or goes on, and the last one tries the
candidates in order. -/
lemma fetchAndDecrypt_eq_some {served : Except Error Bytes} {found : LanFound EndpointId}
    (h : fetchAndDecrypt S served candidates = some found) :
    ∃ buf record, fetch served = .ok buf ∧ S.recordFromSlice buf = .ok record ∧
      found.addrs = record.addrs ∧
      ∃ k ∈ candidates, decryptPinPayload S k record.e = some found.payload := by
  unfold fetchAndDecrypt at h
  split at h
  · cases h
  · rename_i buf hbuf
    split at h
    · cases h
    · split at h
      · cases h
      · rename_i record hrecord
        obtain ⟨k, hk, hopen⟩ := List.exists_of_findSome?_eq_some h
        obtain ⟨nodeId, hnode, rfl⟩ := Option.map_eq_some_iff.1 hopen
        exact ⟨buf, record, hbuf, hrecord, rfl, k, hk, hnode⟩

/-- **Too many bytes yield nothing**, whatever they begin with. -/
theorem fetchAndDecrypt_oversize {bytes : Bytes} (h : MAX_RECORD_BYTES < bytes.length) :
    fetchAndDecrypt S (.ok bytes) candidates = none := by
  have hbuf : fetch (.ok bytes) = .ok (bytes.take (MAX_RECORD_BYTES + 1)) := rfl
  have hlen : MAX_RECORD_BYTES < (bytes.take (MAX_RECORD_BYTES + 1)).length := by
    rw [List.length_take]
    omega
  simp only [fetchAndDecrypt, hbuf, if_pos hlen]

/-- **A probe that is served the bytes of a host yields its record**: they are fetched whole, and a
candidate opens them.

**Proof sketch.** The record is within the limit, so it is fetched whole. A candidate other than the
host's keypair does not open it, unless it seals the same. -/
theorem fetchAndDecrypt_advertised (hS : S.Ideal keys) (hin : ∀ k ∈ candidates, k ∈ keys)
    {nonce : Bytes} {k : Keys} {nodeId : EndpointId} {addrs : List SocketAddr} {port : UInt16}
    {body : Bytes} (h : unicastAdvertise S nonce k nodeId addrs = .ok (port, body))
    (hk : k ∈ candidates) :
    fetchAndDecrypt S (.ok body) candidates = some ⟨nodeId, addrs⟩ := by
  obtain ⟨-, hlen, content, hcontent, hbody⟩ := unicastAdvertise_eq_ok h
  have hbuf : fetch (.ok body) = .ok body := by
    show Except.ok (body.take (MAX_RECORD_BYTES + 1)) = .ok body
    rw [List.take_of_length_le (Nat.le_succ_of_le hlen)]
  -- the first candidate that opens the record is the keypair of the host
  have hfirst : (candidates.findSome? fun keys => (decryptPinPayload S keys content).map
      fun id => (⟨id, addrs⟩ : LanFound EndpointId)) = some ⟨nodeId, addrs⟩ := by
    have hopens := decryptPinPayload_encrypt hS hcontent
    induction candidates with
    | nil => exact absurd hk List.not_mem_nil
    | cons k' rest ih =>
      rw [List.findSome?_cons]
      by_cases hkk : k' = k
      · rw [hkk, hopens]
        rfl
      · have hother := decryptPinPayload_other hS hcontent (hin k' List.mem_cons_self) hkk
        rw [hother]
        refine ih (fun a ha => hin a (List.mem_cons_of_mem _ ha)) ?_
        exact (List.mem_cons.1 hk).resolve_left (Ne.symm hkk)
  simp only [fetchAndDecrypt, hbuf, if_neg (Nat.not_lt.2 hlen), hS.record _ _ hbody, hfirst]

end Duocb
