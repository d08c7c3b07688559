import Mathlib.Data.List.Basic
import Duocb.Basic

set_option relaxedAutoImplicit false
set_option autoImplicit false

/-!
# Addresses on the local network

A host advertises where it listens as a DNS-SD service: its IP addresses, one service port, and one
attribute with the IPv6 port where that differs. The looking device resolves the service and builds
socket addresses again. The record has room for one port of each family, so it carries exactly the
lists in which each family listens on one port; of any other list it loses addresses and makes up
new ones.

## Main definitions

* `Duocb.SocketAddr`, `Duocb.IpAddr` — addresses with and without a port.
* `Duocb.sortUnstable`, `Duocb.dedup` — what is done to the lists before they are published.
* `Duocb.splitPorts`, `Duocb.assembleAddrs` — the ports of a list, and the way back.
* `Duocb.ServiceInfo`, `Duocb.advertise`, `Duocb.resolve` — the published service.

## Main results

* `Duocb.mem_resolve` — the addresses that are resolved, in terms of the published list.
* `Duocb.advertise_round_trip` — they are the published ones exactly when each family has one port
  and no address carries a flow label or a scope.
* `Duocb.advertise_loses_port` — a list with two IPv4 ports, of which one address is lost.
-/

namespace Duocb

/-! ## Addresses -/

/-- An IP address, as its bits. -/
inductive IpAddr where
  | v4 (bits : BitVec 32)
  | v6 (bits : BitVec 128)
  deriving DecidableEq

/-- A socket address. Those of IPv6 carry flow information and the scope of the address. -/
inductive SocketAddr where
  | v4 (ip : BitVec 32) (port : UInt16)
  | v6 (ip : BitVec 128) (port : UInt16) (flowinfo scopeId : UInt32)
  deriving DecidableEq

namespace IpAddr

/-- The first of the eight segments of an IPv6 address. -/
def segment0 (bits : BitVec 128) : BitVec 16 := bits.extractLsb' 112 16

/-- IPv6 addresses that are only valid on one link: `fe80::/10`. -/
def isLinkLocal : IpAddr → Bool
  | v4 _ => false
  | v6 bits => segment0 bits &&& 0xffc0#16 = 0xfe80#16

/-- What addresses are ordered by: IPv4 before IPv6, then the bits. -/
def key : IpAddr → List ℕ
  | v4 bits => [4, bits.toNat]
  | v6 bits => [6, bits.toNat]

end IpAddr

namespace SocketAddr

/-- A socket address without flow information or scope. -/
def new : IpAddr → UInt16 → SocketAddr
  | .v4 ip, port => v4 ip port
  | .v6 ip, port => v6 ip port 0 0

/-- The address without its port. -/
def ip : SocketAddr → IpAddr
  | v4 ip _ => .v4 ip
  | v6 ip _ _ _ => .v6 ip

/-- The port. -/
def port : SocketAddr → UInt16
  | v4 _ port => port
  | v6 _ port _ _ => port

/-- Whether this is an IPv4 address. -/
def isIpv4 : SocketAddr → Bool
  | v4 _ _ => true
  | v6 _ _ _ _ => false

/-- Whether this is an IPv6 address. -/
def isIpv6 : SocketAddr → Bool
  | v4 _ _ => false
  | v6 _ _ _ _ => true

/-- What socket addresses are ordered by. -/
def key : SocketAddr → List ℕ
  | v4 ip port => [4, ip.toNat, port.toNat]
  | v6 ip port flowinfo scopeId => [6, ip.toNat, port.toNat, flowinfo.toNat, scopeId.toNat]

/-- The address of a socket address is the one it was made from. -/
@[simp] lemma ip_new (i : IpAddr) (p : UInt16) : (new i p).ip = i := by cases i <;> rfl

/-- So is its port. -/
@[simp] lemma port_new (i : IpAddr) (p : UInt16) : (new i p).port = p := by cases i <;> rfl

/-- An address is IPv4 or IPv6. -/
lemma isIpv6_eq (a : SocketAddr) : a.isIpv6 = !a.isIpv4 := by cases a <;> rfl

/-- Whether the address is no more than an IP and a port. -/
def isPlain : SocketAddr → Bool
  | v4 _ _ => true
  | v6 _ _ flowinfo scopeId => flowinfo = 0 && scopeId = 0

/-- Exactly the plain addresses are rebuilt from their IP and their port. -/
lemma new_ip_port_iff (a : SocketAddr) : new a.ip a.port = a ↔ a.isPlain := by
  cases a with
  | v4 ip port => simp [new, SocketAddr.ip, SocketAddr.port, isPlain]
  | v6 ip port f s =>
    simp only [new, SocketAddr.ip, SocketAddr.port, v6.injEq, true_and, isPlain,
      Bool.and_eq_true, decide_eq_true_eq]
    exact and_congr eq_comm eq_comm

end SocketAddr

/-! ## Publishing -/

/-- Sorting by a key. -/
def sortUnstable {α : Type} (key : α → List ℕ) (l : List α) : List α :=
  l.mergeSort fun a b => decide (key a ≤ key b)

/-- Removes repetitions that stand next to each other. -/
def dedup {α : Type} [DecidableEq α] : List α → List α
  | [] => []
  | [a] => [a]
  | a :: b :: l => if a = b then dedup (b :: l) else a :: dedup (b :: l)

/-- Sorting keeps the elements of a list. -/
@[simp] lemma mem_sortUnstable {α : Type} (key : α → List ℕ) (l : List α) (a : α) :
    a ∈ sortUnstable key l ↔ a ∈ l :=
  List.mem_mergeSort

/-- Nothing is removed altogether. -/
@[simp] lemma mem_dedup {α : Type} [DecidableEq α] (l : List α) (x : α) :
    x ∈ dedup l ↔ x ∈ l := by
  induction l using dedup.induct with
  | case1 => rfl
  | case2 a => rfl
  | case3 b l ih =>
    rw [dedup, if_pos rfl, ih]
    simp
  | case4 a b l hab ih =>
    rw [dedup, if_neg hab, List.mem_cons, ih, List.mem_cons (a := x) (b := a)]

/-- The service port and the IPv6 port where it differs. The service port is the first IPv4 one, or
the first IPv6 one where no IPv4 address exists. -/
def splitPorts (addrs : List SocketAddr) : Option (UInt16 × Option UInt16) := do
  let v4 := (addrs.find? fun a => a.isIpv4).map SocketAddr.port
  let v6 := (addrs.find? fun a => a.isIpv6).map SocketAddr.port
  let srv ← v4.or v6
  some (srv, v6.filter fun p => p != srv)

/-- The port to dial an address at. -/
def dialPort (srvPort : UInt16) (port6 : Option UInt16) : IpAddr → UInt16
  | .v4 _ => srvPort
  | .v6 _ => port6.getD srvPort

/-- Rebuilds socket addresses from resolved IPs and the advertised ports. Link-local addresses are
dropped: dialing them needs a scope, which the record does not carry. -/
def assembleAddrs (ips : List IpAddr) (srvPort : UInt16) (port6 : Option UInt16) :
    List SocketAddr :=
  ips.filterMap fun ip =>
    if ip.isLinkLocal then none else some (SocketAddr.new ip (dialPort srvPort port6 ip))

/-- What is published of the addresses: the service port, the decimal text of which stands in the
attribute `p6`, and the IPs. -/
structure ServiceInfo where
  srvPort : UInt16
  port6 : Option UInt16
  ips : List IpAddr

/-- Publishes a list of addresses. -/
def advertise (addrs : List SocketAddr) : Except Error ServiceInfo :=
  match splitPorts addrs with
  | none => .error (Error.msg "endpoint has no direct addresses to advertise")
  | some (srvPort, port6) =>
    .ok { srvPort, port6, ips := dedup (sortUnstable IpAddr.key (addrs.map SocketAddr.ip)) }

/-- The addresses the looking device builds of a resolved service: the IPs come as a set, in any
order. -/
def resolve (info : ServiceInfo) (ips : List IpAddr) : List SocketAddr :=
  assembleAddrs ips info.srvPort info.port6

/-! ## What is resolved -/

/-- The ports of a list: each family's is that of its first address.

**Proof sketch.** The service port is the IPv4 one where there is one. The IPv6 port stands in the
attribute, or equals the service port. -/
lemma splitPorts_spec {addrs : List SocketAddr} {srv : UInt16} {port6 : Option UInt16}
    (h : splitPorts addrs = some (srv, port6)) :
    (∀ a, addrs.find? (fun a => a.isIpv4) = some a → srv = a.port) ∧
    (∀ a, addrs.find? (fun a => a.isIpv6) = some a → port6.getD srv = a.port) := by
  simp only [splitPorts, Option.bind_eq_bind, Option.bind_eq_some_iff, Option.some.injEq,
    Prod.mk.injEq] at h
  obtain ⟨p, hp, rfl, rfl⟩ := h
  constructor
  · intro a ha
    simpa [ha, eq_comm] using hp
  · intro a ha
    by_cases hap : a.port = p
    · simp [ha, Option.filter, hap]
    · simp [ha, Option.filter, hap]

/-- A list with an address has ports. -/
lemma splitPorts_isSome {addrs : List SocketAddr} (hne : addrs ≠ []) :
    (splitPorts addrs).isSome := by
  obtain ⟨a, l, rfl⟩ := List.exists_cons_of_ne_nil hne
  cases a with
  | v4 ip port => simp [splitPorts, SocketAddr.isIpv4, SocketAddr.isIpv6]
  | v6 ip port f s =>
    cases h : List.find? (fun a => a.isIpv4) l <;>
      simp [splitPorts, SocketAddr.isIpv4, SocketAddr.isIpv6]

/-- A list with ports is advertised under them. -/
lemma advertise_of_splitPorts {addrs : List SocketAddr} {srv : UInt16} {port6 : Option UInt16}
    (h : splitPorts addrs = some (srv, port6)) :
    ∃ info, advertise addrs = .ok info ∧ info.srvPort = srv ∧ info.port6 = port6 := by
  rw [advertise, h]
  exact ⟨_, rfl, rfl, rfl⟩

/-- Each family of a list is dialed at the port of one of its addresses.

**Proof sketch.** By the family of the address. The port of its family is that of the first address
of this family, which the list has. -/
lemma exists_dialPort {addrs : List SocketAddr} {srv : UInt16} {port6 : Option UInt16}
    (h : splitPorts addrs = some (srv, port6)) {a : SocketAddr} (ha : a ∈ addrs) :
    ∃ b ∈ addrs, b.isIpv4 = a.isIpv4 ∧ dialPort srv port6 a.ip = b.port := by
  obtain ⟨h4, h6⟩ := splitPorts_spec h
  cases a with
  | v4 ip port =>
    obtain ⟨b, hb⟩ : ∃ b, addrs.find? (fun a => a.isIpv4) = some b :=
      Option.isSome_iff_exists.1 (List.find?_isSome.2 ⟨_, ha, rfl⟩)
    exact ⟨b, List.mem_of_find?_eq_some hb, List.find?_some hb, h4 b hb⟩
  | v6 ip port f s =>
    obtain ⟨b, hb⟩ : ∃ b, addrs.find? (fun a => a.isIpv6) = some b :=
      Option.isSome_iff_exists.1 (List.find?_isSome.2 ⟨_, ha, rfl⟩)
    have hb6 := List.find?_some hb
    rw [SocketAddr.isIpv6_eq, Bool.not_eq_true'] at hb6
    exact ⟨b, List.mem_of_find?_eq_some hb, hb6, h6 b hb⟩

/-- The port an address is dialed at depends on its family alone. -/
lemma dialPort_congr {a b : SocketAddr} (h : a.isIpv4 = b.isIpv4) (srv : UInt16)
    (port6 : Option UInt16) : dialPort srv port6 a.ip = dialPort srv port6 b.ip := by
  cases a <;> cases b <;> first | rfl | cases h

/-- What the looking device resolves: each published address at the port its family is dialed
at.

**Proof sketch.** The addresses of the service are those of the published ones, and each is put
together with the port of its family. -/
theorem mem_resolve {addrs : List SocketAddr} {info : ServiceInfo} {ips : List IpAddr}
    (hlink : ∀ a ∈ addrs, a.ip.isLinkLocal = false) (h : advertise addrs = .ok info)
    (hips : ∀ i, i ∈ ips ↔ i ∈ info.ips) (x : SocketAddr) :
    x ∈ resolve info ips ↔
      ∃ a ∈ addrs, SocketAddr.new a.ip (dialPort info.srvPort info.port6 a.ip) = x := by
  have hmem : ∀ i, i ∈ info.ips ↔ ∃ a ∈ addrs, a.ip = i := by
    intro i
    unfold advertise at h
    split at h
    · cases h
    · cases h
      rw [mem_dedup, mem_sortUnstable, List.mem_map]
  simp only [resolve, assembleAddrs, List.mem_filterMap, hips, hmem]
  constructor
  · rintro ⟨_, ⟨a, ha, rfl⟩, hx⟩
    rw [hlink a ha] at hx
    exact ⟨a, ha, Option.some.inj hx⟩
  · rintro ⟨a, ha, rfl⟩
    exact ⟨a.ip, ⟨a, ha, rfl⟩, by rw [hlink a ha]; rfl⟩

/-- The lists the record has room for: each family listens on one port, and no address carries
flow information or a scope. -/
structure Portable (addrs : List SocketAddr) : Prop where
  port : ∀ a ∈ addrs, ∀ b ∈ addrs, a.isIpv4 = b.isIpv4 → a.port = b.port
  plain : ∀ a ∈ addrs, a.isPlain

/-- **The way of a list of addresses through the record.** A host publishes a non-empty list of
addresses, none of which is link-local. From the published service, its IPs in any order, exactly
the addresses of the list are resolved if and only if each family listens on one port and all
addresses are plain.

**Proof sketch.** What is resolved is each published IP at the port of its family, which is that of
some address of the family. If that gives the list back, two addresses of one family have that one
port, and every address is built of an IP and a port. Conversely each address is dialed at its own
port, so it is resolved to itself. -/
theorem advertise_round_trip (addrs : List SocketAddr) (hne : addrs ≠ [])
    (hlink : ∀ a ∈ addrs, a.ip.isLinkLocal = false) :
    ∃ info, advertise (sortUnstable SocketAddr.key addrs) = .ok info ∧
      ∀ ips, (∀ i, i ∈ ips ↔ i ∈ info.ips) →
        ((∀ x, x ∈ resolve info ips ↔ x ∈ addrs) ↔ Portable addrs) := by
  have hmem := mem_sortUnstable SocketAddr.key addrs
  have hsome : (splitPorts (sortUnstable SocketAddr.key addrs)).isSome := by
    refine splitPorts_isSome fun hnil => hne (List.eq_nil_iff_forall_not_mem.2 fun a ha => ?_)
    rw [← hmem, hnil] at ha
    exact List.not_mem_nil ha
  obtain ⟨⟨srv, port6⟩, hsplit⟩ := Option.isSome_iff_exists.1 hsome
  obtain ⟨info, hadv, hsrv, hp6⟩ := advertise_of_splitPorts hsplit
  refine ⟨info, hadv, fun ips hips => ?_⟩
  have hres := mem_resolve (fun a ha => hlink a ((hmem a).1 ha)) hadv hips
  have hdial : ∀ a ∈ addrs, ∃ b ∈ addrs, b.isIpv4 = a.isIpv4 ∧
      dialPort srv port6 a.ip = b.port := by
    intro a ha
    obtain ⟨b, hb, hba⟩ := exists_dialPort hsplit ((hmem a).2 ha)
    exact ⟨b, (hmem b).1 hb, hba⟩
  simp only [hmem, hsrv, hp6] at hres
  constructor
  · intro h
    have hback : ∀ a ∈ addrs, ∃ b ∈ addrs, SocketAddr.new b.ip (dialPort srv port6 b.ip) = a :=
      fun a ha => (hres a).1 ((h a).2 ha)
    have hport : ∀ a ∈ addrs, a.port = dialPort srv port6 a.ip := by
      intro a ha
      obtain ⟨b, hb, rfl⟩ := hback a ha
      rw [SocketAddr.port_new, SocketAddr.ip_new]
    constructor
    · intro a ha b hb hab
      rw [hport a ha, hport b hb, dialPort_congr hab]
    · intro a ha
      rw [← SocketAddr.new_ip_port_iff]
      obtain ⟨b, hb, rfl⟩ := hback a ha
      rw [SocketAddr.port_new, SocketAddr.ip_new]
  · intro hp x
    have hself : ∀ a ∈ addrs, SocketAddr.new a.ip (dialPort srv port6 a.ip) = a := by
      intro a ha
      obtain ⟨b, hb, hba, hdp⟩ := hdial a ha
      rw [hdp, hp.port b hb a ha hba, SocketAddr.new_ip_port_iff]
      exact hp.plain a ha
    rw [hres]
    constructor
    · rintro ⟨a, ha, rfl⟩
      rwa [hself a ha]
    · intro hx
      exact ⟨x, hx, hself x hx⟩

/-- A list that goes through: two IPv4 addresses on one port and an IPv6 address on another. -/
def sampleAddrs : List SocketAddr :=
  [.v4 0xc0a80109#32 4433, .v4 0x0a000007#32 4433, .v6 (0x20010db8#32 ++ 7#96) 4444 0 0]

/-- The round trip of a list. -/
theorem advertise_round_trip_sample :
    ∃ info, advertise (sortUnstable SocketAddr.key sampleAddrs) = .ok info ∧
      ∀ ips, (∀ i, i ∈ ips ↔ i ∈ info.ips) →
        ((∀ x, x ∈ resolve info ips ↔ x ∈ sampleAddrs) ↔ Portable sampleAddrs) :=
  advertise_round_trip sampleAddrs (by decide) (by decide)

/-- A host with an address of a private network and one of an overlay network, mapped to another
port. The list is sorted. -/
def mappedAddrs : List SocketAddr := [.v4 0x64400002#32 61234, .v4 0xc0a80109#32 4433]

/-- The device on the private network resolves the private address with the port of the other one,
and not the address where the host listens.

**Proof sketch.** The two addresses of the host have different ports, and the record carries one
port for the family: the address behind the other one is lost. -/
theorem advertise_loses_port :
    ¬ ∀ addrs : List SocketAddr, addrs ≠ [] → (∀ a ∈ addrs, a.ip.isLinkLocal = false) →
      ∀ info, advertise (sortUnstable SocketAddr.key addrs) = .ok info →
        ∀ x, x ∈ resolve info info.ips ↔ x ∈ addrs := by
  intro hall
  have hsorted : sortUnstable SocketAddr.key mappedAddrs = mappedAddrs :=
    List.mergeSort_of_pairwise (by decide)
  have hlink : ∀ a ∈ mappedAddrs, a.ip.isLinkLocal = false := by decide
  have hsplit : splitPorts mappedAddrs = some (61234, none) := by decide
  obtain ⟨info, hadv, hsrv, hp6⟩ := advertise_of_splitPorts hsplit
  have hlost := (mem_resolve hlink hadv (fun _ => Iff.rfl) (.v4 0xc0a80109#32 4433)).1
    ((hall mappedAddrs (by decide) hlink info (by rw [hsorted, hadv]) _).2 (by decide))
  rw [hsrv, hp6] at hlost
  exact absurd hlost (by decide)

end Duocb
