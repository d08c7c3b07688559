import Duocb.Lan.Ipv4

set_option relaxedAutoImplicit false
set_option autoImplicit false

/-!
# Typing the address of a host

Where multicast is blocked, the user types the host's IPv4 address. The entry shows the octets that
the own subnet fixes, and takes either what follows them or a whole address. What it accepts has to
be an address of one of the own subnets, or of this device itself.

Networks are a library's, and stand as a parameter.

## Main definitions

* `Duocb.Ipnet`, `Duocb.Ipnet.Lawful` — networks, and what the library promises of them.
* `Duocb.lockedPrefix`, `Duocb.JoinIpConstraint.resolve` — the octets that are shown, and the entry.

## Main results

* `Duocb.Ipnet.Lawful.octets_eq` — the locked octets are those of every address in the subnet.
* `Duocb.JoinIpConstraint.resolve_entry` — the entry is sound and complete.
-/

namespace Duocb

/-! ## Networks -/

/-- What the entry needs of a library of networks: the length of the prefix, the network address,
and which addresses are in it. -/
structure Ipnet (ν : Type) where
  prefixLen : ν → ℕ
  network : ν → Ipv4Addr
  contains : ν → Ipv4Addr → Bool

/-- What the library promises: a prefix is no longer than an address, and the addresses in a network
are those that agree with the network address in as many bits. -/
structure Ipnet.Lawful {ν : Type} (I : Ipnet ν) : Prop where
  prefixLen_le : ∀ n, I.prefixLen n ≤ 32
  contains_iff : ∀ n ip, I.contains n ip = true ↔
    ip.bits / 2 ^ (32 - I.prefixLen n) = (I.network n).bits / 2 ^ (32 - I.prefixLen n)

section Entry

variable {ν : Type} (I : Ipnet ν)

/-- The leading whole octets that a subnet fixes, each with its dot. -/
def lockedPrefix (subnet : ν) : String :=
  String.join (((I.network subnet).octets.take (I.prefixLen subnet / 8)).map fun octet =>
    toString octet.toNat ++ ".")

/-- The local subnets, the primary one first. -/
structure JoinIpConstraint (ν : Type) where
  subnets : List ν

namespace JoinIpConstraint

/-- Whether a subnet was detected. -/
def isActive (c : JoinIpConstraint ν) : Bool := !c.subnets.isEmpty

/-- The network octets that the user types after. -/
def lockedPrefix (c : JoinIpConstraint ν) : String :=
  (c.subnets.head?.map (Duocb.lockedPrefix I)).getD ""

/-- Validate what was typed: an address as a whole, or what follows the locked octets. An address
that is complete is taken as it is, and anything else goes behind the locked octets. The loopback is
always in range, and so is everything if no network is known. -/
def resolve (c : JoinIpConstraint ν) (entry : String) : JoinIpOutcome :=
  let entry := trim entry
  if entry = "" then .empty
  else
    let full := if (Ipv4Addr.parse entry).isSome then entry else c.lockedPrefix I ++ entry
    match Ipv4Addr.parse full with
    | none => .malformed
    | some ip =>
      if ip.isLoopback || !c.isActive || c.subnets.any (fun s => I.contains s ip) then .inRange ip
      else .outOfRange

end JoinIpConstraint

variable {I}

/-- The first bits of an address are its first octets.

**Proof sketch.** An octet is a digit to the base 256, so equal quotients by a power of 256 have
equal leading digits. -/
lemma bits_div {ip ip' : Ipv4Addr} {w : ℕ} (hw : w ≤ 4)
    (h : ip.bits / 2 ^ (32 - 8 * w) = ip'.bits / 2 ^ (32 - 8 * w)) :
    ip.octets.take w = ip'.octets.take w := by
  obtain ⟨octets, hlen⟩ := ip
  obtain ⟨octets', hlen'⟩ := ip'
  match octets, hlen, octets', hlen' with
  | [a, b, c, d], _, [a', b', c', d'], _ =>
    have ha := a.toNat_lt
    have hb := b.toNat_lt
    have hc := c.toNat_lt
    have hd := d.toNat_lt
    have ha' := a'.toNat_lt
    have hb' := b'.toNat_lt
    have hc' := c'.toNat_lt
    have hd' := d'.toNat_lt
    simp only [Ipv4Addr.bits, List.foldl_cons, List.foldl_nil] at h
    rcases (show w = 0 ∨ w = 1 ∨ w = 2 ∨ w = 3 ∨ w = 4 by omega) with rfl | rfl | rfl | rfl | rfl
    · rfl
    · have hpow : 2 ^ (32 - 8 * 1) = 16777216 := by decide
      rw [hpow] at h
      obtain rfl : a = a' := UInt8.toNat_inj.1 (by omega)
      rfl
    · have hpow : 2 ^ (32 - 8 * 2) = 65536 := by decide
      rw [hpow] at h
      obtain rfl : a = a' := UInt8.toNat_inj.1 (by omega)
      obtain rfl : b = b' := UInt8.toNat_inj.1 (by omega)
      rfl
    · have hpow : 2 ^ (32 - 8 * 3) = 256 := by decide
      rw [hpow] at h
      obtain rfl : a = a' := UInt8.toNat_inj.1 (by omega)
      obtain rfl : b = b' := UInt8.toNat_inj.1 (by omega)
      obtain rfl : c = c' := UInt8.toNat_inj.1 (by omega)
      rfl
    · have hpow : 2 ^ (32 - 8 * 4) = 1 := by decide
      rw [hpow] at h
      obtain rfl : a = a' := UInt8.toNat_inj.1 (by omega)
      obtain rfl : b = b' := UInt8.toNat_inj.1 (by omega)
      obtain rfl : c = c' := UInt8.toNat_inj.1 (by omega)
      obtain rfl : d = d' := UInt8.toNat_inj.1 (by omega)
      rfl

/-- **The locked octets are those of every address in the subnet.**

**Proof sketch.** Two addresses in a subnet have the same leading bits, in particular the whole
octets among them. -/
lemma Ipnet.Lawful.octets_eq (hI : I.Lawful) {subnet : ν} {ip : Ipv4Addr}
    (h : I.contains subnet ip = true) : (I.network subnet).octets.take (I.prefixLen subnet / 8) =
      ip.octets.take (I.prefixLen subnet / 8) := by
  have hle := hI.prefixLen_le subnet
  have hbits := (hI.contains_iff subnet ip).1 h
  refine bits_div (by omega) ?_
  -- the whole octets are the prefix without its last bits
  have hpow : 2 ^ (32 - 8 * (I.prefixLen subnet / 8)) =
      2 ^ (32 - I.prefixLen subnet) * 2 ^ (I.prefixLen subnet % 8) := by
    rw [← Nat.pow_add]
    congr 1
    omega
  rw [hpow, ← Nat.div_div_eq_div_mul, ← Nat.div_div_eq_div_mul, hbits]

/-- The characters of the locked octets. -/
lemma toList_lockedPrefix (subnet : ν) : (lockedPrefix I subnet).toList =
    ((I.network subnet).octets.take (I.prefixLen subnet / 8)).flatMap fun octet =>
      Ipv4Addr.digits octet ++ ['.'] := by
  rw [lockedPrefix, String.toList_join, List.flatMap_map]
  refine List.flatMap_congr fun octet _ => ?_
  rw [String.toList_append]
  rfl

/-- Locked octets are parts of their own. -/
lemma splitOn_locked (os : List UInt8) (rest : List Char) :
    ((os.flatMap fun octet => Ipv4Addr.digits octet ++ ['.']) ++ rest).splitOn '.' =
      os.map Ipv4Addr.digits ++ rest.splitOn '.' := by
  induction os with
  | nil => rfl
  | cons o os ih =>
    have hdot : '.' ∉ Ipv4Addr.digits o := fun h => ((Ipv4Addr.digits_spec o).2 _ h).1 rfl
    rw [List.flatMap_cons, List.append_assoc, List.append_assoc, List.singleton_append,
      List.splitOn_append_cons_self_of_not_mem hdot, ih]
    rfl

/-- The text of an address has no white space in it.

**Proof sketch.** By induction on the octets: digits and dots are no white space. -/
lemma Ipv4Addr.visible (ip : Ipv4Addr) : ∀ c ∈ ip.display.toList, isWhitespace c = false := by
  have hall : ∀ os : List UInt8, ∀ c ∈ ['.'].intercalate (os.map Ipv4Addr.digits),
      isWhitespace c = false := by
    intro os
    induction os with
    | nil => simp
    | cons o os ih =>
      intro c hc
      cases os with
      | nil => exact ((digits_spec o).2 c (by simpa using hc)).2
      | cons o' os =>
        simp only [List.map_cons, List.intercalate_cons_cons, List.append_assoc, List.mem_append,
          List.mem_singleton] at hc
        rcases hc with hc | rfl | hc
        · exact ((digits_spec o).2 c hc).2
        · decide
        · exact ih c hc
  rw [display, String.toList_ofList]
  exact hall ip.octets

/-- A dotted text begins with its first octets.

**Proof sketch.** By induction on the number of octets, each with the dot behind it. -/
lemma intercalate_eq_locked {os : List UInt8} {w : ℕ} (h : w < os.length) :
    ['.'].intercalate (os.map Ipv4Addr.digits) =
      ((os.take w).flatMap fun octet => Ipv4Addr.digits octet ++ ['.']) ++
        ['.'].intercalate ((os.drop w).map Ipv4Addr.digits) := by
  induction w generalizing os with
  | zero => rfl
  | succ w ih =>
    match os, h with
    | o :: o' :: os, h =>
      have hlt : w < (o' :: os).length := by simpa using h
      have hrest := ih hlt
      rw [List.map_cons, List.map_cons, List.intercalate_cons_cons, ← List.map_cons, hrest,
        List.take_succ_cons, List.flatMap_cons, List.drop_succ_cons]
      simp only [List.append_assoc]

/-- **Every address of a subnet begins with its locked octets.** -/
lemma exists_tail (hI : I.Lawful) {subnet : ν} {ip : Ipv4Addr} (hlen : I.prefixLen subnet < 32)
    (h : I.contains subnet ip = true) : ∃ tail, ip.display = lockedPrefix I subnet ++ tail := by
  have hw : I.prefixLen subnet / 8 < ip.octets.length := by
    rw [ip.length_eq]
    omega
  refine ⟨String.ofList (['.'].intercalate
    ((ip.octets.drop (I.prefixLen subnet / 8)).map Ipv4Addr.digits)), ?_⟩
  apply String.toList_injective
  rw [Ipv4Addr.display, String.toList_ofList, String.toList_append, String.toList_ofList,
    toList_lockedPrefix, hI.octets_eq h]
  exact intercalate_eq_locked hw

/-- What follows the locked octets of a text is the rest of its parts. -/
lemma splitOn_tail (hI : I.Lawful) {subnet : ν} {ip : Ipv4Addr} (h : I.contains subnet ip = true)
    {tail : String} (htail : ip.display = lockedPrefix I subnet ++ tail) :
    tail.toList.splitOn '.' = (ip.octets.drop (I.prefixLen subnet / 8)).map Ipv4Addr.digits := by
  have hne : ip.octets ≠ [] := fun h => by
    have hlen := ip.length_eq
    rw [h] at hlen
    cases hlen
  have hparts := congrArg (fun s => s.toList.splitOn '.') htail
  simp only [String.toList_append, toList_lockedPrefix, splitOn_locked, hI.octets_eq h] at hparts
  rw [Ipv4Addr.display, String.toList_ofList, Ipv4Addr.splitOn_digits hne] at hparts
  conv_lhs at hparts => rw [← List.take_append_drop (I.prefixLen subnet / 8) ip.octets,
    List.map_append]
  exact (List.append_cancel_left hparts).symm

namespace JoinIpConstraint

variable {c : JoinIpConstraint ν}

/-- An entry that is read as an address of a subnet is accepted. -/
lemma resolve_of_full {entry : String} {subnet : ν} {ip : Ipv4Addr} (hmem : subnet ∈ c.subnets)
    (hcontains : I.contains subnet ip = true) (htrim : trim entry = entry) (hne : entry ≠ "")
    (hfull : (if (Ipv4Addr.parse entry).isSome then entry else c.lockedPrefix I ++ entry) =
      ip.display) : c.resolve I entry = .inRange ip := by
  have hany : c.subnets.any (fun s => I.contains s ip) = true :=
    List.any_eq_true.2 ⟨subnet, hmem, hcontains⟩
  simp only [resolve, htrim, if_neg hne, hfull, Ipv4Addr.parse_display, hany, Bool.or_true, if_true]

/-- **The whole address is accepted.** -/
lemma resolve_whole {subnet : ν} {ip : Ipv4Addr} (hmem : subnet ∈ c.subnets)
    (hcontains : I.contains subnet ip = true) : c.resolve I ip.display = .inRange ip := by
  refine resolve_of_full hmem hcontains (trim_eq_self ip.visible) (fun h => ?_) ?_
  · have hparse := ip.parse_display
    rw [h] at hparse
    cases hparse
  · rw [Ipv4Addr.parse_display]
    rfl

/-- The octets that are locked are those of the primary subnet. -/
lemma lockedPrefix_of_primary {primary : ν} (h : c.subnets.head? = some primary) :
    c.lockedPrefix I = Duocb.lockedPrefix I primary := by
  rw [lockedPrefix, h]
  rfl

/-- **What follows the locked octets is accepted.**

**Proof sketch.** The locked octets and the entry make up the text of the address, which is parsed
to it and found in the primary subnet. -/
lemma resolve_tail (hI : I.Lawful) {primary : ν} {ip : Ipv4Addr}
    (hprimary : c.subnets.head? = some primary) (hlen : I.prefixLen primary < 32)
    (hcontains : I.contains primary ip = true) {tail : String}
    (htail : ip.display = c.lockedPrefix I ++ tail) : c.resolve I tail = .inRange ip := by
  have hlocked := lockedPrefix_of_primary (I := I) hprimary
  have hparts := splitOn_tail hI hcontains (hlocked ▸ htail)
  have hcount : (tail.toList.splitOn '.').length = 4 - I.prefixLen primary / 8 := by
    rw [hparts, List.length_map, List.length_drop, ip.length_eq]
  refine resolve_of_full (List.mem_of_head? hprimary) hcontains (trim_eq_self fun c hc => ?_)
    (fun hempty => ?_) ?_
  · apply ip.visible
    rw [htail, String.toList_append]
    exact List.mem_append_right _ hc
  · -- the last octet has digits
    rw [hempty] at hparts
    have hmem :
        ([] : List Char) ∈ (ip.octets.drop (I.prefixLen primary / 8)).map Ipv4Addr.digits := by
      rw [← hparts]
      exact List.mem_cons_self
    obtain ⟨o, -, ho⟩ := List.mem_map.1 hmem
    have hspec := (Ipv4Addr.digits_spec o).1
    rw [ho] at hspec
    cases hspec
  · split
    · -- a tail that is an address follows no locked octets
      rename_i hsome
      obtain ⟨ip', hip'⟩ := Option.isSome_iff_exists.1 hsome
      have hzero : I.prefixLen primary / 8 = 0 := by
        have hfour := Ipv4Addr.length_of_parse hip'
        omega
      have hnone : Duocb.lockedPrefix I primary = "" := by
        rw [Duocb.lockedPrefix, hzero]
        rfl
      rw [htail, hlocked, hnone, String.empty_append]
    · exact htail.symm

/-- What an accepted entry was read as is loopback or in a subnet.

**Proof sketch.** By the branches of the function: only one of them is in range, and its test is the
claim. -/
lemma inRange_of_resolve {entry : String} {ip : Ipv4Addr} (hactive : c.isActive = true)
    (h : c.resolve I entry = .inRange ip) :
    ip.isLoopback = true ∨ ∃ subnet ∈ c.subnets, I.contains subnet ip = true := by
  simp only [resolve] at h
  split at h
  · cases h
  · split at h
    · cases h
    · split at h
      · rename_i hallowed
        obtain rfl := JoinIpOutcome.inRange.inj h
        rw [hactive, Bool.not_true, Bool.or_false, Bool.or_eq_true, List.any_eq_true] at hallowed
        exact hallowed
      · cases h

/-- A text that is an address, and also one behind the locked octets, is the same one.

**Proof sketch.** If octets are locked, the text behind them has fewer than four of its own, so that
it is no address. If none are, the two texts are the same. -/
lemma readings_agree {text : String} {ip ip' : Ipv4Addr} (hwhole : Ipv4Addr.parse text = some ip)
    (htail : Ipv4Addr.parse (c.lockedPrefix I ++ text) = some ip') : ip = ip' := by
  have hnone : c.lockedPrefix I = "" := by
    rw [lockedPrefix] at htail ⊢
    cases hprimary : c.subnets.head? with
    | none => rfl
    | some primary =>
      rw [hprimary] at htail
      have hfour := Ipv4Addr.length_of_parse hwhole
      have hmore := Ipv4Addr.length_of_parse htail
      simp only [Option.map_some, Option.getD_some, String.toList_append, toList_lockedPrefix,
        splitOn_locked, List.length_append, List.length_map, hfour] at hmore
      have htake : (I.network primary).octets.take (I.prefixLen primary / 8) = [] :=
        List.length_eq_zero_iff.1 (by omega)
      simp only [Option.map_some, Option.getD_some, Duocb.lockedPrefix, htake]
      rfl
  rw [hnone, String.empty_append] at htail
  exact Option.some.inj (hwhole.symm.trans htail)

/-- **The entry is sound and complete.** For all subnets, every address of the primary one begins
with the locked octets, and is accepted as a whole and by what follows them, if the subnet has more
than one address. What an active constraint accepts is loopback or in a subnet. And no text is one
address as a whole and another one behind the locked octets.

**Proof sketch.** The text of an address in the primary subnet begins with the locked octets, by
which both its forms are read to it. What is accepted has passed the test for a subnet or the
loopback. If both readings of a text are addresses, there are no locked octets. -/
theorem resolve_entry (hI : I.Lawful) (c : JoinIpConstraint ν) :
    (∀ primary ip, c.subnets.head? = some primary → I.prefixLen primary < 32 →
      I.contains primary ip = true →
      (∃ tail, ip.display = c.lockedPrefix I ++ tail) ∧
      (∀ tail, ip.display = c.lockedPrefix I ++ tail → c.resolve I tail = .inRange ip) ∧
      c.resolve I ip.display = .inRange ip) ∧
    (∀ entry ip, c.isActive = true → c.resolve I entry = .inRange ip →
      ip.isLoopback = true ∨ ∃ subnet ∈ c.subnets, I.contains subnet ip = true) ∧
    ∀ text ip ip', Ipv4Addr.parse text = some ip →
      Ipv4Addr.parse (c.lockedPrefix I ++ text) = some ip' → ip = ip' := by
  refine ⟨fun primary ip hprimary hlen hcontains => ⟨?_, fun tail => ?_, ?_⟩, fun entry ip => ?_,
    fun text ip ip' => readings_agree⟩
  · rw [lockedPrefix_of_primary hprimary]
    exact exists_tail hI hlen hcontains
  · exact resolve_tail hI hprimary hlen hcontains
  · exact resolve_whole (List.mem_of_head? hprimary) hcontains
  · exact inRange_of_resolve

end JoinIpConstraint

end Entry

section Sample

/-- Networks, as an address and the length of a prefix. -/
def sampleIpnet : Ipnet (Ipv4Addr × Fin 33) where
  prefixLen n := n.2
  network n := n.1
  contains n ip := ip.bits / 2 ^ (32 - n.2.val) = n.1.bits / 2 ^ (32 - n.2.val)

/-- The sample subnets have the laws of the library. -/
lemma sampleIpnet_lawful : sampleIpnet.Lawful where
  prefixLen_le n := Nat.le_of_lt_succ n.2.isLt
  contains_iff _ _ := decide_eq_true_iff

/-- In the subnet 10.22.32.0/20 the address 10.22.35.7 is typed as 35.7. -/
theorem resolve_entry_sample :
    JoinIpConstraint.resolve sampleIpnet ⟨[(⟨[10, 22, 32, 0], rfl⟩, 20)]⟩ "35.7" =
      .inRange ⟨[10, 22, 35, 7], rfl⟩ :=
  ((JoinIpConstraint.resolve_entry sampleIpnet_lawful ⟨[(⟨[10, 22, 32, 0], rfl⟩, 20)]⟩).1 _
    ⟨[10, 22, 35, 7], rfl⟩ rfl (by decide) (by decide +kernel)).2.1 "35.7" (by decide +kernel)

end Sample

end Duocb
