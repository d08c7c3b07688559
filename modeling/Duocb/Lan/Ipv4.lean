import Duocb.Card
import Duocb.Lan

set_option relaxedAutoImplicit false
set_option autoImplicit false

/-!
# Texts of IPv4 addresses

The user types the address of a host where the two devices cannot find each other, on the desktop
into an entry and on a phone into the configuration of a session. Either way it is read as four
octets between dots.

## Main definitions

* `Duocb.isIpv4` — whether a text is an address.
* `Duocb.Ipv4Addr`, `Duocb.Ipv4Addr.display`, `Duocb.Ipv4Addr.parse` — addresses, and their texts.
* `Duocb.JoinIpOutcome` — what the entry of an address comes to.

## Main results

* `Duocb.Ipv4Addr.parse_display` — an address is read back from its text.
* `Duocb.Ipv4Addr.isSome_parse` — reading an address succeeds exactly on the texts of one.
-/

namespace Duocb

/-- Whether a text is one part of a dotted address. -/
def isOctet (part : List Char) : Bool :=
  part.all (fun c => '0' ≤ c ∧ c ≤ '9') ∧ 1 ≤ part.length ∧ part.length ≤ 3 ∧
    (part.head? = some '0' → part.length = 1) ∧
    part.foldl (fun n c => 10 * n + (c.toNat - '0'.toNat)) 0 ≤ 255

/-- Whether a text is an IPv4 address. -/
def isIpv4 (s : String) : Bool :=
  let parts := s.toList.splitOn '.'
  parts.length = 4 ∧ parts.all isOctet

/-- An IPv4 address, as its octets. -/
structure Ipv4Addr where
  octets : List UInt8
  length_eq : octets.length = 4
  deriving DecidableEq

namespace Ipv4Addr

/-- The address as a number of 32 bits. -/
def bits (ip : Ipv4Addr) : ℕ := ip.octets.foldl (fun n o => 256 * n + o.toNat) 0

/-- The address among those of both families. -/
def toIpAddr (ip : Ipv4Addr) : IpAddr := .v4 (.ofNat 32 ip.bits)

/-- Addresses of this device: 127/8. -/
def isLoopback (ip : Ipv4Addr) : Bool := ip.octets.head? = some 127

/-- The digits of an octet. -/
def digits (o : UInt8) : List Char := (toString o.toNat).toList

/-- The dotted text of an address. -/
def display (ip : Ipv4Addr) : String := String.ofList (['.'].intercalate (ip.octets.map digits))

/-- Read one part of a dotted address. -/
def parseOctet (part : List Char) : Option UInt8 :=
  if isOctet part then
    some (UInt8.ofNat (part.foldl (fun n c => 10 * n + (c.toNat - '0'.toNat)) 0))
  else none

/-- Read an address: four octets between dots. -/
def parse (s : String) : Option Ipv4Addr := do
  let octets ← (s.toList.splitOn '.').mapM parseOctet
  if h : octets.length = 4 then return ⟨octets, h⟩ else none

/-- An octet is read back from its digits, which hold no dot and no white space. -/
lemma digits_spec (o : UInt8) : parseOctet (digits o) = some o ∧
    ∀ c ∈ digits o, c ≠ '.' ∧ isWhitespace c = false := by
  have hall : ∀ n : Fin 256, parseOctet (digits (UInt8.ofNat n)) = some (UInt8.ofNat n) ∧
      (digits (UInt8.ofNat n)).all (fun c => decide (c ≠ '.' ∧ isWhitespace c = false)) = true := by
    decide +kernel
  obtain ⟨hparse, hchars⟩ := hall ⟨o.toNat, o.toNat_lt⟩
  rw [UInt8.ofNat_toNat] at hparse hchars
  exact ⟨hparse, fun c hc => of_decide_eq_true (List.all_eq_true.1 hchars c hc)⟩

/-- The parts of dotted digits are the digits. -/
lemma splitOn_digits {os : List UInt8} (h : os ≠ []) :
    (['.'].intercalate (os.map digits)).splitOn '.' = os.map digits := by
  refine List.splitOn_intercalate '.' (fun part hpart => ?_) (by simpa using h)
  obtain ⟨o, -, rfl⟩ := List.mem_map.1 hpart
  exact fun hmem => ((digits_spec o).2 _ hmem).1 rfl

/-- Octets are read back from their digits. -/
lemma mapM_digits (os : List UInt8) : (os.map digits).mapM parseOctet = some os := by
  induction os with
  | nil => rfl
  | cons o os ih =>
    rw [List.map_cons, List.mapM_cons, (digits_spec o).1, ih]
    rfl

/-- What is read from a text of so many parts. -/
lemma parse_eq_some {s : String} {ip : Ipv4Addr} :
    parse s = some ip ↔ (s.toList.splitOn '.').mapM parseOctet = some ip.octets := by
  unfold parse
  constructor
  · intro h
    obtain ⟨octets, hoctets, h⟩ := Option.bind_eq_some_iff.1 h
    split_ifs at h with hlen
    obtain rfl := Option.some.inj h
    exact hoctets
  · intro h
    rw [h]
    simp [ip.length_eq]

/-- **An address is read back from its text.** -/
theorem parse_display (ip : Ipv4Addr) : parse ip.display = some ip := by
  have hne : ip.octets ≠ [] := fun h => by
    have hlen := ip.length_eq
    rw [h] at hlen
    cases hlen
  rw [parse_eq_some, display, String.toList_ofList, splitOn_digits hne, mapM_digits]

/-- Parts that are read are as many octets. -/
lemma length_of_mapM {parts : List (List Char)} {os : List UInt8}
    (h : parts.mapM parseOctet = some os) : parts.length = os.length := by
  induction parts generalizing os with
  | nil =>
    obtain rfl := Option.some.inj h
    rfl
  | cons part parts ih =>
    rw [List.mapM_cons] at h
    obtain ⟨o, -, h⟩ := Option.bind_eq_some_iff.1 h
    obtain ⟨rest, hrest, h⟩ := Option.bind_eq_some_iff.1 h
    obtain rfl := Option.some.inj h
    rw [List.length_cons, List.length_cons, ih hrest]

/-- A text that is read as an address has four parts. -/
lemma length_of_parse {s : String} {ip : Ipv4Addr} (h : parse s = some ip) :
    (s.toList.splitOn '.').length = 4 := by
  rw [length_of_mapM (parse_eq_some.1 h), ip.length_eq]

/-- All parts are octets if they can be read. -/
lemma isSome_mapM (parts : List (List Char)) :
    (parts.mapM parseOctet).isSome = parts.all isOctet := by
  induction parts with
  | nil => rfl
  | cons part parts ih =>
    rw [List.mapM_cons, List.all_cons, ← ih]
    by_cases hpart : isOctet part = true
    · obtain ⟨o, ho⟩ : ∃ o, parseOctet part = some o := ⟨_, if_pos hpart⟩
      rw [ho, hpart, Bool.true_and]
      cases parts.mapM parseOctet <;> rfl
    · have ho : parseOctet part = none := if_neg hpart
      rw [ho, Bool.eq_false_iff.2 hpart, Bool.false_and]
      rfl

/-- **Reading an address is the check that configurations are held to.**

**Proof sketch.** Both ask for four parts that are octets: the parse reads them, and the check only
looks. -/
theorem isSome_parse (s : String) : (parse s).isSome = isIpv4 s := by
  have hall := isSome_mapM (s.toList.splitOn '.')
  rw [Bool.eq_iff_iff, isIpv4, decide_eq_true_eq, ← hall]
  constructor
  · intro h
    obtain ⟨ip, hip⟩ := Option.isSome_iff_exists.1 h
    exact ⟨length_of_parse hip, by rw [parse_eq_some.1 hip]; rfl⟩
  · rintro ⟨hlen, h⟩
    obtain ⟨os, hos⟩ := Option.isSome_iff_exists.1 h
    have hfour : os.length = 4 := (length_of_mapM hos).symm.trans hlen
    have hip : parse s = some ⟨os, hfour⟩ := parse_eq_some.2 hos
    rw [hip]
    rfl

end Ipv4Addr

/-- What an entry comes to. It is nothing, an address in one of the known networks or outside of all
of them, or no address. -/
inductive JoinIpOutcome where
  | empty
  | inRange (ip : Ipv4Addr)
  | outOfRange
  | malformed
  deriving DecidableEq

end Duocb
