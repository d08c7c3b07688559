import Duocb.Net.Resolve

set_option relaxedAutoImplicit false
set_option autoImplicit false

/-!
# Service discovery on the local network

A record is advertised as a DNS-SD service: under an instance label, with its content in one
attribute and the addresses of the host in the service's own data. A lookup browses the type of the
service until it recognizes an instance, or the window closes. It does not know what labels and
contents mean: its caller hands it a function that reads them.

Everybody on the network can advertise services of the type, so a lookup may be shown any services,
in any order and as often as it pleases their senders.

## Main definitions

* `Duocb.parseU16` — the number that stands in an attribute.
* `Duocb.Registration`, `Duocb.dnssdAdvertise` — what is registered for a record.
* `Duocb.ResolvedService`, `Duocb.ServiceEvent` — what a browse is shown.
* `Duocb.dnssdLookup` — the browse.
* `Duocb.Registration.ResolvedAs` — a service is shown as it was registered.

## Main results

* `Duocb.parseU16_repr` — a port is read back from its text.
* `Duocb.dnssdLookup_eq` — a browse takes the first service that it recognizes.
* `Duocb.Registration.ResolvedAs.recognize` — a service that is shown as registered is recognized.
-/

namespace Duocb

/-- TXT attribute that carries the encrypted payload. -/
def TXT_KEY : String := "e"

/-- TXT attribute with the IPv6 port, where it differs from the one of the service. -/
def TXT_KEY_PORT6 : String := "p6"

/-- The service type of PIN records. -/
def PIN_SERVICE_TYPE : String := "_duocb-pin._udp.local."

/-- The service type of pairwise hosting records. -/
def HOSTING_SERVICE_TYPE : String := "_duocb-host._udp.local."

/-! ## Texts -/

/-- The text with its ASCII letters in lower case. -/
def toAsciiLowercase (s : String) : String := String.ofList (s.toList.map Char.toLower)

/-- The text in front of a suffix. -/
def stripSuffix (suffix s : String) : Option String :=
  if suffix.toList.isSuffixOf s.toList then
    some (String.ofList (s.toList.take (s.toList.length - suffix.toList.length)))
  else none

/-- The digits of a number that may have a sign in front. -/
def unsigned : List Char → List Char
  | '+' :: digits => digits
  | digits => digits

/-- Reads a decimal number of 16 bits. A sign may stand before the digits, as the standard parser
allows it; anything else, and a number out of range, is none. -/
def parseU16 (s : String) : Option UInt16 :=
  let digits := unsigned s.toList
  if digits = [] ∨ digits.any (fun c => !c.isDigit) then none
  else
    let n := Nat.ofDigitChars 10 digits 0
    if n < 2 ^ 16 then some (UInt16.ofNat n) else none

/-- The decimal text of a port. -/
def portText (port : UInt16) : String := port.toNat.repr

/-- What stands in front of a suffix is found again. -/
lemma stripSuffix_append (s suffix : String) : stripSuffix suffix (s ++ suffix) = some s := by
  have hsuffix : suffix.toList.isSuffixOf (s ++ suffix).toList = true := by
    rw [String.toList_append, List.isSuffixOf_iff_suffix]
    exact List.suffix_append _ _
  rw [stripSuffix, if_pos hsuffix, String.toList_append, List.length_append, Nat.add_sub_cancel,
    List.take_left, String.ofList_toList]

/-- **A port is read back from its text.**

**Proof sketch.** The text of a port is its digits, without a sign, and they are read back as a
number below 2 ^ 16. -/
theorem parseU16_repr (port : UInt16) : parseU16 (portText port) = some port := by
  have hdigits : ∀ c ∈ Nat.toDigits 10 port.toNat, c.isDigit = true := fun c hc =>
    Nat.isDigit_of_mem_toDigits (by decide) (by decide) hc
  have hlist : unsigned (portText port).toList = Nat.toDigits 10 port.toNat := by
    rw [portText, Nat.toList_repr]
    unfold unsigned
    split
    · rename_i digits h
      have hplus := hdigits '+' (by rw [h]; exact List.mem_cons_self)
      exact absurd hplus (by decide)
    · rfl
  have hany : ¬ (Nat.toDigits 10 port.toNat = [] ∨
      (Nat.toDigits 10 port.toNat).any (fun c => !c.isDigit) = true) := by
    rintro (hnil | hany)
    · exact Nat.toDigits_ne_nil hnil
    · obtain ⟨c, hc, hnot⟩ := List.any_eq_true.1 hany
      rw [hdigits c hc] at hnot
      cases hnot
  simp only [parseU16, hlist, if_neg hany]
  rw [Nat.ofDigitChars_toDigits (by decide) (by decide), if_pos port.toNat_lt, UInt16.ofNat_toNat]

/-- The first digits of bytes, in front of a service type in lower case, are in lower case.

**Proof sketch.** The digits of bytes have no capital letters, the dot is none, and the service type
is in lower case by hypothesis. -/
lemma toAsciiLowercase_label (bs : Bytes) (n : ℕ) {serviceType : String}
    (htype : serviceType.toList.map Char.toLower = serviceType.toList) :
    toAsciiLowercase (String.ofList ((toHex bs).toList.take n) ++ ("." ++ serviceType)) =
      String.ofList ((toHex bs).toList.take n) ++ ("." ++ serviceType) := by
  have hdigits : ((toHex bs).toList.take n).map Char.toLower = (toHex bs).toList.take n := by
    conv_rhs => rw [← List.map_id ((toHex bs).toList.take n)]
    refine List.map_congr_left fun c hc => ?_
    exact forall_mem_toHex (P := fun c => c.toLower = c) (by decide) bs c (List.mem_of_mem_take hc)
  apply String.toList_injective
  have hdot : ".".toList.map Char.toLower = ".".toList := by decide
  simp only [toAsciiLowercase, String.toList_ofList, String.toList_append, List.map_append,
    hdigits, hdot, htype]

/-! ## Advertising -/

/-- What is registered for a record: the full name, the attributes, and the addresses. -/
structure Registration where
  fullname : String
  props : List (String × String)
  service : ServiceInfo

/-- The attributes of a record. -/
def advertProps (content : String) (port6 : Option UInt16) : List (String × String) :=
  (TXT_KEY, content) :: (port6.map fun p6 => (TXT_KEY_PORT6, portText p6)).toList

/-- Advertise a content under an instance label. -/
def dnssdAdvertise (serviceType label content : String) (addrs : List SocketAddr) :
    Except Error Registration := do
  let service ← advertise addrs
  return ⟨label ++ ("." ++ serviceType), advertProps content service.port6, service⟩

/-- The content of a record is found under its key. -/
lemma lookup_advertProps (content : String) (port6 : Option UInt16) :
    (advertProps content port6).lookup TXT_KEY = some content := by
  simp [advertProps]

/-- The IPv6 port of a record is read back from its attribute. -/
lemma lookup_advertProps_port6 (content : String) (port6 : Option UInt16) :
    ((advertProps content port6).lookup TXT_KEY_PORT6).bind parseU16 = port6 := by
  have hne : (TXT_KEY_PORT6 == TXT_KEY) = false := by decide
  cases port6 with
  | none => simp [advertProps, hne]
  | some p6 => simp [advertProps, List.lookup_cons, hne, parseU16_repr]

/-! ## Browsing -/

/-- A service that a browse resolved: its attributes by key, and its addresses in any order. -/
structure ResolvedService where
  fullname : String
  property : String → Option String
  addresses : List IpAddr
  port : UInt16

/-- What a browse is shown. -/
inductive ServiceEvent where
  | serviceResolved (info : ResolvedService)
  | other

section Lookup

variable {P : Type} (serviceType : String) (decode : String → String → Option P)

/-- The record of a service, if it is of the type, has a content, and the caller can read it. The
label is what stands before the type in the full name. The port for the second address family is
used if the record has one. -/
def ResolvedService.recognize (info : ResolvedService) : Option (LanFound P) := do
  let label ← stripSuffix ("." ++ serviceType) (toAsciiLowercase info.fullname)
  let content ← info.property TXT_KEY
  let payload ← decode label content
  let port6 := (info.property TXT_KEY_PORT6).bind parseU16
  some ⟨payload, assembleAddrs info.addresses info.port port6⟩

/-- Browse until a service is recognized, or the window closes. Events of other kinds, and services
that are not recognized, are passed over. -/
def dnssdLookup : List ServiceEvent → Option (LanFound P)
  | [] => none
  | .other :: events => dnssdLookup events
  | .serviceResolved info :: events =>
    match info.recognize serviceType decode with
    | some found => some found
    | none => dnssdLookup events

/-- What is recognized in one event. -/
def ServiceEvent.recognize : ServiceEvent → Option (LanFound P)
  | serviceResolved info => info.recognize serviceType decode
  | other => none

/-- **A browse takes the first service that it recognizes.**

**Proof sketch.** By induction on the events; one that is not recognized is passed over. -/
theorem dnssdLookup_eq (events : List ServiceEvent) :
    dnssdLookup serviceType decode events =
      events.findSome? (ServiceEvent.recognize serviceType decode) := by
  induction events with
  | nil => rfl
  | cons event events ih =>
    cases event with
    | other =>
      rw [dnssdLookup, ih, List.findSome?_cons]
      rfl
    | serviceResolved info =>
      rw [dnssdLookup, List.findSome?_cons]
      simp only [ServiceEvent.recognize]
      cases info.recognize serviceType decode with
      | some found => rfl
      | none => exact ih

variable {serviceType decode}

/-- What is recognized was read by the caller, of the content of some service. -/
lemma ServiceEvent.recognize_eq_some {event : ServiceEvent} {found : LanFound P}
    (h : event.recognize serviceType decode = some found) :
    ∃ info label content, event = serviceResolved info ∧ info.property TXT_KEY = some content ∧
      decode label content = some found.payload := by
  cases event with
  | other => cases h
  | serviceResolved info =>
    simp only [ServiceEvent.recognize, ResolvedService.recognize, Option.bind_eq_bind,
      Option.bind_eq_some_iff, Option.some.injEq] at h
    obtain ⟨label, -, content, hcontent, payload, hpayload, rfl⟩ := h
    exact ⟨info, label, content, rfl, hcontent, hpayload⟩

end Lookup

/-- A service is shown as it was registered: under its name, in any case, with its attributes and
its port, and at its addresses, in any order. -/
structure Registration.ResolvedAs (r : Registration) (info : ResolvedService) : Prop where
  fullname : toAsciiLowercase info.fullname = toAsciiLowercase r.fullname
  property : ∀ key, info.property key = r.props.lookup key
  addresses : ∀ ip, ip ∈ info.addresses ↔ ip ∈ r.service.ips
  port : info.port = r.service.srvPort

/-- **A service that is shown as it was registered is recognized**, if its name is in lower case
and the caller can read it. The addresses are those that a looking device resolves.

**Proof sketch.** The name of the service is its label and type in lower case, so the label is cut
off again, and the payload and the addresses are those that were registered. -/
theorem Registration.ResolvedAs.recognize {P : Type} {serviceType label content : String}
    {decode : String → String → Option P} {addrs : List SocketAddr} {r : Registration}
    (hr : dnssdAdvertise serviceType label content addrs = .ok r) {info : ResolvedService}
    (h : r.ResolvedAs info)
    (hcase : toAsciiLowercase (label ++ ("." ++ serviceType)) = label ++ ("." ++ serviceType))
    {payload : P} (hpayload : decode label content = some payload) :
    advertise addrs = .ok r.service ∧
      info.recognize serviceType decode = some ⟨payload, resolve r.service info.addresses⟩ := by
  simp only [dnssdAdvertise, bind_eq_ok] at hr
  obtain ⟨service, hservice, hr⟩ := hr
  obtain rfl := Except.ok.inj hr
  refine ⟨hservice, ?_⟩
  have hname : toAsciiLowercase info.fullname = label ++ ("." ++ serviceType) := by
    rw [h.fullname, hcase]
  simp only [ResolvedService.recognize, hname, stripSuffix_append, h.property,
    lookup_advertProps, lookup_advertProps_port6, hpayload, h.port, Option.bind_eq_bind,
    Option.bind_some, resolve]

end Duocb
