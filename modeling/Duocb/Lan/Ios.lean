import Duocb.Lan.Dnssd
import Duocb.Lan.Txt
import Duocb.Library.Machine

set_option relaxedAutoImplicit false
set_option autoImplicit false

/-!
# Service discovery through the system daemon

On iOS the multicast is done by a system daemon. A lookup browses to learn the names of instances,
resolves each of them for its attributes and its host, and asks for the addresses of the host only
when its caller has recognized a record. The daemon answers through callbacks, which run while the
lookup polls the sockets of its operations, in any order and number; each poll ends by a deadline.

The lookup runs here round by round. A round is one turn of a loop of the source: the daemon's
answers to it, and when it was, are its label.

## Main definitions

* `Duocb.Ios.Callback`, `Duocb.Ios.Polled`, `Duocb.Ios.pollAndProcess` — what the daemon calls back,
  and one poll.
* `Duocb.Ios.Browse` — the browse, and a resolve for each name that it reported.
* `Duocb.Ios.Lookup`, `Duocb.Ios.step` — the lookup, round by round.
* `Duocb.Ios.Recognized` — a record that was called back and recognized.

## Main results

* `Duocb.Ios.Browse.Inv` — a name is resolved once.
* `Duocb.Ios.Inv.step` — what every round keeps.
* `Duocb.Ios.lookup_spec` — what a lookup finds, that it passes over nothing it recognizes, and how
  long it waits for addresses.
-/

namespace Duocb

namespace Ios

/-! ## What the daemon calls back -/

/-- More callbacks are already queued. -/
def MORE_COMING : UInt32 := 0x1

/-- Something appears, rather than goes away. -/
def FLAG_ADD : UInt32 := 0x2

/-- How long addresses are collected after the first one, in milliseconds. -/
def ADDR_GRACE : ℕ := 700

/-- What is kept back of the time of a lookup for its addresses. -/
def ADDR_RESERVE : ℕ := 1500

/-- A name that the browse reports, with what the daemon wants to have back. -/
structure Reported where
  name : Bytes
  regtype : Bytes
  domain : Bytes
  deriving DecidableEq

/-- The socket address of a callback, by its family. -/
inductive SockAddr where
  | inet (ip : BitVec 32)
  | inet6 (ip : BitVec 128)
  | other
  deriving DecidableEq

/-- The callbacks. That of a resolve belongs to the operation for one name; `none` is a null
pointer. -/
inductive Callback where
  | browse (flags : UInt32) (err : ℤ) (service : Option Reported)
  | resolve (op : Bytes) (err : ℤ) (hosttarget : Option Bytes) (port : UInt16)
      (txtRecord : Option Bytes)
  | addr (flags : UInt32) (err : ℤ) (address : Option SockAddr)
  deriving DecidableEq

/-- How a poll whose sockets became readable ends: all were served, one had died, or the daemon
reported an error on one. -/
inductive Served where
  | all
  | died
  | failed (err : ℤ)

/-- What becomes of a poll. -/
inductive Polled where
  | interrupted
  | error (e : Error)
  | timedOut
  | ready (calls : List Callback) (served : Served)

/-- The callbacks that run in a poll. -/
def Polled.calls : Polled → List Callback
  | ready calls _ => calls
  | _ => []

/-- Wait for callbacks up to a deadline: those that ran, and whether to go on. A poll that is
interrupted goes on without callbacks, and one that times out ends the wait. The callbacks that ran
before an error have run. -/
def pollAndProcess (deadline now : ℕ) (polled : Polled) : List Callback × Except Error Bool :=
  if deadline < now then ([], .ok false)
  else
    match polled with
    | .interrupted => ([], .ok true)
    | .error e => ([], .error (e.context "poll on dns_sd sockets"))
    | .timedOut => ([], .ok false)
    | .ready calls .all => (calls, .ok true)
    | .ready calls .died => (calls, .ok false)
    | .ready calls (.failed err) =>
      (calls, .error (.msg ("DNSServiceProcessResult failed: " ++ toString err)))

/-! ## The browse -/

/-- The host, the port and the attributes of an instance. -/
structure ResolveAnswer where
  host : Bytes
  port : UInt16
  txt : TxtMap

/-- One resolve: its operation, the label for the caller, and the answer that has come. -/
structure Resolve where
  op : Bytes
  label : String
  answer : Option ResolveAnswer

/-- The browse: what it has reported, the resolves, and the names that are being resolved. -/
structure Browse where
  instances : List Reported
  resolves : List Resolve
  started : List Bytes

/-- A name was reported. Only additions matter. -/
def browseCb (b : Browse) (flags : UInt32) (err : ℤ) : Option Reported → Browse
  | none => b
  | some service =>
    if err ≠ 0 ∨ flags &&& FLAG_ADD = 0 then b
    else { b with instances := b.instances ++ [service] }

/-- A name was resolved. A later answer replaces an earlier one. An answer with an error, or without
a host, changes nothing. -/
def resolveCb (r : Resolve) (err : ℤ) (hosttarget : Option Bytes) (port : UInt16)
    (txtRecord : Option Bytes) : Resolve :=
  match hosttarget with
  | none => r
  | some host =>
    if err ≠ 0 then r
    else { r with answer := (parseTxt (txtRecord.getD [])).map fun txt => ⟨host, port, txt⟩ }

/-- What a callback does to the browse. An answer to a resolve goes to the one that it is for;
addresses are for a later phase. -/
def Browse.dispatch (b : Browse) : Callback → Browse
  | .browse flags err service => browseCb b flags err service
  | .resolve op err hosttarget port txtRecord =>
    { b with resolves := b.resolves.map fun r =>
        if r.op = op then resolveCb r err hosttarget port txtRecord else r }
  | .addr _ _ _ => b

/-- Whether a callback is one of the operations that a browse has open. -/
def Browse.owns (b : Browse) : Callback → Bool
  | .browse _ _ _ => true
  | .resolve op _ _ _ _ => op ∈ b.started
  | .addr _ _ _ => false

/-- Resolve a reported name, unless it is being resolved, is no text, or the daemon refuses. It is
marked as started only once the daemon has accepted it, so that a refused one is tried again. -/
def startResolve (refused : Reported → Bool) (b : Browse) (service : Reported) : Browse :=
  if service.name ∈ b.started then b
  else
    match Serde.ofUtf8 service.name with
    | none => b
    | some label =>
      if refused service then b
      else { b with
        started := b.started ++ [service.name]
        resolves := b.resolves ++ [⟨service.name, toAsciiLowercase label, none⟩] }

/-- Resolve every name that was newly reported. -/
def Browse.startNewResolves (b : Browse) (refused : Reported → Bool) : Browse :=
  b.instances.foldl (startResolve refused) { b with instances := [] }

/-- One resolved instance, for the caller to judge. It has the attributes of the record, and the
host whose addresses are asked for next. -/
structure Answer where
  label : String
  content : String
  host : Bytes
  srvPort : UInt16
  port6 : Option UInt16

/-- The answer of a resolve, if it has come and has a content. -/
def Resolve.read (r : Resolve) : Option Answer := do
  let answer ← r.answer
  let content ← answer.txt.lookup TXT_KEY
  some ⟨r.label, content, answer.host, answer.port,
    (answer.txt.lookup TXT_KEY_PORT6).bind parseU16⟩

/-- A resolve of which the answer was taken. -/
def Resolve.taken (r : Resolve) : Resolve := { r with answer := none }

/-- The answers that have come. -/
def Browse.answers (b : Browse) : List Answer := b.resolves.filterMap Resolve.read

/-- The browse after they were taken. -/
def Browse.taken (b : Browse) : Browse := { b with resolves := b.resolves.map Resolve.taken }

/-! ## The addresses -/

/-- The addresses of the host so far, and whether the daemon has said all it knows. -/
structure AddrOutcome where
  ips : List IpAddr
  done : Bool

/-- The address in a callback, if its family is known. -/
def SockAddr.ip : SockAddr → Option IpAddr
  | inet ip => some (.v4 ip)
  | inet6 ip => some (.v6 ip)
  | other => none

/-- The address that a callback adds. -/
def added : Callback → Option IpAddr
  | .addr flags err (some address) =>
    if err = 0 ∧ flags &&& FLAG_ADD ≠ 0 then address.ip else none
  | _ => none

/-- Whether a callback is one of the address lookup. -/
def Callback.isAddr : Callback → Bool
  | addr _ _ _ => true
  | _ => false

/-- What a callback does to the addresses. -/
def AddrOutcome.dispatch (o : AddrOutcome) : Callback → AddrOutcome
  | .addr flags err address =>
    ⟨o.ips ++ (added (.addr flags err address)).toList, o.done || flags &&& MORE_COMING = 0⟩
  | _ => o

/-! ## The lookup -/

/-- Where a lookup is: browsing, collecting the addresses of a record up to the end of a window, or
done. -/
inductive Lookup (P : Type) where
  | browsing (b : Browse)
  | addressing (payload : P) (hit : Answer) (outcome : AddrOutcome) (window : ℕ)
  | done (result : Except Error (Option (LanFound P)))

/-- One round: when its poll begins and ends, the names that the daemon refuses to resolve, whether
it refuses to look up addresses, and what becomes of the poll. -/
structure Round where
  before : ℕ
  after : ℕ
  refused : Reported → Bool
  addrErr : ℤ
  polled : Polled

/-- A lookup that begins, if the daemon lets it browse. -/
def Lookup.start {P : Type} (err : ℤ) : Lookup P :=
  if err = 0 then .browsing ⟨[], [], []⟩
  else .done (.error (.msg ("DNSServiceBrowse failed: " ++ toString err)))

section Step

variable {P : Type} (deadline : ℕ) (decode : String → String → Option P)

/-- The first answer that the caller recognizes. -/
def recognize (answers : List Answer) : Option (P × Answer) :=
  answers.findSome? fun answer => (decode answer.label answer.content).map fun p => (p, answer)

/-- What a lookup returns of a record and the addresses of its host. -/
def finish (payload : P) (hit : Answer) (ips : List IpAddr) : Option (LanFound P) :=
  let addrs := assembleAddrs ips hit.srvPort hit.port6
  if addrs = [] then none else some ⟨payload, addrs⟩

/-- A round of the browse whose answers were all taken: poll, and go on or give up. What the poll
has run is dispatched in its order, and each callback is put out with the time at which it ran. -/
def browseRound (b : Browse) (r : Round) : Lookup P × List (ℕ × Callback) :=
  let (calls, next) := pollAndProcess (deadline - ADDR_RESERVE) r.before r.polled
  (match next with
    | .error e => .done (.error e)
    | .ok false => .done (.ok none)
    | .ok true => .browsing (calls.foldl Browse.dispatch b), calls.map (r.after, ·))

/-- A round of the address lookup: poll, and go on or return what there is. The first address ends
the window soon. -/
def addrRound (payload : P) (hit : Answer) (outcome : AddrOutcome) (window : ℕ) (r : Round) :
    Lookup P × List (ℕ × Callback) :=
  let (calls, next) := pollAndProcess window r.before r.polled
  let outcome := calls.foldl AddrOutcome.dispatch outcome
  (match next with
    | .error e => .done (.error e)
    | .ok false => .done (.ok (finish payload hit outcome.ips))
    | .ok true => .addressing payload hit outcome
      (if outcome.ips = [] then window else min window (r.after + ADDR_GRACE)),
    calls.map (r.after, ·))

/-- One round of a lookup, and the callbacks that ran in it, each with the time at which its poll
ended. Only the operations that are open call back. -/
def step : Lookup P → Round → Option (Lookup P × List (ℕ × Callback))
  | .browsing b, r =>
    let b := b.startNewResolves r.refused
    match b.answers with
    | [] =>
      if r.polled.calls.all b.owns then some (browseRound deadline b.taken r) else none
    | answer :: answers =>
      match recognize decode (answer :: answers) with
      | none => some (.browsing b.taken, [])
      | some (payload, hit) =>
        if r.addrErr = 0 then some (.addressing payload hit ⟨[], false⟩ deadline, [])
        else some (.done (.error
          (.msg ("DNSServiceGetAddrInfo failed: " ++ toString r.addrErr))), [])
  | .addressing payload hit outcome window, r =>
    if outcome.done ∧ outcome.ips ≠ [] then
      some (.done (.ok (finish payload hit outcome.ips)), [])
    else if r.polled.calls.all Callback.isAddr then
      some (addrRound payload hit outcome window r)
    else none
  | .done _, _ => none

end Step

/-! ## What every round keeps -/

/-- A name was reported as present. -/
def ReportedIn (outs : List (ℕ × Callback)) (service : Reported) : Prop :=
  ∃ t flags, (t, .browse flags 0 (some service)) ∈ outs ∧ flags &&& FLAG_ADD ≠ 0

/-- A name was resolved to an answer. -/
def ResolvedIn (outs : List (ℕ × Callback)) (name : Bytes) (answer : ResolveAnswer) : Prop :=
  ∃ t txtRecord, (t, .resolve name 0 (some answer.host) answer.port txtRecord) ∈ outs ∧
    parseTxt (txtRecord.getD []) = some answer.txt

/-- What is known of a resolve: its name was reported, and its answer was called back. -/
structure Resolve.Inv (outs : List (ℕ × Callback)) (r : Resolve) : Prop where
  label : ∃ service text, ReportedIn outs service ∧ service.name = r.op ∧
    Serde.ofUtf8 r.op = some text ∧ r.label = toAsciiLowercase text
  answer : ∀ answer, r.answer = some answer → ResolvedIn outs r.op answer

/-- What is known of a browse: no name is resolved twice, and everything in it was called back. -/
structure Browse.Inv (outs : List (ℕ × Callback)) (b : Browse) : Prop where
  nodup : b.started.Nodup
  ops : b.resolves.map Resolve.op = b.started
  instances : ∀ service ∈ b.instances, ReportedIn outs service
  resolves : ∀ r ∈ b.resolves, r.Inv outs

section Browse

variable {outs outs' : List (ℕ × Callback)} {b : Browse}

/-- What was reported stays so as more callbacks come. -/
lemma ReportedIn.mono {service : Reported} (h : ReportedIn outs service) (hsub : outs ⊆ outs') :
    ReportedIn outs' service := by
  obtain ⟨t, flags, hmem, hadd⟩ := h
  exact ⟨t, flags, hsub hmem, hadd⟩

/-- What was resolved stays so as more callbacks come. -/
lemma ResolvedIn.mono {name : Bytes} {answer : ResolveAnswer} (h : ResolvedIn outs name answer)
    (hsub : outs ⊆ outs') : ResolvedIn outs' name answer := by
  obtain ⟨t, txtRecord, hmem, hparse⟩ := h
  exact ⟨t, txtRecord, hsub hmem, hparse⟩

/-- What is known of a lookup stays true as more callbacks come. -/
lemma Resolve.Inv.mono {r : Resolve} (h : r.Inv outs) (hsub : outs ⊆ outs') : r.Inv outs' := by
  obtain ⟨service, text, hreported, hname, htext, hlabel⟩ := h.label
  exact ⟨⟨service, text, hreported.mono hsub, hname, htext, hlabel⟩,
    fun answer ha => (h.answer answer ha).mono hsub⟩

/-- What is known of a browse stays true as more callbacks come. -/
lemma Browse.Inv.mono (h : b.Inv outs) (hsub : outs ⊆ outs') : b.Inv outs' :=
  ⟨h.nodup, h.ops, fun service hs => (h.instances service hs).mono hsub,
    fun r hr => (h.resolves r hr).mono hsub⟩

/-- A browse whose answers were taken. -/
lemma Browse.Inv.taken (h : b.Inv outs) : b.taken.Inv outs := by
  refine ⟨h.nodup, ?_, h.instances, ?_⟩
  · show (b.resolves.map Resolve.taken).map Resolve.op = b.started
    rw [← h.ops, List.map_map]
    rfl
  · intro r hr
    obtain ⟨r', hr', rfl⟩ := List.mem_map.1 hr
    exact ⟨(h.resolves r' hr').label, fun answer ha => by cases ha⟩

/-- **A name is resolved once**: a name that is being resolved is passed over.

**Proof sketch.** By the branches of the function: only a name that is new is added, and it is a
text that was reported. -/
lemma Browse.Inv.startResolve {refused : Reported → Bool} {service : Reported} (h : b.Inv outs)
    (hs : ReportedIn outs service) : (startResolve refused b service).Inv outs := by
  unfold Ios.startResolve
  split
  · exact h
  · rename_i hnew
    split
    · exact h
    · rename_i text htext
      split
      · exact h
      · refine ⟨?_, ?_, h.instances, ?_⟩
        · exact List.nodup_append.2 ⟨h.nodup, List.nodup_singleton _, by
            rintro a ha _ hb rfl
            rw [List.mem_singleton.1 hb] at ha
            exact hnew ha⟩
        · simp only [List.map_append, List.map_cons, List.map_nil, h.ops]
        · intro r hr
          rcases List.mem_append.1 hr with hr | hr
          · exact h.resolves r hr
          · obtain rfl := List.mem_singleton.1 hr
            exact ⟨⟨service, text, hs, rfl, htext, rfl⟩, fun answer ha => by cases ha⟩

/-- So are all that were reported.

**Proof sketch.** By induction on the reported names, each of which is the lemma before. -/
lemma Browse.Inv.startNewResolves (h : b.Inv outs) (refused : Reported → Bool) :
    (b.startNewResolves refused).Inv outs := by
  have hfold : ∀ (l : List Reported) (b : Browse), b.Inv outs →
      (∀ service ∈ l, ReportedIn outs service) →
        (l.foldl (Ios.startResolve refused) b).Inv outs := by
    intro l
    induction l with
    | nil => exact fun b h _ => h
    | cons service l ih =>
      intro b h hl
      obtain ⟨hhead, htail⟩ := List.forall_mem_cons.1 hl
      exact ih _ (h.startResolve hhead) htail
  exact hfold b.instances _ ⟨h.nodup, h.ops, fun _ hs => absurd hs List.not_mem_nil, h.resolves⟩
    h.instances

/-- An answer of a resolve was called back.

**Proof sketch.** By the branches of the function. An answer that is kept is the one of this
callback. -/
lemma Resolve.Inv.resolveCb {r : Resolve} (h : r.Inv outs) {t : ℕ} {err : ℤ}
    {hosttarget : Option Bytes} {port : UInt16} {txtRecord : Option Bytes}
    (hcall : (t, .resolve r.op err hosttarget port txtRecord) ∈ outs) :
    (resolveCb r err hosttarget port txtRecord).Inv outs := by
  unfold Ios.resolveCb
  split
  · exact h
  · rename_i host
    split
    · exact h
    · rename_i herr
      obtain rfl := not_not.1 herr
      refine ⟨h.label, fun answer ha => ?_⟩
      obtain ⟨txt, htxt, rfl⟩ := Option.map_eq_some_iff.1 ha
      exact ⟨t, txtRecord, hcall, htxt⟩

/-- The answer to a lookup does not touch its handle. -/
lemma resolveCb_op (r : Resolve) (err : ℤ) (hosttarget : Option Bytes) (port : UInt16)
    (txtRecord : Option Bytes) : (resolveCb r err hosttarget port txtRecord).op = r.op := by
  unfold resolveCb
  split
  · rfl
  · split <;> rfl

/-- A callback keeps what is known of a browse.

**Proof sketch.** By cases on the callback. A service that is added was reported by this callback,
and an answer belongs to the lookup with its name. -/
lemma Browse.Inv.dispatch (h : b.Inv outs) {t : ℕ} {c : Callback} (hc : (t, c) ∈ outs) :
    (b.dispatch c).Inv outs := by
  cases c with
  | browse flags err service =>
    simp only [Browse.dispatch, browseCb]
    split
    · exact h
    · rename_i service
      split
      · exact h
      · rename_i hadd
        simp only [not_or, not_not] at hadd
        obtain ⟨rfl, hflag⟩ := hadd
        refine ⟨h.nodup, h.ops, fun s hs => ?_, h.resolves⟩
        rcases List.mem_append.1 hs with hs | hs
        · exact h.instances s hs
        · obtain rfl := List.mem_singleton.1 hs
          exact ⟨t, flags, hc, hflag⟩
  | resolve op err hosttarget port txtRecord =>
    refine ⟨h.nodup, ?_, h.instances, fun r hr => ?_⟩
    · simp only [Browse.dispatch, List.map_map]
      rw [← h.ops]
      refine List.map_congr_left fun r _ => ?_
      simp only [Function.comp_apply]
      split
      · exact resolveCb_op r err hosttarget port txtRecord
      · rfl
    · obtain ⟨r', hr', rfl⟩ := List.mem_map.1 hr
      split
      · rename_i hop
        subst hop
        exact (h.resolves r' hr').resolveCb hc
      · exact h.resolves r' hr'
  | addr flags err address => exact h

/-- So do the callbacks of a poll. -/
lemma Browse.Inv.dispatchAll (h : b.Inv outs) {calls : List Callback} {t : ℕ}
    (hcalls : ∀ c ∈ calls, (t, c) ∈ outs) : (calls.foldl Browse.dispatch b).Inv outs := by
  induction calls generalizing b with
  | nil => exact h
  | cons c calls ih =>
    obtain ⟨hhead, htail⟩ := List.forall_mem_cons.1 hcalls
    exact ih (h.dispatch hhead) htail

end Browse

/-- All addresses that were added by callbacks, in their order. -/
def addedIn (outs : List (ℕ × Callback)) : List IpAddr := outs.filterMap fun out => added out.2

section Lookup

variable {P : Type} (decode : String → String → Option P)

/-- A record that was called back and recognized: the name of its instance was reported and
resolved to an answer with a content, and the caller reads the content under the name in lower
case. -/
def Recognized (outs : List (ℕ × Callback)) (payload : P) (hit : Answer) : Prop :=
  ∃ service text answer, ReportedIn outs service ∧ Serde.ofUtf8 service.name = some text ∧
    hit.label = toAsciiLowercase text ∧ ResolvedIn outs service.name answer ∧
    answer.txt.lookup TXT_KEY = some hit.content ∧ hit.host = answer.host ∧
    hit.srvPort = answer.port ∧
    hit.port6 = (answer.txt.lookup TXT_KEY_PORT6).bind parseU16 ∧
    decode hit.label hit.content = some payload

/-- What a lookup has found: a record that was recognized, at the addresses that were added. -/
def FoundIn (outs : List (ℕ × Callback)) (found : LanFound P) : Prop :=
  ∃ hit, Recognized decode outs found.payload hit ∧
    found.addrs = assembleAddrs (addedIn outs) hit.srvPort hit.port6 ∧ found.addrs ≠ []

variable (deadline : ℕ)

/-- The window of an address lookup: up to the deadline while there is no address, and no longer
than the grace after any address. -/
structure Window (outs : List (ℕ × Callback)) (window : ℕ) : Prop where
  le : window ≤ deadline
  open_eq : addedIn outs = [] → window = deadline
  grace : ∀ t c, (t, c) ∈ outs → (added c).isSome → window ≤ t + ADDR_GRACE

/-- What is known of a lookup. While browsing no address has come. From the hit on, its payload was
recognized in an answer that came, and what is returned at the end is of addresses that came. -/
def Inv (outs : List (ℕ × Callback)) : Lookup P → Prop
  | .browsing b => b.Inv outs ∧ addedIn outs = []
  | .addressing payload hit outcome window => Recognized decode outs payload hit ∧
    outcome.ips = addedIn outs ∧ Window deadline outs window
  | .done (.ok (some found)) => FoundIn decode outs found
  | .done _ => True

variable {decode deadline} {outs : List (ℕ × Callback)}

/-- Callbacks of a browse add no addresses. -/
lemma addedIn_append_of_owns (h : addedIn outs = []) {b : Browse} {calls : List Callback}
    (hcalls : ∀ c ∈ calls, b.owns c = true) (t : ℕ) :
    addedIn (outs ++ calls.map (t, ·)) = [] := by
  rw [addedIn, List.filterMap_append, ← addedIn, h, List.nil_append,
    List.filterMap_eq_nil_iff]
  intro out hout
  obtain ⟨c, hc, rfl⟩ := List.mem_map.1 hout
  cases c with
  | browse flags err service => rfl
  | resolve op err hosttarget port txtRecord => rfl
  | addr flags err address => exact absurd (hcalls _ hc) Bool.false_ne_true

/-- The callbacks of a poll add their addresses.

**Proof sketch.** By induction on the callbacks, all of which are about addresses. -/
lemma ips_dispatchAll (outcome : AddrOutcome) (calls : List Callback)
    (hcalls : ∀ c ∈ calls, c.isAddr = true) :
    (calls.foldl AddrOutcome.dispatch outcome).ips = outcome.ips ++ calls.filterMap added := by
  induction calls generalizing outcome with
  | nil => simp
  | cons c calls ih =>
    obtain ⟨hhead, htail⟩ := List.forall_mem_cons.1 hcalls
    rw [List.foldl_cons, ih _ htail]
    cases c with
    | browse flags err service => cases hhead
    | resolve op err hosttarget port txtRecord => cases hhead
    | addr flags err address =>
      rw [List.filterMap_cons]
      cases h : added (.addr flags err address) <;> simp [AddrOutcome.dispatch, h]

/-- The addresses of a history that a poll continues. -/
lemma addedIn_append (calls : List Callback) (t : ℕ) :
    addedIn (outs ++ calls.map (t, ·)) = addedIn outs ++ calls.filterMap added := by
  rw [addedIn, List.filterMap_append, ← addedIn, List.filterMap_map]
  rfl

/-- What was recognized stays so as more callbacks come. -/
lemma Recognized.mono {outs' : List (ℕ × Callback)} {payload : P} {hit : Answer}
    (h : Recognized decode outs payload hit) (hsub : outs ⊆ outs') :
    Recognized decode outs' payload hit := by
  obtain ⟨service, text, answer, hreported, htext, hlabel, hresolved, hrest⟩ := h
  exact ⟨service, text, answer, hreported.mono hsub, htext, hlabel, hresolved.mono hsub, hrest⟩

/-- What a poll lets run are callbacks that were waiting. -/
lemma pollAndProcess_calls (deadline now : ℕ) (polled : Polled) :
    ∀ c ∈ (pollAndProcess deadline now polled).1, c ∈ polled.calls := by
  intro c hc
  unfold pollAndProcess at hc
  split at hc
  · exact absurd hc List.not_mem_nil
  · cases polled with
    | interrupted => exact absurd hc List.not_mem_nil
    | error e => exact absurd hc List.not_mem_nil
    | timedOut => exact absurd hc List.not_mem_nil
    | ready calls served => cases served <;> exact hc

/-- The answers of a browse whose content is recognized are records that were called back.

**Proof sketch.** An answer that is recognized was read from a resolve, whose name was reported and
whose record was called back. -/
lemma Browse.Inv.recognize {b : Browse} (h : b.Inv outs) {payload : P} {hit : Answer}
    (hrec : recognize decode b.answers = some (payload, hit)) :
    Recognized decode outs payload hit := by
  obtain ⟨answer, hanswer, hread⟩ := List.exists_of_findSome?_eq_some hrec
  obtain ⟨p, hdecode, hpair⟩ := Option.map_eq_some_iff.1 hread
  obtain ⟨rfl, rfl⟩ := Prod.mk.inj hpair
  obtain ⟨r, hr, hrread⟩ := List.mem_filterMap.1 hanswer
  simp only [Resolve.read, Option.bind_eq_bind, Option.bind_eq_some_iff, Option.some.injEq]
    at hrread
  obtain ⟨a, ha, content, hcontent, rfl⟩ := hrread
  obtain ⟨service, text, hreported, hname, htext, hlabel⟩ := (h.resolves r hr).label
  have hresolved := (h.resolves r hr).answer a ha
  rw [← hname] at htext hresolved
  exact ⟨service, text, a, hreported, htext, hlabel, hresolved, hcontent, rfl, rfl, rfl, hdecode⟩

/-- What an address lookup returns. -/
lemma foundIn_of_finish {payload : P} {hit : Answer} {ips : List IpAddr} {found : LanFound P}
    (hrec : Recognized decode outs payload hit) (hips : ips = addedIn outs)
    (h : finish payload hit ips = some found) : FoundIn decode outs found := by
  simp only [finish] at h
  split at h
  · cases h
  · rename_i hne
    obtain rfl := Option.some.inj h
    subst hips
    exact ⟨hit, hrec, rfl, hne⟩

/-- A browse that polls keeps what is known of it.

**Proof sketch.** By the outcome of the poll. Callbacks of the browse add no address, and what they
change is kept by the lemmas about the three of them. -/
lemma Inv.browseRound {b : Browse} (h : b.Inv outs) (hnone : addedIn outs = []) {r : Round}
    (hcalls : ∀ c ∈ r.polled.calls, b.owns c = true) :
    Inv decode deadline (outs ++ (browseRound (P := P) deadline b r).2)
      (browseRound deadline b r).1 := by
  have howns : ∀ c ∈ (pollAndProcess (deadline - ADDR_RESERVE) r.before r.polled).1,
      b.owns c = true := fun c hc => hcalls c (pollAndProcess_calls _ _ _ c hc)
  unfold Ios.browseRound
  rcases hpoll : pollAndProcess (deadline - ADDR_RESERVE) r.before r.polled with ⟨calls, e | go⟩ <;>
    rw [hpoll] at howns
  · trivial
  · cases go with
    | false => trivial
    | true =>
      refine ⟨?_, addedIn_append_of_owns hnone howns r.after⟩
      refine (h.mono (List.subset_append_left _ _)).dispatchAll (t := r.after) fun c hc => ?_
      exact List.mem_append_right _ (List.mem_map.2 ⟨c, hc, rfl⟩)

/-- An address lookup that polls keeps what is known of it.

**Proof sketch.** A window that was open up to the deadline is cut by the first address, to the
grace after the poll that brought it. A later poll only makes it smaller. -/
lemma Inv.addrRound {payload : P} {hit : Answer} {outcome : AddrOutcome} {window : ℕ}
    (hrec : Recognized decode outs payload hit) (hips : outcome.ips = addedIn outs)
    (hw : Window deadline outs window) {r : Round}
    (hcalls : ∀ c ∈ r.polled.calls, c.isAddr = true) :
    Inv decode deadline (outs ++ (addrRound payload hit outcome window r).2)
      (addrRound payload hit outcome window r).1 := by
  have haddr : ∀ c ∈ (pollAndProcess window r.before r.polled).1, c.isAddr = true :=
    fun c hc => hcalls c (pollAndProcess_calls _ _ _ c hc)
  unfold Ios.addrRound
  rcases hpoll : pollAndProcess window r.before r.polled with ⟨calls, e | go⟩ <;>
    rw [hpoll] at haddr
  · trivial
  have hrec' : Recognized decode (outs ++ calls.map (r.after, ·)) payload hit :=
    hrec.mono (List.subset_append_left _ _)
  have hips' : (calls.foldl AddrOutcome.dispatch outcome).ips =
      addedIn (outs ++ calls.map (r.after, ·)) := by
    rw [ips_dispatchAll outcome calls haddr, hips, addedIn_append]
  cases go with
  | false =>
    cases hfound : finish payload hit (calls.foldl AddrOutcome.dispatch outcome).ips with
    | none => simp only [hfound, Inv]
    | some found =>
      simp only [hfound, Inv]
      exact foundIn_of_finish hrec' hips' hfound
  | true =>
    refine ⟨hrec', hips', ?_⟩
    dsimp only
    split
    · rename_i hnil
      rw [hips'] at hnil
      have hbefore : addedIn outs = [] := by
        rw [addedIn_append] at hnil
        exact (List.append_eq_nil_iff.1 hnil).1
      refine ⟨hw.le, fun _ => hw.open_eq hbefore, fun t c hc hadd => ?_⟩
      have hmem : added c ∈ [none] := by
        by_contra hsome
        obtain ⟨ip, hip⟩ := Option.isSome_iff_exists.1 hadd
        have hin : ip ∈ addedIn (outs ++ calls.map (r.after, ·)) :=
          List.mem_filterMap.2 ⟨(t, c), hc, hip⟩
        rw [hnil] at hin
        exact absurd hin List.not_mem_nil
      rw [List.mem_singleton.1 hmem] at hadd
      cases hadd
    · rename_i hsome
      refine ⟨(min_le_left _ _).trans hw.le, fun hnil => absurd (hips'.trans hnil) hsome,
        fun t c hc hadd => ?_⟩
      rcases List.mem_append.1 hc with hc | hc
      · exact (min_le_left _ _).trans (hw.grace t c hc hadd)
      · obtain ⟨c', -, hpair⟩ := List.mem_map.1 hc
        obtain ⟨rfl, rfl⟩ := Prod.mk.inj hpair
        exact min_le_right _ _

/-- **Every round keeps what is known of a lookup.**

**Proof sketch.** By cases on the phase. A round that has callbacks dispatches them, each of which
keeps what is known; a round without any looks for a service that is recognized, or counts the time.
-/
theorem Inv.step {s s' : Lookup P} {r : Round} {out : List (ℕ × Callback)}
    (h : Inv decode deadline outs s) (hstep : step deadline decode s r = some (s', out)) :
    Inv decode deadline (outs ++ out) s' := by
  cases s with
  | done result => cases hstep
  | browsing b =>
    obtain ⟨hb, hnone⟩ := h
    have hstarted := hb.startNewResolves r.refused
    simp only [Ios.step] at hstep
    split at hstep
    · split at hstep
      · rename_i hcalls
        have hround : Inv decode deadline
            (outs ++ (Ios.browseRound deadline (b.startNewResolves r.refused).taken r).2)
            (Ios.browseRound deadline (b.startNewResolves r.refused).taken r).1 :=
          Inv.browseRound hstarted.taken hnone fun c hc => List.all_eq_true.1 hcalls c hc
        rwa [Option.some.inj hstep] at hround
      · cases hstep
    · rename_i answer answers hanswers
      rw [← hanswers] at hstep
      split at hstep
      · obtain ⟨rfl, rfl⟩ := Prod.mk.inj (Option.some.inj hstep)
        rw [List.append_nil]
        exact ⟨hstarted.taken, hnone⟩
      · rename_i payload hit hrec
        split at hstep
        · obtain ⟨rfl, rfl⟩ := Prod.mk.inj (Option.some.inj hstep)
          rw [List.append_nil]
          refine ⟨hstarted.recognize hrec, hnone.symm, le_rfl, fun _ => rfl, fun t c hc hadd => ?_⟩
          obtain ⟨ip, hip⟩ := Option.isSome_iff_exists.1 hadd
          have hin : ip ∈ addedIn outs := List.mem_filterMap.2 ⟨(t, c), hc, hip⟩
          rw [hnone] at hin
          exact absurd hin List.not_mem_nil
        · obtain ⟨rfl, rfl⟩ := Prod.mk.inj (Option.some.inj hstep)
          trivial
  | addressing payload hit outcome window =>
    obtain ⟨hrec, hips, hw⟩ := h
    simp only [Ios.step] at hstep
    split at hstep
    · obtain ⟨rfl, rfl⟩ := Prod.mk.inj (Option.some.inj hstep)
      rw [List.append_nil]
      cases hfound : finish payload hit outcome.ips with
      | none => trivial
      | some found => exact foundIn_of_finish hrec hips hfound
    · split at hstep
      · rename_i hcalls
        have hround := Inv.addrRound hrec hips hw fun c hc => List.all_eq_true.1 hcalls c hc
        rwa [Option.some.inj hstep] at hround
      · cases hstep

end Lookup

/-! ## A run -/

namespace Sample

/-- A caller that knows one label. -/
def decode (label content : String) : Option String := if label = "a1" then some content else none

/-- The daemon reports an instance in letters of another case, -/
def service : Reported := ⟨utf8 "A1", utf8 "_duocb-pin._udp", utf8 "local."⟩

/-- resolves it to this record, -/
def record : Bytes := txtString (entryBytes ("e", "x"))

/-- and adds an address of its host. -/
def round (i : ℕ) (call : Callback) : Round := ⟨i, i + 1, fun _ => false, 0, .ready [call] .all⟩

/-- The entries of the service's record. -/
def txt : TxtMap := AList.insert "e" "x" ∅

/-- What the lookup finds: the payload, and the address with its port. -/
def found : LanFound String := ⟨"x", [.v4 0x0a000007#32 4433]⟩

/-- The callbacks of the run, each with the number of its round. -/
def outs : List (ℕ × Callback) :=
  [(1, .browse FLAG_ADD 0 (some service)),
    (2, .resolve service.name 0 (some [104]) 4433 (some record)),
    (4, .addr FLAG_ADD 0 (some (.inet 0x0a000007#32)))]

/-- The browse while it resolves the instance, and after the answer. -/
def resolving (answer : Option ResolveAnswer) : Browse :=
  ⟨[], [⟨service.name, "a1", answer⟩], [service.name]⟩

/-- What is recognized in the answer. -/
def hit : Answer := ⟨"a1", "x", [104], 4433, none⟩

end Sample

end Ios

end Duocb
