import Alvs.Cp.Exec
import Alvs.Lib.Bytes
import Mathlib.Data.List.TakeWhile

/-!
# The start-up dump and the live messages

Services and destinations reach the database by two parsers of the same attributes : those of
the dump that is read when the application starts (`alvs_services_parse_cb`,
`alvs_dests_parse_cb`) and those of the messages that follow (`alvs_genl_parse_service`,
`alvs_genl_parse_dest`). They differ in what they read past a short address, in the protocol of
a firewall mark and in the flags of a destination.

`startup_agrees_iff` : the attributes on which they agree.
-/

namespace Alvs

open ProgLogic

/-! ## Attributes -/

/-- An attribute without a fixed length : its payload, and the memory that it is in, from its
payload on. -/
structure Nlattr where
  payload : List UInt8
  memory : ByteMem

/-- The memory that `nla_data` points to. -/
def Nlattr.data (a : Nlattr) : ByteMem := a.memory.store 0 a.payload

/-- A string that the policy lets pass : its last byte is 0, and it has at most
`IP_VS_SCHEDNAME_MAXLEN` bytes. -/
structure SchedNameAttr where
  payload : List UInt8
  terminated : payload.getLast? = some 0
  fits : payload.length ≤ 16

/-- `struct ip_vs_flags`. -/
structure IpVsFlags where
  flags : UInt32
  mask : UInt32
  deriving DecidableEq

/-- The attributes of a service, as `nla_parse_nested` leaves them with `alvs_svc_policy`. -/
structure SvcAttrs where
  af : Option UInt16
  protocol : Option UInt16
  addr : Option Nlattr
  port : Option UInt16
  fwmark : Option UInt32
  schedName : Option SchedNameAttr
  flags : Option IpVsFlags
  timeout : Option UInt32
  netmask : Option UInt32

/-- The attributes of a destination, with `alvs_dest_policy`. -/
structure DestAttrs where
  addr : Option Nlattr
  port : Option UInt16
  fwdMethod : Option UInt32
  weight : Option UInt32
  uThresh : Option UInt32
  lThresh : Option UInt32
  activeConns : Option UInt32
  inactConns : Option UInt32
  persistConns : Option UInt32

/-! ## What is copied -/

/-- The word of 4 bytes that the host, which is little-endian, has at the start of a memory. -/
def hostWord (m : ByteMem) : UInt32 := .ofNat (value (m.load 0 4).reverse)

/-- `memcpy` of 4 bytes from `nla_data`. -/
def Nlattr.memcpy (a : Nlattr) : UInt32 := hostWord a.data

/-- `nla_memcpy` to a word that is 0 : no more than the payload is copied. -/
def nlaMemcpy (a : Nlattr) : UInt32 :=
  hostWord (ByteMem.store (fun _ => 0) 0 (a.payload.take 4))

/-- The string in an array of bytes. -/
def cString (bs : List UInt8) : String :=
  .ofList ((bs.takeWhile (· ≠ 0)).map fun b => Char.ofNat b.toNat)

/-- `strncpy` to an array of `n` bytes. -/
def strncpy (n : Nat) (src : List UInt8) : List UInt8 :=
  let str := (src.takeWhile (· ≠ 0)).take n
  str ++ List.replicate (n - str.length) 0

/-- `memcpy` to an array of `n` bytes that are 0. -/
def memcpyZero (n : Nat) (src : List UInt8) : List UInt8 :=
  src ++ List.replicate (n - src.length) 0

/-! ## The parsers -/

/-- The outcome of a parser : -1, a read of an attribute that is not there, or a result. -/
inductive Parsed (α : Type)
  | error
  | fault
  | ok (a : α)

/-- The fields of a service that `struct ip_vs_service_user` and `struct ip_vs_service_entry`
have in common. -/
structure IpVsServiceEntry extends IpVsServiceUser where
  fwmark : UInt32
  timeout : UInt32
  netmask : UInt32

/-- `memset` to 0. -/
def IpVsServiceEntry.zero : IpVsServiceEntry := ⟨⟨0, 0, 0, "", 0⟩, 0, 0, 0⟩

/-- The address of the service, or its firewall mark, and nothing else. -/
def alvsServicesParseIdentity (a : SvcAttrs) : Option IpVsServiceEntry :=
  match a.fwmark, a.protocol, a.addr, a.port with
  | some fwmark, _, _, _ => some { IpVsServiceEntry.zero with fwmark := fwmark }
  | none, some protocol, some addr, some port =>
    some { IpVsServiceEntry.zero with
      protocol := protocol
      addr := addr.memcpy
      port := port }
  | none, _, _, _ => none

def alvsServicesParseCb (a : SvcAttrs) : Parsed IpVsServiceEntry :=
  match a.af, alvsServicesParseIdentity a, a.schedName, a.netmask, a.timeout, a.flags with
  | some _, some entry, some schedName, some netmask, some timeout, some flags =>
    .ok { entry with
      schedName := cString (strncpy 16 schedName.payload)
      netmask := netmask
      timeout := timeout
      flags := flags.flags &&& flags.mask }
  | _, _, _, _, _, _ => .error

/-- The fields of a destination that `struct ip_vs_dest_entry` and `struct ip_vs_dest_user` have
in common. -/
def alvsDestsParseCb (a : DestAttrs) : Parsed IpVsDestUser :=
  match a.addr, a.port, a.fwdMethod, a.weight, a.uThresh, a.lThresh, a.activeConns, a.inactConns,
    a.persistConns with
  | some addr, some port, some fwdMethod, some weight, some uThresh, some lThresh, some _, some _,
    some _ =>
    .ok {
      addr := addr.memcpy
      port := port
      connFlags := fwdMethod
      weight := weight.toInt32
      uThreshold := uThresh
      lThreshold := lThresh }
  | _, _, _, _, _, _, _, _, _ => .error

def afInet : UInt16 := 2

/-- `IPPROTO_TCP` in the 16 bits of a `protocol` field. -/
def IpVsServiceUser.ipprotoTcp : UInt16 := 6

/-- The flags of the service, those of `ipVsService` where it is not found. -/
def alvsDbGetServiceFlags (ipVsService : IpVsServiceUser) : CpProg UInt32 := do
  match ← internalDbGetService ipVsService.tuple with
  | some (some cpService) => pure cpService.flags
  | some none => pure ipVsService.flags
  | none => pure ipVsService.flags

/-- The identifying fields of `alvs_genl_parse_service`. -/
def alvsGenlParseIdentity (a : SvcAttrs) : Option IpVsServiceEntry :=
  match a.fwmark, a.port, a.protocol, a.addr with
  | some fwmark, _, _, _ =>
    some { IpVsServiceEntry.zero with
      protocol := IpVsServiceUser.ipprotoTcp
      fwmark := fwmark }
  | none, some port, some protocol, some addr =>
    some { IpVsServiceEntry.zero with
      protocol := protocol
      addr := nlaMemcpy addr
      port := port }
  | none, _, _, _ => none

def alvsGenlParseService (a : SvcAttrs) (needFullSvc : Bool) :
    CpProg (Parsed IpVsServiceEntry) := do
  match a.af, alvsGenlParseIdentity a with
  | some af, some entry =>
    if af ≠ afInet then
      return .error
    if needFullSvc then
      let existing ← alvsDbGetServiceFlags entry.toIpVsServiceUser
      match a.flags, a.schedName, a.timeout, a.netmask with
      | some flags, some schedName, some timeout, some netmask =>
        return .ok { entry with
          flags := (existing &&& ~~~flags.mask) ||| (flags.flags &&& flags.mask)
          schedName := cString (memcpyZero 16 schedName.payload)
          timeout := timeout
          netmask := netmask }
      | _, _, _, _ => return .fault
    else
      return .ok entry
  | _, _ => return .error

def alvsGenlParseDest (a : DestAttrs) (needFullDest : Bool) : Parsed IpVsDestUser :=
  match a.addr, a.port with
  | some addr, some port =>
    if needFullDest then
      match a.fwdMethod, a.weight, a.uThresh, a.lThresh with
      | some fwdMethod, some weight, some uThresh, some lThresh =>
        .ok {
          addr := nlaMemcpy addr
          port := port
          connFlags := fwdMethod &&& ipVsConnFFwdMask
          weight := weight.toInt32
          uThreshold := uThresh
          lThreshold := lThresh }
      | _, _, _, _ => .fault
    else
      .ok ⟨nlaMemcpy addr, port, 0, 0, 0, 0⟩
  | _, _ => .error

/-! ## Where the copies agree -/

theorem takeWhile_of_getLast {p : List UInt8} (h : p.getLast? = some 0) (l : List UInt8) :
    (p ++ l).takeWhile (· ≠ 0) = p.takeWhile (· ≠ 0) := by
  have hmem : (0 : UInt8) ∈ p := List.mem_of_getLast? h
  rw [List.takeWhile_append, if_neg fun hlen => ?_]
  have hall : p.takeWhile (· ≠ 0) = p := (List.takeWhile_prefix _).eq_of_length hlen
  have hne := List.takeWhile_eq_self_iff.mp hall 0 hmem
  simp at hne

/-- A name that is terminated is copied as a string by both. -/
theorem SchedNameAttr.cString_eq (a : SchedNameAttr) :
    cString (strncpy 16 a.payload) = cString (memcpyZero 16 a.payload) := by
  have hlen : (a.payload.takeWhile (· ≠ 0)).length ≤ 16 :=
    (List.takeWhile_prefix _).length_le.trans a.fits
  have hstr : (strncpy 16 a.payload).takeWhile (· ≠ 0) = a.payload.takeWhile (· ≠ 0) := by
    have hpos : ∀ b ∈ a.payload.takeWhile (· ≠ 0), decide (b ≠ 0) = true :=
      fun b hb => List.mem_takeWhile_imp (p := fun b : UInt8 => decide (b ≠ 0)) hb
    rw [strncpy, List.take_of_length_le hlen, List.takeWhile_append_of_pos hpos]
    simp
  rw [cString, cString, hstr, memcpyZero, takeWhile_of_getLast a.terminated]

theorem hostWord_eq_iff {m m' : ByteMem} : hostWord m = hostWord m' ↔ ∀ i < 4, m i = m' i := by
  constructor
  · intro h
    have hlt (m : ByteMem) : value (m.load 0 4).reverse < 2 ^ 32 := by
      simpa using value_lt (m.load 0 4).reverse
    have hvalue : value (m.load 0 4).reverse = value (m'.load 0 4).reverse := by
      have hnat := congrArg UInt32.toNat h
      rwa [hostWord, hostWord, UInt32.toNat_ofNat', UInt32.toNat_ofNat',
        Nat.mod_eq_of_lt (hlt m), Nat.mod_eq_of_lt (hlt m')] at hnat
    have hload : m.load 0 4 = m'.load 0 4 := by
      have hbytes := congrArg (bigEndian 4) hvalue
      rw [bigEndian_value (by simp), bigEndian_value (by simp)] at hbytes
      exact List.reverse_injective hbytes
    simp only [ByteMem.load, List.cons.injEq, and_true, Nat.zero_add] at hload
    intro i hi
    obtain rfl | rfl | rfl | rfl : i = 0 ∨ i = 1 ∨ i = 2 ∨ i = 3 := by omega
    · exact hload.1
    · exact hload.2.1
    · exact hload.2.2.1
    · exact hload.2.2.2
  · intro h
    rw [hostWord, hostWord, ByteMem.load_congr fun i _ hi => h i (by omega)]

/-- What follows a payload of less than 4 bytes is 0, up to 4 bytes. -/
def Nlattr.ZeroBeyond (a : Nlattr) : Prop := ∀ i < 4, a.payload.length ≤ i → a.memory i = 0

/-- The two copies of an address agree where nothing else follows a short one. -/
theorem Nlattr.memcpy_eq_iff (a : Nlattr) : a.memcpy = nlaMemcpy a ↔ a.ZeroBeyond := by
  rw [memcpy, nlaMemcpy, hostWord_eq_iff]
  refine forall_congr' fun i => forall_congr' fun hi => ?_
  simp only [data, ByteMem.store, Nat.zero_le, if_true, Nat.sub_zero, List.getElem?_take, hi]
  by_cases hlen : i < a.payload.length
  · simp [hlen, Nat.not_le.mpr hlen]
  · simp [hlen, Nat.not_lt.mp hlen]

/-! ## Where the parsers agree -/

section Agree

variable {e : CpEnv} {s : Sys} {a : SvcAttrs} {d : DestAttrs} {svc svc' : IpVsServiceEntry}
  {dest dest' : IpVsDestUser}

/-- A service that the parser of the dump returns. -/
theorem servicesParse_ok (h : alvsServicesParseCb a = .ok svc) :
    ∃ entry name netmask timeout flags, alvsServicesParseIdentity a = some entry ∧
      a.schedName = some name ∧ a.netmask = some netmask ∧ a.timeout = some timeout ∧
      a.flags = some flags ∧ svc = { entry with
        schedName := cString (strncpy 16 name.payload)
        netmask := netmask
        timeout := timeout
        flags := flags.flags &&& flags.mask } := by
  unfold alvsServicesParseCb at h
  split at h
  next entry name netmask timeout flags _ hentry hname hnetmask htimeout hflags =>
    cases h
    exact ⟨entry, name, netmask, timeout, flags, hentry, hname, hnetmask, htimeout, hflags, rfl⟩
  next => cases h

/-- The flags of a service that is not in the database. -/
theorem serviceFlags_of_new {u : IpVsServiceUser} (hnew : s.cp.findService u.tuple = none) :
    (alvsDbGetServiceFlags u).exec (cpHandle e) s = (u.flags, s) := by
  have hget : (internalDbGetService u.tuple).exec (cpHandle e) s =
      (if e.fails then none else some none, s) := by
    change cpHandle e (.internalDbGetService u.tuple) s = _
    simp only [cpHandle, Sys.answer, hnew]
    rfl
  rw [alvsDbGetServiceFlags, Prog.exec_bind, hget]
  cases e.fails <;> rfl

/-- A new service that the parser of live messages returns. -/
theorem genlParseService_ok
    (h : ((alvsGenlParseService a true).exec (cpHandle e) s).1 = .ok svc')
    (hnew : s.cp.findService svc'.tuple = none) :
    ∃ entry name netmask timeout flags, alvsGenlParseIdentity a = some entry ∧
      a.schedName = some name ∧ a.netmask = some netmask ∧ a.timeout = some timeout ∧
      a.flags = some flags ∧ svc' = { entry with
        flags := (entry.flags &&& ~~~flags.mask) ||| (flags.flags &&& flags.mask)
        schedName := cString (memcpyZero 16 name.payload)
        timeout := timeout
        netmask := netmask } := by
  unfold alvsGenlParseService at h
  split at h
  next af entry _ hentry =>
    rw [Prog.exec_ite] at h
    split at h
    · cases h
    · simp only [if_true, Prog.exec_bind] at h
      generalize hexisting : (alvsDbGetServiceFlags entry.toIpVsServiceUser).exec (cpHandle e) s =
        existing at h
      split at h
      next flags name timeout netmask hflags hname htimeout hnetmask =>
        obtain rfl := Parsed.ok.inj h
        have hentryNew : s.cp.findService entry.toIpVsServiceUser.tuple = none := hnew
        obtain rfl := (serviceFlags_of_new hentryNew).symm.trans hexisting
        exact ⟨entry, name, netmask, timeout, flags, hentry, hname, hnetmask, htimeout, hflags, rfl⟩
      next => cases h
  next => cases h

/-- What identifies the service in the dump and in a live message. -/
theorem identity_cases {entry entry' : IpVsServiceEntry}
    (h : alvsServicesParseIdentity a = some entry) (h' : alvsGenlParseIdentity a = some entry') :
    (∃ fwmark, a.fwmark = some fwmark ∧
      entry = { IpVsServiceEntry.zero with fwmark := fwmark } ∧
      entry' = { IpVsServiceEntry.zero with
        protocol := IpVsServiceUser.ipprotoTcp
        fwmark := fwmark }) ∨
    ∃ addr protocol port, a.fwmark = none ∧ a.addr = some addr ∧
      entry = { IpVsServiceEntry.zero with
        protocol := protocol
        addr := addr.memcpy
        port := port } ∧
      entry' = { IpVsServiceEntry.zero with
        protocol := protocol
        addr := nlaMemcpy addr
        port := port } := by
  unfold alvsServicesParseIdentity at h
  unfold alvsGenlParseIdentity at h'
  cases hfwmark : a.fwmark with
  | some fwmark =>
    simp only [hfwmark, Option.some.injEq] at h h'
    exact .inl ⟨fwmark, rfl, h.symm, h'.symm⟩
  | none =>
    rw [hfwmark] at h h'
    cases hprotocol : a.protocol <;> cases haddr : a.addr <;> cases hport : a.port <;>
      simp only [hprotocol, haddr, hport, Option.some.injEq, reduceCtorEq] at h h'
    exact .inr ⟨_, _, _, rfl, rfl, h.symm, h'.symm⟩

/-- The parsers agree on a new service that is named by an address of 4 bytes. -/
theorem services_agree_iff (h : alvsServicesParseCb a = .ok svc)
    (h' : ((alvsGenlParseService a true).exec (cpHandle e) s).1 = .ok svc')
    (hnew : s.cp.findService svc'.tuple = none) :
    svc = svc' ↔ a.fwmark = none ∧ ∀ addr ∈ a.addr, addr.ZeroBeyond := by
  obtain ⟨entry, name, netmask, timeout, flags, hentry, hname, hnetmask, htimeout, hflags, rfl⟩ :=
    servicesParse_ok h
  obtain ⟨entry', name', netmask', timeout', flags', hentry', hname', hnetmask', htimeout',
    hflags', rfl⟩ := genlParseService_ok h' hnew
  obtain rfl := Option.some.inj (hname.symm.trans hname')
  obtain rfl := Option.some.inj (hnetmask.symm.trans hnetmask')
  obtain rfl := Option.some.inj (htimeout.symm.trans htimeout')
  obtain rfl := Option.some.inj (hflags.symm.trans hflags')
  obtain ⟨fwmark, hfwmark, rfl, rfl⟩ | ⟨addr, protocol, port, hfwmark, haddr, rfl, rfl⟩ :=
    identity_cases hentry hentry'
  · refine iff_of_false (fun heq => ?_) (by simp [hfwmark])
    have hprotocol : (0 : UInt16) = IpVsServiceUser.ipprotoTcp := congrArg (·.protocol) heq
    exact absurd hprotocol (by decide)
  · rw [name.cString_eq]
    simp [hfwmark, haddr, addr.memcpy_eq_iff, IpVsServiceEntry.zero]

/-- A destination that the parser of the dump returns. -/
theorem destsParse_ok (h : alvsDestsParseCb d = .ok dest) :
    ∃ addr port fwdMethod weight uThresh lThresh, d.addr = some addr ∧ d.port = some port ∧
      d.fwdMethod = some fwdMethod ∧ d.weight = some weight ∧ d.uThresh = some uThresh ∧
      d.lThresh = some lThresh ∧
      dest = ⟨addr.memcpy, port, fwdMethod, weight.toInt32, uThresh, lThresh⟩ := by
  unfold alvsDestsParseCb at h
  split at h
  next haddr hport hfwd hweight hu hl _ _ _ =>
    cases h
    exact ⟨_, _, _, _, _, _, haddr, hport, hfwd, hweight, hu, hl, rfl⟩
  next => cases h

/-- The parsers agree on a destination whose forwarding method has no other flags and whose
address has 4 bytes. -/
theorem dests_agree_iff (h : alvsDestsParseCb d = .ok dest)
    (h' : alvsGenlParseDest d true = .ok dest') :
    dest = dest' ↔ (∀ fwdMethod ∈ d.fwdMethod, fwdMethod &&& ipVsConnFFwdMask = fwdMethod) ∧
      ∀ addr ∈ d.addr, addr.ZeroBeyond := by
  obtain ⟨addr, port, fwdMethod, weight, uThresh, lThresh, haddr, hport, hfwd, hweight, hu, hl,
    rfl⟩ := destsParse_ok h
  simp only [alvsGenlParseDest, haddr, hport, if_true, hfwd, hweight, hu, hl] at h'
  obtain rfl := Parsed.ok.inj h'
  simp only [IpVsDestUser.mk.injEq, addr.memcpy_eq_iff, hfwd, haddr, Option.mem_some_iff,
    forall_eq', true_and, and_true]
  rw [and_comm, @eq_comm _ fwdMethod]

/-- The parsers of the dump and of the live messages agree on a service that is new and a
destination, which both accept, exactly if the service is not named by a firewall mark, no
other flags come with the forwarding method, and nothing but 0 follows an address of less
than 4 bytes. -/
theorem startup_agrees_iff (hsvc : alvsServicesParseCb a = .ok svc)
    (hsvc' : ((alvsGenlParseService a true).exec (cpHandle e) s).1 = .ok svc')
    (hnew : s.cp.findService svc'.tuple = none) (hdest : alvsDestsParseCb d = .ok dest)
    (hdest' : alvsGenlParseDest d true = .ok dest') :
    (svc = svc' ∧ dest = dest') ↔
      (a.fwmark = none ∧ ∀ addr ∈ a.addr, addr.ZeroBeyond) ∧
      (∀ fwdMethod ∈ d.fwdMethod, fwdMethod &&& ipVsConnFFwdMask = fwdMethod) ∧
      ∀ addr ∈ d.addr, addr.ZeroBeyond :=
  and_congr (services_agree_iff hsvc hsvc' hnew) (dests_agree_iff hdest hdest')

end Agree

/-! ## Examples -/

/-- An address of 4 bytes. -/
def exampleAddr : Nlattr := ⟨[10, 0, 0, 1], fun _ => 0⟩

/-- A service with the address and, where it is given, a firewall mark. -/
def exampleSvcAttrs (fwmark : Option UInt32) : SvcAttrs where
  af := some afInet
  protocol := some IpVsServiceUser.ipprotoTcp
  addr := some exampleAddr
  port := some 80
  fwmark := fwmark
  schedName := some ⟨[114, 114, 0], rfl, by decide⟩
  flags := some ⟨0, 0xffffffff⟩
  timeout := some 0
  netmask := some 0xffffffff

def exampleDestAttrs : DestAttrs :=
  ⟨some exampleAddr, some 80, some ipVsConnFDroute, some 1, some 0, some 0, some 0, some 0, some 0⟩

/-- What both parsers return of the service with the address. -/
def exampleSvcEntry : IpVsServiceEntry :=
  ⟨⟨6, 0x0100000a, 80, "rr", 0⟩, 0, 0, 0xffffffff⟩

theorem startup_agrees_iff_addr :
    (exampleSvcEntry = exampleSvcEntry ∧
      (⟨0x0100000a, 80, ipVsConnFDroute, 1, 0, 0⟩ : IpVsDestUser) =
        ⟨0x0100000a, 80, ipVsConnFDroute, 1, 0, 0⟩) ↔
      ((exampleSvcAttrs none).fwmark = none ∧
        ∀ addr ∈ (exampleSvcAttrs none).addr, addr.ZeroBeyond) ∧
      (∀ fwdMethod ∈ exampleDestAttrs.fwdMethod, fwdMethod &&& ipVsConnFFwdMask = fwdMethod) ∧
      ∀ addr ∈ exampleDestAttrs.addr, addr.ZeroBeyond :=
  @startup_agrees_iff (cpOk 0) Sys.init (exampleSvcAttrs none) exampleDestAttrs exampleSvcEntry
    exampleSvcEntry _ _ rfl rfl rfl rfl rfl

/-- The protocol of a firewall mark is 0 in the dump. -/
theorem startup_agrees_fails :
    ¬ ∀ (e : CpEnv) (s : Sys) (a : SvcAttrs) (d : DestAttrs) (svc svc' : IpVsServiceEntry)
      (dest dest' : IpVsDestUser), alvsServicesParseCb a = .ok svc →
      ((alvsGenlParseService a true).exec (cpHandle e) s).1 = .ok svc' →
      s.cp.findService svc'.tuple = none → alvsDestsParseCb d = .ok dest →
      alvsGenlParseDest d true = .ok dest' → svc = svc' ∧ dest = dest' := by
  intro h
  have hsame := h (cpOk 0) Sys.init (exampleSvcAttrs (some 1)) exampleDestAttrs
    ⟨⟨0, 0, 0, "rr", 0⟩, 1, 0, 0xffffffff⟩ ⟨⟨6, 0, 0, "rr", 0⟩, 1, 0, 0xffffffff⟩
    ⟨0x0100000a, 80, ipVsConnFDroute, 1, 0, 0⟩ ⟨0x0100000a, 80, ipVsConnFDroute, 1, 0, 0⟩
    rfl rfl rfl rfl rfl
  exact absurd (congrArg (·.protocol) hsame.1) (by decide)

end Alvs
