import Alvs.Defs
import Alvs.Lib.Runs

/-!
# The ARP table

The network thread follows the neighbours of the kernel, which are told apart by interface and
address, in an ARP table that is keyed by the address alone. The table is filled from the
neighbours that are there when the thread starts (`nw_db_manager_arp_table_init`), and then
`nw_db_manager_arp_cb` is called for each change.

An entry is removed with any neighbour of its address that goes or becomes invalid.
`arpMirror_iff` : the table mirrors the valid neighbours in a run exactly if no such neighbour
leaves a valid one of the same address behind.
-/

namespace Alvs

open ProgLogic

/-! ## Neighbours -/

/-- The address of a neighbour, that of `AF_INET` as the 4 bytes that are read of it. -/
inductive NeighAddr
  | inet (addr : UInt32)
  | other (family : UInt8) (addr : List UInt8)
  deriving DecidableEq

/-- A link layer address of 6 bytes. -/
abbrev EtherAddr := BitVec 48

/-- What the accessors of libnl read of a `struct rtnl_neigh`. -/
structure RtnlNeigh where
  ifindex : UInt32
  dst : NeighAddr
  lladdr : EtherAddr
  state : UInt32
  deriving DecidableEq

/-- What the kernel tells neighbours apart by. -/
abbrev NeighKey := UInt32 × NeighAddr

def RtnlNeigh.key (n : RtnlNeigh) : NeighKey := (n.ifindex, n.dst)

def nudNone : UInt32 := 0x00
def nudIncomplete : UInt32 := 0x01
def nudReachable : UInt32 := 0x02
def nudFailed : UInt32 := 0x20
def nudNoarp : UInt32 := 0x40

def nwDbManagerNeighborFilteredState : UInt32 := nudIncomplete ||| nudFailed ||| nudNoarp

def validNeighbor (neighbor : RtnlNeigh) : Bool :=
  neighbor.state &&& nwDbManagerNeighborFilteredState = 0 && neighbor.state ≠ nudNone

/-! ## The ARP table -/

/-- `struct nw_arp_result`. -/
structure NwArpResult where
  baseLogicalId : UInt8
  destMacAddr : EtherAddr
  deriving DecidableEq

inductive ArpCall
  | infraAddEntry (key : UInt32) (result : NwArpResult)
  | infraDeleteEntry (key : UInt32)

/-- Whether the call succeeds. -/
def ArpCall.Res (_ : ArpCall) : Type := Bool

abbrev ArpProg := Prog ArpCall ArpCall.Res

abbrev ArpTable := UInt32 → Option NwArpResult

/-- The effect of a call that succeeds. An entry that is there is replaced when it is added, and
deleting an entry that is not there changes nothing. -/
def arpHandle : (op : ArpCall) → ArpTable → op.Res × ArpTable
  | .infraAddEntry key result, arp => (true, Function.update arp key (some result))
  | .infraDeleteEntry key, arp => (true, Function.update arp key none)

/-- The result of `neighbor_to_arp_entry`. -/
def RtnlNeigh.arpResult (neighbor : RtnlNeigh) : NwArpResult where
  baseLogicalId := 0
  destMacAddr := neighbor.lladdr

/-- A call that fails ends the application, so the programs return whether it goes on. -/
def addEntryToArpTable (addr : UInt32) (neighbor : RtnlNeigh) : ArpProg Bool :=
  Prog.perform (ArpCall.infraAddEntry addr neighbor.arpResult)

def removeEntryFromArpTable (addr : UInt32) : ArpProg Bool :=
  Prog.perform (ArpCall.infraDeleteEntry addr)

/-- The actions of libnl on a neighbour. -/
inductive NlAct
  | new
  | del
  | change
  deriving DecidableEq

/-- Neighbours of other families are only logged. -/
def nwDbManagerArpCb (neighbor : RtnlNeigh) (action : NlAct) : ArpProg Bool :=
  match neighbor.dst with
  | .other _ _ => pure true
  | .inet addr =>
    match action with
    | .new => if validNeighbor neighbor then addEntryToArpTable addr neighbor else pure true
    | .del => removeEntryFromArpTable addr
    | .change =>
      if validNeighbor neighbor then addEntryToArpTable addr neighbor
      else removeEntryFromArpTable addr

/-- The loop of `nw_db_manager_arp_table_init` over the neighbours of `AF_INET`. -/
def nwDbManagerArpTableInit : List RtnlNeigh → ArpProg Bool
  | [] => pure true
  | neighbor :: neighbors =>
    match neighbor.dst with
    | .other _ _ => nwDbManagerArpTableInit neighbors
    | .inet addr =>
      if validNeighbor neighbor then do
        if ← addEntryToArpTable addr neighbor then nwDbManagerArpTableInit neighbors
        else pure false
      else nwDbManagerArpTableInit neighbors

/-! ## The neighbours of the kernel -/

/-- The neighbours of the kernel, each under its key. -/
structure NeighTable where
  entry : NeighKey → Option RtnlNeigh
  key_eq : ∀ k n, entry k = some n → n.key = k

namespace NeighTable

def empty : NeighTable := ⟨fun _ => none, nofun⟩

def set (t : NeighTable) (n : RtnlNeigh) : NeighTable where
  entry := Function.update t.entry n.key (some n)
  key_eq k n' h := by
    by_cases hk : k = n.key
    · rw [hk, Function.update_self] at h
      rw [hk, Option.some.inj h]
    · rw [Function.update_of_ne hk] at h
      exact t.key_eq k n' h

def erase (t : NeighTable) (k : NeighKey) : NeighTable where
  entry := Function.update t.entry k none
  key_eq k' n h := by
    by_cases hk : k' = k
    · rw [hk, Function.update_self] at h
      cases h
    · rw [Function.update_of_ne hk] at h
      exact t.key_eq k' n h

/-- A neighbour of the table with IPv4 address `addr` in a valid state. -/
structure Valid (t : NeighTable) (addr : UInt32) (n : RtnlNeigh) : Prop where
  mem : t.entry n.key = some n
  dst : n.dst = .inet addr
  valid : validNeighbor n = true

end NeighTable

/-- A change that libnl reports. -/
structure NeighEvent where
  neighbor : RtnlNeigh
  action : NlAct
  deriving DecidableEq

/-- The neighbours of the kernel and the ARP table. -/
structure ArpSystem where
  neighs : NeighTable
  arp : ArpTable

namespace ArpSystem

def init : ArpSystem := ⟨.empty, fun _ => none⟩

def step (s : ArpSystem) (ev : NeighEvent) : ArpSystem where
  neighs :=
    match ev.action with
    | .new | .change => s.neighs.set ev.neighbor
    | .del => s.neighs.erase ev.neighbor.key
  arp := ((nwDbManagerArpCb ev.neighbor ev.action).exec arpHandle s.arp).2

/-- The change is one of the table : a new neighbour was not there, and one that is changed or
deleted was. -/
def Consistent (s : ArpSystem) (ev : NeighEvent) : Prop :=
  match ev.action with
  | .new => s.neighs.entry ev.neighbor.key = none
  | .change => s.neighs.entry ev.neighbor.key ≠ none
  | .del => s.neighs.entry ev.neighbor.key = some ev.neighbor

end ArpSystem

/-- An address has an entry exactly if it has a valid neighbour, and the entry has the link
layer address of one. -/
structure ArpMirror (t : NeighTable) (arp : ArpTable) : Prop where
  present : ∀ addr n, t.Valid addr n → arp addr ≠ none
  entry : ∀ addr r, arp addr = some r → ∃ n, t.Valid addr n ∧ r.destMacAddr = n.lladdr

/-- The entry of the address is removed. -/
def NeighEvent.Removes (ev : NeighEvent) : Prop :=
  ev.action = .del ∨ ev.action = .change ∧ validNeighbor ev.neighbor = false

/-- No other neighbour is valid under an address whose entry is removed. -/
def ArpSystem.LeavesNone (s : ArpSystem) (ev : NeighEvent) : Prop :=
  ev.Removes → ∀ addr n, ev.neighbor.dst = .inet addr → s.neighs.Valid addr n →
    n.key = ev.neighbor.key

/-! ## One change -/

section Step

variable {t t' : NeighTable} {arp : ArpTable} {n n' : RtnlNeigh} {addr addr' : UInt32}

namespace NeighTable

theorem Valid.addr_eq (h : t.Valid addr n) (h' : t'.Valid addr' n') (hk : n.key = n'.key) :
    addr = addr' := by
  have hdst : n.dst = n'.dst := congrArg Prod.snd hk
  exact NeighAddr.inet.inj (h.dst.symm.trans (hdst.trans h'.dst))

theorem valid_set : (t.set n).Valid addr n' ↔
    n' = n ∧ n.dst = .inet addr ∧ validNeighbor n = true ∨ n'.key ≠ n.key ∧ t.Valid addr n' := by
  constructor
  · rintro ⟨hmem, hdst, hvalid⟩
    by_cases hk : n'.key = n.key
    · obtain rfl : n = n' := by
        have hself : (t.set n).entry n'.key = some n := by
          rw [hk]
          exact Function.update_self ..
        exact Option.some.inj (hself.symm.trans hmem)
      exact .inl ⟨rfl, hdst, hvalid⟩
    · exact .inr ⟨hk, (Function.update_of_ne hk _ _).symm.trans hmem, hdst, hvalid⟩
  · rintro (⟨rfl, hdst, hvalid⟩ | ⟨hk, h⟩)
    · exact ⟨Function.update_self .., hdst, hvalid⟩
    · exact ⟨(Function.update_of_ne hk _ _).trans h.mem, h.dst, h.valid⟩

/-- A neighbour that is not valid. -/
theorem valid_set_of_not (hn : ¬ (n.dst = .inet addr ∧ validNeighbor n = true)) :
    (t.set n).Valid addr n' ↔ n'.key ≠ n.key ∧ t.Valid addr n' :=
  valid_set.trans (or_iff_right fun h => hn h.2)

theorem valid_erase {k : NeighKey} : (t.erase k).Valid addr n' ↔ n'.key ≠ k ∧ t.Valid addr n' := by
  constructor
  · rintro ⟨hmem, hdst, hvalid⟩
    by_cases hk : n'.key = k
    · have hself : (t.erase k).entry n'.key = none := by
        rw [hk]
        exact Function.update_self ..
      rw [hself] at hmem
      cases hmem
    · exact ⟨hk, (Function.update_of_ne hk _ _).symm.trans hmem, hdst, hvalid⟩
  · rintro ⟨hk, h⟩
    exact ⟨(Function.update_of_ne hk _ _).trans h.mem, h.dst, h.valid⟩

end NeighTable

namespace ArpMirror

/-- A change of what is not valid. -/
theorem congr (h : ArpMirror t arp) (hvalid : ∀ addr n, t'.Valid addr n ↔ t.Valid addr n) :
    ArpMirror t' arp where
  present addr n hn := h.present addr n ((hvalid addr n).mp hn)
  entry addr r hr := by
    obtain ⟨n, hn, hmac⟩ := h.entry addr r hr
    exact ⟨n, (hvalid addr n).mpr hn, hmac⟩

/-- The entry of a valid neighbour is written. -/
theorem added (h : ArpMirror t arp) (hdst : n.dst = .inet addr) (hvalid : validNeighbor n = true) :
    ArpMirror (t.set n) (Function.update arp addr (some n.arpResult)) := by
  have hn : (t.set n).Valid addr n := NeighTable.valid_set.mpr (.inl ⟨rfl, hdst, hvalid⟩)
  refine ⟨fun addr' n' hn' => ?_, fun addr' r hr => ?_⟩
  · by_cases haddr : addr' = addr
    · simp [haddr]
    · rw [Function.update_of_ne haddr]
      obtain ⟨rfl, -, -⟩ | ⟨-, hn'⟩ := NeighTable.valid_set.mp hn'
      · exact absurd (hn'.addr_eq hn rfl) haddr
      · exact h.present addr' n' hn'
  · by_cases haddr : addr' = addr
    · subst haddr
      rw [Function.update_self] at hr
      obtain rfl := Option.some.inj hr
      exact ⟨n, hn, rfl⟩
    · rw [Function.update_of_ne haddr] at hr
      obtain ⟨n', hn', hmac⟩ := h.entry addr' r hr
      exact ⟨n', NeighTable.valid_set.mpr (.inr ⟨fun hk => haddr (hn'.addr_eq hn hk), hn'⟩), hmac⟩

/-- The entry of the address of a neighbour that is no longer valid is removed. -/
theorem removed_iff (h : ArpMirror t arp) (hdst : n.dst = .inet addr)
    (hvalid : ∀ addr n', t'.Valid addr n' ↔ n'.key ≠ n.key ∧ t.Valid addr n') :
    ArpMirror t' (Function.update arp addr none) ↔ ∀ n', t.Valid addr n' → n'.key = n.key := by
  constructor
  · intro hm n' hn'
    by_contra hk
    exact hm.present addr n' ((hvalid addr n').mpr ⟨hk, hn'⟩) (Function.update_self ..)
  · intro hnone
    refine ⟨fun addr' n' hn' => ?_, fun addr' r hr => ?_⟩
    · obtain ⟨hk, hn'⟩ := (hvalid addr' n').mp hn'
      by_cases haddr : addr' = addr
      · subst haddr
        exact absurd (hnone n' hn') hk
      · rw [Function.update_of_ne haddr]
        exact h.present addr' n' hn'
    · by_cases haddr : addr' = addr
      · rw [haddr, Function.update_self] at hr
        cases hr
      · rw [Function.update_of_ne haddr] at hr
        obtain ⟨n', hn', hmac⟩ := h.entry addr' r hr
        refine ⟨n', (hvalid addr' n').mpr ⟨fun hk => haddr ?_, hn'⟩, hmac⟩
        have hdst' : n'.dst = n.dst := congrArg Prod.snd hk
        exact NeighAddr.inet.inj (hn'.dst.symm.trans (hdst'.trans hdst))

end ArpMirror

end Step

def ArpSystem.Mirrors (s : ArpSystem) : Prop := ArpMirror s.neighs s.arp

section Change

variable {s : ArpSystem} {n : RtnlNeigh} {addr : UInt32}

/-- A neighbour that is new or not valid leaves the others valid. -/
theorem NeighTable.valid_set_fresh {t : NeighTable} {addr : UInt32} {n' : RtnlNeigh}
    (hnone : t.entry n.key = none) (hn : ¬ (n.dst = .inet addr ∧ validNeighbor n = true)) :
    (t.set n).Valid addr n' ↔ t.Valid addr n' := by
  refine (NeighTable.valid_set_of_not hn).trans (and_iff_right_of_imp fun h hk => ?_)
  have hmem := h.mem
  rw [hk, hnone] at hmem
  cases hmem

/-- Neighbours of other families are not valid. -/
theorem NeighTable.Valid.key_ne_of_other {t : NeighTable} {n' : RtnlNeigh} {k : NeighKey}
    {family : UInt8} {bytes : List UInt8} (h : t.Valid addr n')
    (hk : k.2 = .other family bytes) : n'.key ≠ k := by
  intro hkey
  have hdst : n'.dst = k.2 := congrArg Prod.snd hkey
  rw [h.dst, hk] at hdst
  cases hdst

theorem mirrors_other (h : s.Mirrors) {family : UInt8} {bytes : List UInt8}
    (hdst : n.dst = .other family bytes) (action : NlAct) : (s.step ⟨n, action⟩).Mirrors := by
  have harp : (s.step ⟨n, action⟩).arp = s.arp := by
    simp only [ArpSystem.step, nwDbManagerArpCb, hdst]
    rfl
  have hset (addr : UInt32) (n' : RtnlNeigh) :
      (s.neighs.set n).Valid addr n' ↔ s.neighs.Valid addr n' :=
    (NeighTable.valid_set_of_not (by simp [hdst])).trans
      (and_iff_right_of_imp fun h => h.key_ne_of_other hdst)
  unfold ArpSystem.Mirrors
  rw [harp]
  refine ArpMirror.congr h ?_
  cases action with
  | new => exact hset
  | change => exact hset
  | del =>
    exact fun _ _ => NeighTable.valid_erase.trans
      (and_iff_right_of_imp fun h => h.key_ne_of_other hdst)

/-- A change keeps the mirror exactly if it leaves no valid neighbour without an entry. -/
theorem mirrors_step_iff (h : s.Mirrors) {ev : NeighEvent} (hc : s.Consistent ev) :
    (s.step ev).Mirrors ↔ s.LeavesNone ev := by
  obtain ⟨n, action⟩ := ev
  cases hdst : n.dst with
  | other family bytes =>
    exact iff_of_true (mirrors_other h hdst action) fun _ addr _ hinet => by
      rw [hdst] at hinet
      cases hinet
  | inet addr =>
    have hleaves (hr : NeighEvent.Removes ⟨n, action⟩) : s.LeavesNone ⟨n, action⟩ ↔
        ∀ n', s.neighs.Valid addr n' → n'.key = n.key := by
      refine ⟨fun hl n' => hl hr addr n' hdst, fun hl _ addr' n' hdst' hn' => hl n' ?_⟩
      obtain rfl := NeighAddr.inet.inj (hdst.symm.trans hdst')
      exact hn'
    have hadded (hvalid : validNeighbor n = true) (hact : action ≠ .del) :
        (s.step ⟨n, action⟩).Mirrors := by
      cases action with
      | del => exact absurd rfl hact
      | new | change =>
        unfold ArpSystem.Mirrors ArpSystem.step nwDbManagerArpCb
        simp only [hdst, hvalid, if_true]
        exact h.added hdst hvalid
    cases action with
    | del =>
      refine Iff.trans ?_ (hleaves (.inl rfl)).symm
      unfold ArpSystem.Mirrors ArpSystem.step nwDbManagerArpCb
      rw [hdst]
      exact h.removed_iff hdst fun _ _ => NeighTable.valid_erase
    | new =>
      refine iff_of_true ?_ fun hr => by obtain hr | ⟨hr, -⟩ := hr <;> cases hr
      by_cases hvalid : validNeighbor n = true
      · exact hadded hvalid nofun
      · unfold ArpSystem.Mirrors ArpSystem.step nwDbManagerArpCb
        simp only [hdst, hvalid]
        exact ArpMirror.congr h fun _ _ => NeighTable.valid_set_fresh hc fun hn => hvalid hn.2
    | change =>
      by_cases hvalid : validNeighbor n = true
      · refine iff_of_true (hadded hvalid nofun) fun hr => ?_
        obtain hr | ⟨-, hr⟩ := hr
        · cases hr
        · rw [hvalid] at hr
          cases hr
      · refine Iff.trans ?_ (hleaves (.inr ⟨rfl, Bool.not_eq_true _ ▸ hvalid⟩)).symm
        unfold ArpSystem.Mirrors ArpSystem.step nwDbManagerArpCb
        simp only [hdst, hvalid]
        exact h.removed_iff hdst fun _ _ => NeighTable.valid_set_of_not fun hn => hvalid hn.2

end Change

/-! ## Runs -/

/-- The neighbours that libnl lists when the thread starts. -/
def NeighTable.ofCache (cache : List RtnlNeigh) : NeighTable := cache.foldl set empty

/-- After the initialization of the table. -/
def ArpSystem.start (cache : List RtnlNeigh) : ArpSystem where
  neighs := .ofCache cache
  arp := ((nwDbManagerArpTableInit cache).exec arpHandle fun _ => none).2

/-- The loop over the neighbours does what they would do as new neighbours. -/
theorem exec_arpTableInit_cons (n : RtnlNeigh) (cache : List RtnlNeigh) (arp : ArpTable) :
    ((nwDbManagerArpTableInit (n :: cache)).exec arpHandle arp).2 =
      ((nwDbManagerArpTableInit cache).exec arpHandle
        ((nwDbManagerArpCb n .new).exec arpHandle arp).2).2 := by
  rw [nwDbManagerArpTableInit, nwDbManagerArpCb]
  cases n.dst with
  | other family bytes => rfl
  | inet addr => by_cases hvalid : validNeighbor n = true <;> simp only [hvalid] <;> rfl

theorem mirrors_init : ∀ (cache : List RtnlNeigh) {t : NeighTable} {arp : ArpTable},
    cache.Pairwise (fun n n' => n.key ≠ n'.key) → (∀ n ∈ cache, t.entry n.key = none) →
    ArpMirror t arp →
    ArpMirror (cache.foldl .set t) ((nwDbManagerArpTableInit cache).exec arpHandle arp).2
  | [], _, _, _, _, h => h
  | n :: cache, t, arp, hdistinct, hfresh, h => by
    obtain ⟨hhead, htail⟩ := List.pairwise_cons.mp hdistinct
    rw [exec_arpTableInit_cons]
    have hnone : t.entry n.key = none := hfresh n List.mem_cons_self
    have hstep : ArpSystem.Mirrors (ArpSystem.step ⟨t, arp⟩ ⟨n, .new⟩) :=
      (@mirrors_step_iff ⟨t, arp⟩ h ⟨n, .new⟩ hnone).mpr
        fun hr => by obtain hr | ⟨hr, -⟩ := hr <;> cases hr
    refine mirrors_init cache (t := t.set n) htail (fun n' hn' => ?_) hstep
    exact (Function.update_of_ne (hhead n' hn').symm _ _).trans
      (hfresh n' (List.mem_cons_of_mem _ hn'))

/-- After the initialization the table mirrors the neighbours, and it does so throughout a
sequence of changes exactly if no change that removes an entry leaves a valid neighbour of
its address. -/
theorem arpMirror_iff {cache : List RtnlNeigh}
    (hcache : cache.Pairwise fun n n' => n.key ≠ n'.key) (evs : List NeighEvent)
    (hevs : Always ArpSystem.Consistent ArpSystem.step (.start cache) evs) :
    (∀ k, ((evs.take k).foldl ArpSystem.step (.start cache)).Mirrors) ↔
      Always ArpSystem.LeavesNone ArpSystem.step (.start cache) evs := by
  have hstart : (ArpSystem.start cache).Mirrors :=
    mirrors_init cache hcache (fun _ _ => rfl) ⟨nofun, nofun⟩
  have hstep (s : ArpSystem) (ev : NeighEvent) (h : s.Mirrors) (hc : s.Consistent ev) :
      (s.step ev).Mirrors ↔ s.LeavesNone ev := mirrors_step_iff h hc
  exact Always.take_iff hstep hstart hevs

/-- A neighbour that is reachable by interface `ifindex`. -/
def exampleNeigh (ifindex : UInt32) : RtnlNeigh :=
  ⟨ifindex, .inet 0x0200000a, ifindex.toBitVec.setWidth 48, nudReachable⟩

theorem arpMirror_iff_one :
    (∀ k, (([⟨exampleNeigh 1, .del⟩] : List NeighEvent).take k |>.foldl ArpSystem.step
      (.start [exampleNeigh 1])).Mirrors) ↔
      Always ArpSystem.LeavesNone ArpSystem.step (.start [exampleNeigh 1])
        [⟨exampleNeigh 1, .del⟩] :=
  arpMirror_iff (List.pairwise_singleton _ _) _ ⟨rfl, trivial⟩

/-- A neighbour goes whose address has another one, on a second interface. -/
theorem arpMirror_fails :
    ¬ ∀ (cache : List RtnlNeigh), (cache.Pairwise fun n n' => n.key ≠ n'.key) →
      ∀ (evs : List NeighEvent), Always ArpSystem.Consistent ArpSystem.step (.start cache) evs →
        (evs.foldl ArpSystem.step (.start cache)).Mirrors := by
  intro h
  have hm := h [exampleNeigh 1, exampleNeigh 2] (by decide) [⟨exampleNeigh 1, .del⟩]
    ⟨rfl, trivial⟩
  exact hm.present 0x0200000a (exampleNeigh 2) ⟨rfl, rfl, rfl⟩ rfl

end Alvs
