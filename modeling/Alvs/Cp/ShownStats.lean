import Alvs.Cp.ClearStats
import Alvs.Lib.Runs
import Mathlib.Data.Fintype.Basic

/-!
# The statistics that are shown

What the statistics functions print of a row is to be what its counters were incremented by
since the row was created or the statistics were cleared. A `Ledger` keeps what was added to each
posted counter beside the system, so that both can be compared.

A server whose service was deleted keeps its row while it has connections, and the row belongs
to the service again when the service is added. `alvs_db_clear_stats` passes over such rows :
they then show what came before (`statsShown_fails`). `statsShown_run` : the runs without that.
-/

namespace Alvs

open ProgLogic

/-! ## The counters of different rows -/

section Counters

variable {i j : UInt32} {c : TrafficCounter}

theorem TrafficCounter.serviceOffset_lt (c : TrafficCounter) : c.serviceOffset.toNat < 6 := by
  cases c <;> decide

theorem TrafficCounter.serverOffset_lt (c : TrafficCounter) : c.serverOffset.toNat < 8 := by
  cases c <;> decide

theorem serviceStatsBase_toNat (hi : i.toNat < serviceIndexPoolSize) :
    (serviceStatsBase i).elementIndex.toNat = 40 + 6 * i.toNat := by
  have hlt : i.toNat < 256 := hi
  have hoffset : ememServiceStatsPostedOffset.toNat = 40 := by decide
  have hnum : alvsNumOfServiceStats.toNat = 6 := by decide
  rw [serviceStatsBase, UInt32.toNat_add, UInt32.toNat_mul, hoffset, hnum]
  omega

theorem serverStatsBase_toNat (hi : i.toNat < serverIndexPoolSize) :
    (serverStatsBase i).elementIndex.toNat = 1576 + 8 * i.toNat := by
  have hlt : i.toNat < 32768 := hi
  have hoffset : ememServerStatsPostedOffset.toNat = 1576 := by decide
  have hnum : alvsNumOfServerStats.toNat = 8 := by decide
  rw [serverStatsBase, UInt32.toNat_add, UInt32.toNat_mul, hoffset, hnum]
  omega

theorem serviceCounter_toNat (hi : i.toNat < serviceIndexPoolSize) :
    (serviceCounter i c).elementIndex.toNat = 40 + 6 * i.toNat + c.serviceOffset.toNat := by
  have hlt : i.toNat < 256 := hi
  have hc := c.serviceOffset_lt
  rw [serviceCounter, SumAddr.add, UInt32.toNat_add, serviceStatsBase_toNat hi]
  omega

theorem serverCounter_toNat (hi : i.toNat < serverIndexPoolSize) :
    (serverCounter i c).elementIndex.toNat = 1576 + 8 * i.toNat + c.serverOffset.toNat := by
  have hlt : i.toNat < 32768 := hi
  have hc := c.serverOffset_lt
  rw [serverCounter, SumAddr.add, UInt32.toNat_add, serverStatsBase_toNat hi]
  omega

theorem serviceCounter_mem (hi : i.toNat < serviceIndexPoolSize) :
    Nps.InRange (serviceStatsBase i) alvsNumOfServiceStats (serviceCounter i c) := by
  have hlt : i.toNat < 256 := hi
  have hc := c.serviceOffset_lt
  have hnum : alvsNumOfServiceStats.toNat = 6 := by decide
  refine ⟨rfl, rfl, UInt32.le_iff_toNat_le.mpr ?_, UInt32.lt_iff_toNat_lt.mpr ?_⟩
  · rw [serviceStatsBase_toNat hi, serviceCounter_toNat hi]
    omega
  · rw [UInt32.toNat_add, serviceStatsBase_toNat hi, serviceCounter_toNat hi, hnum]
    omega

theorem serverCounter_mem (hi : i.toNat < serverIndexPoolSize) :
    Nps.InRange (serverStatsBase i) alvsNumOfServerStats (serverCounter i c) := by
  have hlt : i.toNat < 32768 := hi
  have hc := c.serverOffset_lt
  have hnum : alvsNumOfServerStats.toNat = 8 := by decide
  refine ⟨rfl, rfl, UInt32.le_iff_toNat_le.mpr ?_, UInt32.lt_iff_toNat_lt.mpr ?_⟩
  · rw [serverStatsBase_toNat hi, serverCounter_toNat hi]
    omega
  · rw [UInt32.toNat_add, serverStatsBase_toNat hi, serverCounter_toNat hi, hnum]
    omega

/-- The statistics of a service have the counters of no other row. -/
theorem inRange_serviceStats (hj : j.toNat < serviceIndexPoolSize) {a : SumAddr}
    (h : Nps.InRange (serviceStatsBase j) alvsNumOfServiceStats a) :
    40 + 6 * j.toNat ≤ a.elementIndex.toNat ∧ a.elementIndex.toNat < 46 + 6 * j.toNat := by
  have hlt : j.toNat < 256 := hj
  have hbase := serviceStatsBase_toNat hj
  have hnum : alvsNumOfServiceStats.toNat = 6 := by decide
  have hbounds := Nps.inRange_bounds (by rw [hbase, hnum]; omega) h
  rw [hbase, hnum] at hbounds
  omega

theorem inRange_serverStats (hj : j.toNat < serverIndexPoolSize) {a : SumAddr}
    (h : Nps.InRange (serverStatsBase j) alvsNumOfServerStats a) :
    1576 + 8 * j.toNat ≤ a.elementIndex.toNat ∧ a.elementIndex.toNat < 1584 + 8 * j.toNat := by
  have hlt : j.toNat < 32768 := hj
  have hbase := serverStatsBase_toNat hj
  have hnum : alvsNumOfServerStats.toNat = 8 := by decide
  have hbounds := Nps.inRange_bounds (by rw [hbase, hnum]; omega) h
  rw [hbase, hnum] at hbounds
  omega

/-- No row has counters among those of errors and interfaces. -/
theorem clearedErrors_posted (nps : Nps) {a : SumAddr} (hlow : 40 ≤ a.elementIndex.toNat)
    (hhigh : a.elementIndex.toNat < 263720) :
    ((nps.clearPosted alvsErrorStatsBase alvsNumOfAlvsErrorStats).clearPosted ifStatsBase
      (nwNumOfIfStats * (userNwIfNum + 1))).posted a = nps.posted a := by
  have herr : ¬ Nps.InRange alvsErrorStatsBase alvsNumOfAlvsErrorStats a := by
    intro h
    have hbounds : _ ∧ a.elementIndex.toNat < 40 := Nps.inRange_bounds (by decide) h
    omega
  have hif : ¬ Nps.InRange ifStatsBase (nwNumOfIfStats * (userNwIfNum + 1)) a := by
    intro h
    have hbounds : 2098728 ≤ a.elementIndex.toNat ∧ _ := Nps.inRange_bounds (by decide) h
    omega
  simp [Nps.clearPosted, herr, hif]

end Counters

/-! ## What the operations do to the rows and their counters -/

/-- The rows that `s'` has are rows of `s` with the same statistics, and no posted counter
changed. -/
structure RowsKept (s s' : Sys) : Prop where
  services : ∀ v' ∈ s'.cp.services, ∃ v ∈ s.cp.services,
    v'.tuple = v.tuple ∧ v'.npsIndex = v.npsIndex ∧ v'.serviceStats = v.serviceStats
  servers : ∀ r' ∈ s'.cp.servers, ∃ r ∈ s.cp.servers, r'.key = r.key ∧
    r'.server.npsIndex = r.server.npsIndex ∧ r'.server.serverStats = r.server.serverStats
  posted : s'.nps.posted = s.nps.posted

namespace RowsKept

variable {s s₁ s' : Sys}

theorem refl (s : Sys) : RowsKept s s where
  services := fun v hv => ⟨v, hv, rfl, rfl, rfl⟩
  servers := fun r hr => ⟨r, hr, rfl, rfl, rfl⟩
  posted := rfl

theorem trans (h : RowsKept s s₁) (h' : RowsKept s₁ s') : RowsKept s s' where
  services := fun v' hv' => by
    obtain ⟨v₁, hv₁, ht₁, hi₁, hs₁⟩ := h'.services v' hv'
    obtain ⟨v, hv, ht, hi, hs⟩ := h.services v₁ hv₁
    exact ⟨v, hv, ht₁.trans ht, hi₁.trans hi, hs₁.trans hs⟩
  servers := fun r' hr' => by
    obtain ⟨r₁, hr₁, hk₁, hi₁, hs₁⟩ := h'.servers r' hr'
    obtain ⟨r, hr, hk, hi, hs⟩ := h.servers r₁ hr₁
    exact ⟨r, hr, hk₁.trans hk, hi₁.trans hi, hs₁.trans hs⟩
  posted := h'.posted.trans h.posted

/-- The rows stay as they are. -/
theorem same (hservices : s'.cp.services = s.cp.services) (hservers : s'.cp.servers = s.cp.servers)
    (hposted : s'.nps.posted = s.nps.posted) : RowsKept s s' where
  services := fun v hv => ⟨v, hservices ▸ hv, rfl, rfl, rfl⟩
  servers := fun r hr => ⟨r, hservers ▸ hr, rfl, rfl, rfl⟩
  posted := hposted

/-- Rows of services are changed. -/
theorem mapServices {g : DbService → DbService} (hservices : s'.cp.services = s.cp.services.map g)
    (hg : ∀ v, (g v).tuple = v.tuple ∧ (g v).npsIndex = v.npsIndex ∧
      (g v).serviceStats = v.serviceStats)
    (hservers : s'.cp.servers = s.cp.servers) (hposted : s'.nps.posted = s.nps.posted) :
    RowsKept s s' where
  services := fun v' hv' => by
    obtain ⟨v, hv, rfl⟩ := List.mem_map.mp (hservices ▸ hv')
    exact ⟨v, hv, hg v⟩
  servers := fun r hr => ⟨r, hservers ▸ hr, rfl, rfl, rfl⟩
  posted := hposted

/-- Rows of services are deleted, and rows of servers changed. -/
theorem mapServers {f : ServerRow → ServerRow}
    (hservices : ∀ v ∈ s'.cp.services, v ∈ s.cp.services)
    (hservers : s'.cp.servers = s.cp.servers.map f)
    (hf : ∀ r, (f r).key = r.key ∧ (f r).server.npsIndex = r.server.npsIndex ∧
      (f r).server.serverStats = r.server.serverStats)
    (hposted : s'.nps.posted = s.nps.posted) : RowsKept s s' where
  services := fun v hv => ⟨v, hservices v hv, rfl, rfl, rfl⟩
  servers := fun r' hr' => by
    obtain ⟨r, hr, rfl⟩ := List.mem_map.mp (hservers ▸ hr')
    exact ⟨r, hr, hf r⟩
  posted := hposted

theorem modifiedService (s : Sys) (v : DbService) : RowsKept s (s.modifiedService v) := by
  refine mapServices rfl (fun w => ?_) rfl rfl
  split <;> exact ⟨rfl, rfl, rfl⟩

theorem recalculatedService (s : Sys) (v : DbService) (modifyDb : Bool) :
    RowsKept s (s.recalculatedService v modifyDb) := by
  unfold Sys.recalculatedService
  generalize s.cp.entriesCount v = n
  cases modifyDb
  · exact same rfl rfl rfl
  · exact (modifiedService s { v with schedEntriesCount := n }).trans (same rfl rfl rfl)

theorem withEntry (s : Sys) (e : SearchEntry) : RowsKept s (s.withEntry e) :=
  same rfl rfl (by cases e <;> rfl)

theorem withoutEntry (s : Sys) (k : SearchKey) : RowsKept s (s.withoutEntry k) :=
  same rfl rfl (by cases k <;> rfl)

/-- The update of a row of a server that leaves its key and its statistics. -/
theorem updateServer (s : Sys) (t : ServiceTuple) (ip : UInt32) (port : UInt16)
    {f : DbServer → DbServer} (hf : ∀ v, (f v).ip = v.ip ∧ (f v).port = v.port ∧
      (f v).npsIndex = v.npsIndex ∧ (f v).serverStats = v.serverStats) :
    RowsKept s { s with cp := s.cp.updateServer t ip port f } := by
  refine mapServers (fun _ hv => hv) rfl (fun r => ?_) rfl
  obtain ⟨hip, hport, hidx, hstats⟩ := hf r.server
  split
  · exact ⟨by simp only [ServerRow.key, hip, hport], hidx, hstats⟩
  · exact ⟨rfl, rfl, rfl⟩

theorem withoutServices_posted : ∀ (l : List DbService) (nps : Nps),
    (nps.withoutServices l).posted = nps.posted
  | [], _ => rfl
  | _ :: l, _ => withoutServices_posted l _

theorem deletedService (s : Sys) (v : DbService) : RowsKept s (s.deletedService v) := by
  refine mapServers (fun w hw => List.mem_of_mem_filter hw) rfl (fun r => ?_) ?_
  · split <;> exact ⟨rfl, rfl, rfl⟩
  · show (Nps.deactivatedFirst _ _).posted = _
    unfold Nps.deactivatedFirst
    split <;> rfl

end RowsKept

/-- The rows that `s'` has are rows of `s` with the same statistics and counters, or rows that
`s` had not, whose statistics and counters are 0. -/
structure RowsStep (s s' : Sys) : Prop where
  services : ∀ v' ∈ s'.cp.services,
    (∃ v ∈ s.cp.services, v'.tuple = v.tuple ∧ v'.npsIndex = v.npsIndex ∧
      v'.serviceStats = v.serviceStats ∧ ∀ c, s'.nps.posted (serviceCounter v'.npsIndex c) =
        s.nps.posted (serviceCounter v.npsIndex c)) ∨
    (∀ v ∈ s.cp.services, v.tuple ≠ v'.tuple) ∧ v'.serviceStats = .zero ∧
      ∀ c, s'.nps.posted (serviceCounter v'.npsIndex c) = 0
  servers : ∀ r' ∈ s'.cp.servers,
    (∃ r ∈ s.cp.servers, r'.key = r.key ∧ r'.server.npsIndex = r.server.npsIndex ∧
      r'.server.serverStats = r.server.serverStats ∧
      ∀ c, s'.nps.posted (serverCounter r'.server.npsIndex c) =
        s.nps.posted (serverCounter r.server.npsIndex c)) ∨
    (∀ r ∈ s.cp.servers, r.key ≠ r'.key) ∧ r'.server.serverStats = .zero ∧
      ∀ c, s'.nps.posted (serverCounter r'.server.npsIndex c) = 0

namespace RowsStep

variable {s s₁ s' : Sys}

theorem trans (h : RowsStep s s₁) (h' : RowsKept s₁ s') : RowsStep s s' where
  services := fun v' hv' => by
    obtain ⟨v₁, hv₁, ht₁, hi₁, hs₁⟩ := h'.services v' hv'
    rw [ht₁, hi₁, hs₁, h'.posted]
    exact h.services v₁ hv₁
  servers := fun r' hr' => by
    obtain ⟨r₁, hr₁, hk₁, hi₁, hs₁⟩ := h'.servers r' hr'
    rw [hk₁, hi₁, hs₁, h'.posted]
    exact h.servers r₁ hr₁

theorem refl (s : Sys) : RowsStep s s where
  services := fun v hv => .inl ⟨v, hv, rfl, rfl, rfl, fun _ => rfl⟩
  servers := fun r hr => .inl ⟨r, hr, rfl, rfl, rfl, fun _ => rfl⟩

theorem of_kept (h : RowsKept s s') : RowsStep s s' := (refl s).trans h

/-- A service whose index was free. -/
theorem addedService (hinv : s.cp.Inv) {v : DbService} {i : Nat}
    {pool : WfPool serviceIndexPoolSize} (hfind : s.cp.findService v.tuple = none)
    (halloc : s.cp.serviceIndexPool.alloc = some (i, pool)) (hi : v.npsIndex = .ofNat i)
    (hstats : v.serviceStats = .zero) : RowsStep s (s.addedService v pool) := by
  have hfresh := hinv.service_index_fresh halloc
  have hvi : v.npsIndex.toNat < serviceIndexPoolSize := by
    rw [hi, WfPool.alloc_toNat halloc (by decide)]
    exact (WfPool.alloc_spec halloc).1
  constructor
  · intro w hw
    obtain hw | rfl := by simpa [Sys.addedService] using hw
    · refine .inl ⟨w, hw, rfl, rfl, rfl, fun c => if_neg fun hin => ?_⟩
      have hwi := (hinv.services_index w hw).1
      have hbounds := inRange_serviceStats hvi hin
      rw [serviceCounter_toNat hwi] at hbounds
      have hc := c.serviceOffset_lt
      have heq : w.npsIndex = v.npsIndex := UInt32.toNat_inj.mp (by omega)
      exact hfresh w hw (heq.trans hi)
    · exact .inr ⟨fun w hw => Cp.Inv.service_ne_of_find_none hfind hw, hstats,
        fun _ => if_pos (serviceCounter_mem hvi)⟩
  · intro r hr
    refine .inl ⟨r, hr, rfl, rfl, rfl, fun c => if_neg fun hin => ?_⟩
    have hbounds := inRange_serviceStats hvi hin
    rw [serverCounter_toNat (hinv.servers_index r hr).1] at hbounds
    have hlt : v.npsIndex.toNat < 256 := hvi
    omega

/-- A server whose index was free. -/
theorem addedServer (hinv : s.cp.Inv) {t : ServiceTuple} {v : DbServer} {i : Nat}
    {pool : WfPool serverIndexPoolSize} (hfind : s.cp.findServer t v.ip v.port = none)
    (halloc : s.cp.serverIndexPool.alloc = some (i, pool)) (hi : v.npsIndex = .ofNat i)
    (hstats : v.serverStats = .zero) : RowsStep s (s.addedServer t v pool) := by
  have hfresh := hinv.server_index_fresh halloc
  have hvi : v.npsIndex.toNat < serverIndexPoolSize := by
    rw [hi, WfPool.alloc_toNat halloc (by decide)]
    exact (WfPool.alloc_spec halloc).1
  constructor
  · intro w hw
    refine .inl ⟨w, hw, rfl, rfl, rfl, fun c => if_neg fun hin => ?_⟩
    have hbounds := inRange_serverStats hvi hin
    have hwi := (hinv.services_index w hw).1
    have hlt : w.npsIndex.toNat < 256 := hwi
    have hc := c.serviceOffset_lt
    rw [serviceCounter_toNat hwi] at hbounds
    omega
  · intro r hr
    obtain hr | rfl := by simpa [Sys.addedServer] using hr
    · refine .inl ⟨r, hr, rfl, rfl, rfl, fun c => if_neg fun hin => ?_⟩
      have hri := (hinv.servers_index r hr).1
      have hbounds := inRange_serverStats hvi hin
      rw [serverCounter_toNat hri] at hbounds
      have hc := c.serverOffset_lt
      have heq : r.server.npsIndex = v.npsIndex := UInt32.toNat_inj.mp (by omega)
      exact hfresh r hr (heq.trans hi)
    · exact .inr ⟨fun r hr => Cp.Inv.server_ne_of_find_none hfind hr, hstats,
        fun _ => if_pos (serverCounter_mem hvi)⟩

theorem rowAdded (hinv : s.cp.Inv) {service : DbService} {d : IpVsDestUser} {v : DbServer}
    (hadded : s.RowAdded service d v s₁) : RowsStep s s₁ := by
  obtain ⟨r, -, -, rfl, rfl⟩ | ⟨hfind, i, pool, halloc, rfl, rfl⟩ := hadded
  · have hkept := RowsKept.updateServer s service.tuple (reactivatedServer r.server d).ip
      (reactivatedServer r.server d).port (f := (reactivatedServer r.server d).activate)
      fun _ => ⟨rfl, rfl, rfl, rfl⟩
    exact of_kept (hkept.trans (.same rfl rfl rfl))
  · exact addedServer hinv hfind halloc rfl rfl

theorem effect {op : CpOp} (hinv : s.cp.Inv) (he : s.Effect op s') : RowsStep s s' := by
  cases he with
  | addService _ hfind halloc => exact addedService hinv hfind halloc rfl rfl
  | modifyService => exact of_kept (.modifiedService _ _)
  | @modifyServiceAlg u prev =>
    have hkept : RowsKept s (s.recalculated (modifiedRow prev u)) := .same rfl rfl rfl
    exact of_kept (hkept.trans (.modifiedService _ _))
  | deleteService =>
    have hkept := RowsKept.deletedService s
    exact of_kept ((hkept _).trans (.same rfl rfl rfl))
  | @addServer u d service v s₁ _ _ hadded =>
    have h₁ := rowAdded hinv hadded
    split
    · exact (h₁.trans (.recalculatedService _ _ _)).trans (.withEntry _ _)
    · exact h₁.trans (.withEntry _ _)
  | @modifyServer u d service r s₁ _ _ _ hs₁ =>
    have h₁ : RowsKept s s₁ := by
      have hkept := RowsKept.updateServer s service.tuple (modifiedServer r.server d).ip
        (modifiedServer r.server d).port (f := (modifiedServer r.server d).modify)
        fun _ => ⟨rfl, rfl, rfl, rfl⟩
      rw [hs₁, Sys.modifiedServerRow]
      split <;> exact hkept.trans (.same rfl rfl rfl)
    split
    · exact of_kept ((h₁.trans (.recalculatedService _ _ _)).trans (.withEntry _ _))
    · exact of_kept (h₁.trans (.withEntry _ _))
  | @deleteServer u d service r s₁ _ _ _ hs₁ =>
    have h₁ : RowsKept s s₁ := by
      rw [hs₁]
      exact .updateServer s _ _ _ fun _ => ⟨rfl, rfl, rfl, rfl⟩
    split
    · exact of_kept (((h₁.trans (.recalculatedService _ _ _)).trans (.withEntry _ _)).trans
        (.withoutEntry _ _))
    · exact of_kept ((h₁.trans (.withEntry _ _)).trans (.withoutEntry _ _))
  | clear =>
    refine of_kept (.mapServers (fun v hv => absurd hv List.not_mem_nil) rfl
      (fun _ => ⟨rfl, rfl, rfl⟩) ?_)
    exact RowsKept.withoutServices_posted s.cp.services s.nps
  | aging => exact of_kept ⟨fun v hv => ⟨v, hv, rfl, rfl, rfl⟩,
      fun r hr => ⟨r, List.mem_of_mem_filter hr, rfl, rfl, rfl⟩, rfl⟩

theorem cpStep (hinv : s.cp.Inv) (op : CpOp) : RowsStep s (s.cpStep op) := by
  obtain heq | he := cpStep_cases hinv.algs op
  · rw [heq]
    exact refl s
  · exact effect hinv he

end RowsStep

/-! ## The ledger -/

/-- What happens : an operation, the command that clears the statistics, or an addition to a
posted counter. -/
inductive StatsAct
  | op (op : CpOp)
  | clearStats (uninit : Nat)
  | count (addr : SumAddr) (n : Int)

/-- The system with what was added to each posted counter so far (`added`), and what had been
added when a row was created or the statistics were cleared, whichever came later. -/
structure Ledger where
  sys : Sys
  added : SumAddr → Int
  serviceFrom : ServiceTuple → SumAddr → Int
  serverFrom : ServiceTuple × UInt32 × UInt16 → SumAddr → Int

namespace Ledger

def init : Ledger := ⟨.init, fun _ => 0, fun _ _ => 0, fun _ _ => 0⟩

/-- The ledger after an operation, which may have created rows. -/
def afterOp (l : Ledger) (s' : Sys) : Ledger where
  sys := s'
  added := l.added
  serviceFrom := fun t =>
    if (∀ v ∈ l.sys.cp.services, v.tuple ≠ t) ∧ ∃ v ∈ s'.cp.services, v.tuple = t then l.added
    else l.serviceFrom t
  serverFrom := fun k =>
    if (∀ r ∈ l.sys.cp.servers, r.key ≠ k) ∧ ∃ r ∈ s'.cp.servers, r.key = k then l.added
    else l.serverFrom k

def step (l : Ledger) : StatsAct → Ledger
  | .op op => l.afterOp (l.sys.cpStep op)
  | .clearStats uninit =>
    { l with
      sys := (l.sys.runStats (alvsDbClearStats uninit)).2
      serviceFrom := fun _ => l.added
      serverFrom := fun _ => l.added }
  | .count a n =>
    { l with
      sys := { l.sys with nps := { l.sys.nps with
        posted := Function.update l.sys.nps.posted a (l.sys.nps.posted a + n) } }
      added := Function.update l.added a (l.added a + n) }

/-- What a counter of a service was incremented by since then. -/
def serviceSince (l : Ledger) (v : DbService) (c : TrafficCounter) : Int :=
  l.added (serviceCounter v.npsIndex c) - l.serviceFrom v.tuple (serviceCounter v.npsIndex c)

/-- What a counter of a server was incremented by since then. -/
def serverSince (l : Ledger) (r : ServerRow) (c : TrafficCounter) : Int :=
  l.added (serverCounter r.server.npsIndex c) -
    l.serverFrom r.key (serverCounter r.server.npsIndex c)

end Ledger

/-- The saved counters are at most the posted ones, and the difference is what came since. -/
def ShowsSince (posted saved : DbStats) (since : TrafficCounter → Int) : Prop :=
  ∀ c, saved.get c ≤ posted.get c ∧ ((posted.get c - saved.get c).toNat : Int) = since c

/-- What is printed of the rows of services and of the servers of services is what came since. -/
structure StatsShown (l : Ledger) : Prop where
  services : ∀ v ∈ l.sys.cp.services,
    ShowsSince (l.sys.nps.serviceCounters v.npsIndex) v.serviceStats (l.serviceSince v)
  servers : ∀ r ∈ l.sys.cp.servers, l.sys.cp.HasService r →
    ShowsSince (l.sys.nps.serverCounters r.server.npsIndex) r.server.serverStats (l.serverSince r)
  servicesPrinted : List.Forall₂ (fun v line => line.1 = v.tuple ∧
      ∀ c, ((line.2.get c).toNat : Int) = l.serviceSince v c)
    l.sys.cp.services (l.sys.runStats alvsDbPrintServicesStats).1.2
  serversPrinted : ∀ u uninit, (l.sys.cp.findService u.tuple).isSome →
    List.Forall₂ (fun r line => line.ip = r.server.ip ∧ line.port = r.server.port ∧
      ∀ c, ((line.stats.get c).toNat : Int) = l.serverSince r c)
      (l.sys.cp.servers.filter fun r => r.srv = u.tuple)
      (l.sys.runStats (alvsDbPrintServersStats u uninit)).1.2

/-! ## What every step keeps -/

/-- A posted counter is the saved one and what came since, and has not wrapped. -/
structure Accounted (posted : Int) (saved : UInt64) (since : Int) : Prop where
  since_nonneg : 0 ≤ since
  posted_lt : posted < 2 ^ 64
  posted_eq : posted = saved.toNat + since

theorem Accounted.shows {posted : Int} {saved : UInt64} {since : Int}
    (h : Accounted posted saved since) :
    saved ≤ counterValue posted ∧ ((counterValue posted - saved).toNat : Int) = since := by
  obtain ⟨hsince, hlt, heq⟩ := h
  have hvalue : (counterValue posted).toNat = posted.toNat :=
    toNat_counterValue (by omega) hlt
  have hle : saved ≤ counterValue posted := UInt64.le_iff_toNat_le.mpr (by omega)
  refine ⟨hle, ?_⟩
  rw [UInt64.toNat_sub_of_le _ _ hle]
  omega

/-- A counter of a row that is new. -/
theorem Accounted.zero {posted : Int} (c : TrafficCounter) (h : posted = 0) :
    Accounted posted (DbStats.zero.get c) 0 := by
  rw [h, DbStats.get_zero]
  exact ⟨le_rfl, by decide, rfl⟩

/-- A counter whose value is saved. -/
theorem Accounted.saved {posted : Int} {saved : UInt64} {since : Int}
    (h : Accounted posted saved since) : Accounted posted (counterValue posted) 0 := by
  obtain ⟨hsince, hlt, heq⟩ := h
  have hvalue : (counterValue posted).toNat = posted.toNat :=
    toNat_counterValue (by omega) hlt
  exact ⟨le_rfl, hlt, by omega⟩

namespace Ledger

/-- The counter is one of a row. -/
def Counts (cp : Cp) (a : SumAddr) : Prop :=
  (∃ v ∈ cp.services, ∃ c, serviceCounter v.npsIndex c = a) ∨
    ∃ r ∈ cp.servers, ∃ c, serverCounter r.server.npsIndex c = a

/-- The traffic counters of rows only grow, and do not wrap. -/
def Grows (l : Ledger) : StatsAct → Prop
  | .count a n => Counts l.sys.cp a → 0 ≤ n ∧ l.sys.nps.posted a + n < 2 ^ 64
  | .op _ => True
  | .clearStats _ => True

/-- Where the statistics are cleared, no server of a deleted service has counted anything that
is not saved. -/
def NothingMissed (l : Ledger) : StatsAct → Prop
  | .clearStats _ => ∀ r ∈ l.sys.cp.servers, l.sys.cp.HasService r = false →
    r.server.serverStats = l.sys.nps.serverCounters r.server.npsIndex
  | .op _ => True
  | .count _ _ => True

/-- The counters of all rows are accounted for. -/
structure Inv (l : Ledger) : Prop where
  cp : l.sys.cp.Inv
  services : ∀ v ∈ l.sys.cp.services, ∀ c, Accounted
    (l.sys.nps.posted (serviceCounter v.npsIndex c)) (v.serviceStats.get c) (l.serviceSince v c)
  servers : ∀ r ∈ l.sys.cp.servers, ∀ c, Accounted
    (l.sys.nps.posted (serverCounter r.server.npsIndex c)) (r.server.serverStats.get c)
    (l.serverSince r c)

variable {l : Ledger}

theorem Inv.init : Ledger.init.Inv where
  cp := Cp.Inv.init
  services := fun _ hv => absurd hv List.not_mem_nil
  servers := fun _ hr => absurd hr List.not_mem_nil

theorem Inv.op (h : l.Inv) (op : CpOp) : (l.step (.op op)).Inv := by
  have hrows : RowsStep l.sys (l.step (.op op)).sys := RowsStep.cpStep h.cp op
  refine ⟨inv_cpStep h.cp op, fun v' hv' c => ?_, fun r' hr' c => ?_⟩
  · obtain ⟨v, hv, ht, hi, hs, hposted⟩ | ⟨hnew, hs, hposted⟩ := hrows.services v' hv'
    · have hfrom : (l.step (.op op)).serviceFrom v'.tuple = l.serviceFrom v.tuple := by
        rw [ht]
        exact if_neg fun hcreated => hcreated.1 v hv rfl
      have hsince : (l.step (.op op)).serviceSince v' c = l.serviceSince v c := by
        rw [serviceSince, hfrom, hi]
        rfl
      rw [hsince, hs]
      exact (hposted c).symm ▸ h.services v hv c
    · have hfrom : (l.step (.op op)).serviceFrom v'.tuple = l.added :=
        if_pos ⟨hnew, v', hv', rfl⟩
      have hsince : (l.step (.op op)).serviceSince v' c = 0 := by
        rw [serviceSince, hfrom]
        exact sub_self _
      rw [hsince, hs]
      exact .zero c (hposted c)
  · obtain ⟨r, hr, hk, hi, hs, hposted⟩ | ⟨hnew, hs, hposted⟩ := hrows.servers r' hr'
    · have hfrom : (l.step (.op op)).serverFrom r'.key = l.serverFrom r.key := by
        rw [hk]
        exact if_neg fun hcreated => hcreated.1 r hr rfl
      have hsince : (l.step (.op op)).serverSince r' c = l.serverSince r c := by
        rw [serverSince, hfrom, hi]
        rfl
      rw [hsince, hs]
      exact (hposted c).symm ▸ h.servers r hr c
    · have hfrom : (l.step (.op op)).serverFrom r'.key = l.added :=
        if_pos ⟨hnew, r', hr', rfl⟩
      have hsince : (l.step (.op op)).serverSince r' c = 0 := by
        rw [serverSince, hfrom]
        exact sub_self _
      rw [hsince, hs]
      exact .zero c (hposted c)

theorem Inv.count (h : l.Inv) {a : SumAddr} {n : Int} (hn : l.Grows (.count a n)) :
    (l.step (.count a n)).Inv := by
  have hadd {saved : UInt64} {start : Int} {b : SumAddr}
      (hcounts : b = a → Counts l.sys.cp a)
      (hacc : Accounted (l.sys.nps.posted b) saved (l.added b - start)) :
      Accounted ((l.step (.count a n)).sys.nps.posted b) saved
        ((l.step (.count a n)).added b - start) := by
    obtain ⟨hsince, hlt, heq⟩ := hacc
    by_cases hb : b = a
    · obtain ⟨hpos, hbound⟩ := hn (hcounts hb)
      subst hb
      simp only [step, Function.update_self]
      exact ⟨by omega, hbound, by omega⟩
    · simp only [step, Function.update_of_ne hb]
      exact ⟨hsince, hlt, heq⟩
  exact ⟨h.cp, fun v hv c => hadd (fun hb => .inl ⟨v, hv, c, hb⟩) (h.services v hv c),
    fun r hr c => hadd (fun hb => .inr ⟨r, hr, c, hb⟩) (h.servers r hr c)⟩

/-- The counters of rows are not cleared. -/
theorem clearedStats_service (h : l.sys.cp.Inv) {v : DbService} (hv : v ∈ l.sys.cp.services)
    (c : TrafficCounter) : l.sys.clearedStats.nps.posted (serviceCounter v.npsIndex c) =
      l.sys.nps.posted (serviceCounter v.npsIndex c) := by
  have hvi := (h.services_index v hv).1
  have hlt : v.npsIndex.toNat < 256 := hvi
  have hc := c.serviceOffset_lt
  have heq := serviceCounter_toNat (c := c) hvi
  exact clearedErrors_posted l.sys.nps (by omega) (by omega)

theorem clearedStats_server (h : l.sys.cp.Inv) {r : ServerRow} (hr : r ∈ l.sys.cp.servers)
    (c : TrafficCounter) : l.sys.clearedStats.nps.posted (serverCounter r.server.npsIndex c) =
      l.sys.nps.posted (serverCounter r.server.npsIndex c) := by
  have hri := (h.servers_index r hr).1
  have hlt : r.server.npsIndex.toNat < 32768 := hri
  have hc := c.serverOffset_lt
  have heq := serverCounter_toNat (c := c) hri
  exact clearedErrors_posted l.sys.nps (by omega) (by omega)

theorem inv_clearedStats {s : Sys} (h : s.cp.Inv) : s.clearedStats.cp.Inv := by
  refine (h.mapServices (fun v => v.saved s.nps) fun v hv => ⟨rfl, rfl, h.algs v hv⟩).mapServers
    (fun r => if s.cp.HasService r then r.saved s.nps else r) fun r hr => ?_
  have hok := h.servers_ok r hr
  split
  · exact ⟨rfl, rfl, hok.flags, hok.stats, hok.onDemand, hok.flagsDp⟩
  · exact ⟨rfl, rfl, hok⟩

theorem Inv.clearStats (h : l.Inv) {uninit : Nat} (hn : l.NothingMissed (.clearStats uninit)) :
    (l.step (.clearStats uninit)).Inv := by
  have hsys : (l.step (.clearStats uninit)).sys = l.sys.clearedStats :=
    congrArg Prod.snd (runStats_clearStats h.cp uninit)
  constructor
  · rw [hsys]
    exact inv_clearedStats h.cp
  · rw [hsys]
    intro v' hv' c
    obtain ⟨v, hv, rfl⟩ := List.mem_map.mp hv'
    have hsince : (l.step (.clearStats uninit)).serviceSince (v.saved l.sys.nps) c = 0 :=
      sub_self _
    have hsaved : (v.saved l.sys.nps).serviceStats.get c =
        counterValue (l.sys.nps.posted (serviceCounter v.npsIndex c)) :=
      l.sys.nps.get_serviceCounters v.npsIndex c
    rw [if_pos rfl, hsince, hsaved]
    exact (clearedStats_service h.cp hv c).symm ▸ (h.services v hv c).saved
  · rw [hsys]
    intro r' hr' c
    obtain ⟨r, hr, rfl⟩ := List.mem_map.mp hr'
    have hsaved (r' : ServerRow) (hi : r'.server.npsIndex = r.server.npsIndex)
        (hs : r'.server.serverStats = l.sys.nps.serverCounters r.server.npsIndex) : Accounted
        (l.sys.clearedStats.nps.posted (serverCounter r'.server.npsIndex c))
        (r'.server.serverStats.get c) ((l.step (.clearStats uninit)).serverSince r' c) := by
      have hsince : (l.step (.clearStats uninit)).serverSince r' c = 0 := sub_self _
      rw [hsince, hs, hi, Nps.get_serverCounters, clearedStats_server h.cp hr c]
      exact (h.servers r hr c).saved
    cases hsrv : l.sys.cp.HasService r with
    | true => exact hsaved (r.saved l.sys.nps) rfl rfl
    | false => exact hsaved r rfl (hn r hr hsrv)

theorem Inv.step (h : l.Inv) {a : StatsAct} (hgrows : l.Grows a) (hmissed : l.NothingMissed a) :
    (l.step a).Inv := by
  cases a with
  | op op => exact h.op op
  | clearStats uninit => exact h.clearStats hmissed
  | count a n => exact h.count hgrows

theorem Inv.shown (h : l.Inv) : StatsShown l := by
  have hservices : ∀ v ∈ l.sys.cp.services,
      ShowsSince (l.sys.nps.serviceCounters v.npsIndex) v.serviceStats (l.serviceSince v) := by
    intro v hv c
    rw [Nps.get_serviceCounters]
    exact (h.services v hv c).shows
  have hservers : ∀ r ∈ l.sys.cp.servers, ShowsSince (l.sys.nps.serverCounters r.server.npsIndex)
      r.server.serverStats (l.serverSince r) := by
    intro r hr c
    rw [Nps.get_serverCounters]
    exact (h.servers r hr c).shows
  refine ⟨hservices, fun r hr _ => hservers r hr, ?_, fun u uninit hservice => ?_⟩
  · rw [runStats_printServicesStats, List.forall₂_map_right_iff, List.forall₂_same]
    intro v hv
    refine ⟨rfl, fun c => ?_⟩
    rw [DbStats.get_diff]
    exact (hservices v hv c).2
  · have hselected : Cp.Selected u.tuple ⟨false, false⟩ = fun r => decide (r.srv = u.tuple) := by
      funext r
      simp [Cp.Selected]
    have hlist : l.sys.cp.serverList u.tuple ⟨false, false⟩ =
        (l.sys.cp.servers.filter fun r => r.srv = u.tuple).map ServerRow.server := by
      rw [Cp.serverList, hselected]
    rw [runStats_printServersStats _ _ _ hservice, hlist, List.map_map,
      List.forall₂_map_right_iff, List.forall₂_same]
    intro r hr
    refine ⟨rfl, rfl, fun c => ?_⟩
    have hline : ((l.sys.nps.serverLine r.server).stats.get c) = _ := DbStats.get_diff _ _ c
    rw [Function.comp_apply, hline]
    exact (hservers r (List.mem_of_mem_filter hr) c).2

end Ledger

/-! ## The runs -/

instance : Fintype TrafficCounter where
  elems := {.inPacket, .inByte, .outPacket, .outByte, .connectionScheduled}
  complete := fun c => by cases c <;> decide

namespace Ledger

instance (cp : Cp) (a : SumAddr) : Decidable (Counts cp a) := by
  unfold Counts
  infer_instance

instance decidableGrows (l : Ledger) : (a : StatsAct) → Decidable (l.Grows a)
  | .count a n => by unfold Grows; infer_instance
  | .op _ => .isTrue trivial
  | .clearStats _ => .isTrue trivial

instance decidableNothingMissed (l : Ledger) : (a : StatsAct) → Decidable (l.NothingMissed a)
  | .clearStats _ => by unfold NothingMissed; infer_instance
  | .op _ => .isTrue trivial
  | .count _ _ => .isTrue trivial

/-- The condition on a step. -/
def StepOk (l : Ledger) (a : StatsAct) : Prop := l.Grows a ∧ l.NothingMissed a

instance (l : Ledger) (a : StatsAct) : Decidable (l.StepOk a) := inferInstanceAs (Decidable (_ ∧ _))

end Ledger

/-- Where no server of a deleted service has something to save when the statistics are cleared,
what is printed of every row is what came since, in every state of the run. -/
theorem statsShown_run (acts : List StatsAct)
    (hacts : Always Ledger.StepOk Ledger.step .init acts) :
    StatsShown (acts.foldl Ledger.step .init) := by
  have hstep : ∀ (l : Ledger) (a : StatsAct), l.Inv → l.StepOk a → (l.step a).Inv :=
    fun l a h hok => h.step hok.1 hok.2
  exact (Always.invariant hstep _ acts Ledger.Inv.init hacts).shown

/-- A service and its server count a frame before and after the statistics are cleared. -/
def clearedRun : List StatsAct :=
  [.op (.addService exampleService), .op (.addServer exampleService (exampleServer 0 1)),
    .count (serverCounter 0 .inPacket) 1, .count (serviceCounter 0 .inPacket) 1, .clearStats 0,
    .count (serverCounter 0 .inPacket) 1]

theorem statsShown_run_cleared : StatsShown (clearedRun.foldl Ledger.step .init) :=
  statsShown_run clearedRun (by decide +kernel)

/-! ## A run that breaks it -/

/-- The service is deleted while its server counts 5 frames, the statistics are cleared, and
the service is added again. -/
def clearedWhileDeleted : List StatsAct :=
  [.op (.addService exampleService), .op (.addServer exampleService (exampleServer 0 1)),
    .count (serverCounter 0 .inPacket) 5, .op (.deleteService exampleService 0), .clearStats 0,
    .op (.addService exampleService)]

/-- The operation or command of a step returns `ALVS_DB_OK`. -/
def Ledger.Succeeds (l : Ledger) : StatsAct → Prop
  | .op op => Alvs.Succeeds l.sys op
  | .clearStats uninit => (l.sys.runStats (alvsDbClearStats uninit)).1 = .ok
  | .count _ _ => True

instance (l : Ledger) : (a : StatsAct) → Decidable (l.Succeeds a)
  | .op op => inferInstanceAs (Decidable (Alvs.Succeeds l.sys op))
  | .clearStats _ => by unfold Ledger.Succeeds; infer_instance
  | .count _ _ => .isTrue trivial

/-- The server then shows the 5 frames that it counted before. -/
theorem statsShown_fails :
    Always Ledger.Grows Ledger.step .init clearedWhileDeleted ∧
      Always Ledger.Succeeds Ledger.step .init clearedWhileDeleted ∧
      ¬ StatsShown (clearedWhileDeleted.foldl Ledger.step .init) := by
  refine ⟨by decide +kernel, by decide +kernel, fun h => ?_⟩
  have hrow : ∃ r ∈ (clearedWhileDeleted.foldl Ledger.step .init).sys.cp.servers,
      (clearedWhileDeleted.foldl Ledger.step .init).sys.cp.HasService r = true ∧
      (((clearedWhileDeleted.foldl Ledger.step .init).sys.nps.serverCounters
        r.server.npsIndex).get .inPacket - r.server.serverStats.get .inPacket).toNat = 5 ∧
      (clearedWhileDeleted.foldl Ledger.step .init).serverSince r .inPacket = 0 := by
    decide +kernel
  obtain ⟨r, hr, hservice, hshown, hsince⟩ := hrow
  have heq := (h.servers r hr hservice .inPacket).2
  rw [hshown, hsince] at heq
  exact absurd heq (by decide)

end Alvs
