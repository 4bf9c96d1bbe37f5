import Alvs.Cp.InfoMirror
import Alvs.Cp.OwnCounters

/-!
# What an operation does to the indexes of servers

SERVER_INFO has an entry for the index of each row and no other (`InfoIndexed`). An operation
leaves the rows of servers with their keys, indexes and connection counters. It may add a row at
an index that had no entry, with a counter that is 0, or remove a row whose counter read 0
(`IndexStep`).
-/

namespace Alvs

/-- The key of a row of `servers`, and its index. -/
def ServerRow.keyIndex (r : ServerRow) : (ServiceTuple × UInt32 × UInt16) × UInt32 :=
  (r.key, r.server.npsIndex)

/-- The keys and indexes of the servers. -/
def Cp.keyIndexes (cp : Cp) : List ((ServiceTuple × UInt32 × UInt16) × UInt32) :=
  cp.servers.map ServerRow.keyIndex

/-- Index `j` is that of a row. -/
def Cp.HasIndex (cp : Cp) (j : UInt32) : Prop := ∃ key, (key, j) ∈ cp.keyIndexes

/-- SERVER_INFO has the indexes of the rows. -/
def InfoIndexed (s : Sys) : Prop := ∀ j, s.nps.serverInfo j ≠ none ↔ s.cp.HasIndex j

/-- CONNECTION_TOTAL of index `j`. -/
def Nps.connTotal (nps : Nps) (j : UInt32) : Int :=
  nps.onDemand ((serverOnDemandStatsBase j).add alvsServerStatsConnectionTotalOffset)

/-- The counters that are cleared for a new server are those of its index. -/
theorem inRange_connTotal {i j : UInt32} (hi : i.toNat < serverIndexPoolSize) :
    Nps.InRange (serverOnDemandStatsBase i) alvsNumOfServersOnDemandStats
      ((serverOnDemandStatsBase j).add alvsServerStatsConnectionTotalOffset) ↔ j = i := by
  have hbase : (serverOnDemandStatsBase i).elementIndex = i := by
    simp [serverOnDemandStatsBase, alvsNumOfServersOnDemandStats, ememServerStatsOnDemandOffset]
  have haddr : ((serverOnDemandStatsBase j).add
      alvsServerStatsConnectionTotalOffset).elementIndex = j := by
    simp [SumAddr.add, serverOnDemandStatsBase, alvsNumOfServersOnDemandStats,
      ememServerStatsOnDemandOffset, alvsServerStatsConnectionTotalOffset]
  have hnum : alvsNumOfServersOnDemandStats.toNat = 1 := by decide
  have hlt : i.toNat < 32768 := hi
  constructor
  · intro hin
    have hbounds := Nps.inRange_bounds (by rw [hbase, hnum]; omega) hin
    rw [hbase, haddr, hnum] at hbounds
    exact UInt32.toNat_inj.mp (by omega)
  · rintro rfl
    refine ⟨rfl, rfl, ?_, ?_⟩
    · rw [hbase, haddr]
      exact UInt32.le_refl _
    · rw [hbase, haddr, UInt32.lt_iff_toNat_lt, UInt32.toNat_add, hnum]
      omega

/-! ## Rows that stay -/

/-- The keys and indexes of the rows, their entries, the connections and the counters stay. -/
structure IndexesKept (s s' : Sys) : Prop where
  rows : s'.cp.keyIndexes = s.cp.keyIndexes
  kept : ∀ j, s.nps.serverInfo j ≠ none → s'.nps.serverInfo j ≠ none
  indexed : ∀ j, s'.nps.serverInfo j ≠ none →
    s.nps.serverInfo j ≠ none ∨ s.cp.HasIndex j
  conn : s'.nps.connInfo = s.nps.connInfo
  allocated : s'.nps.connIndexAllocated = s.nps.connIndexAllocated
  onDemand : s'.nps.onDemand = s.nps.onDemand

namespace IndexesKept

variable {s s₁ s' : Sys}

theorem trans (h : IndexesKept s s₁) (h' : IndexesKept s₁ s') : IndexesKept s s' where
  rows := h'.rows.trans h.rows
  kept := fun j hj => h'.kept j (h.kept j hj)
  indexed := fun j hj => (h'.indexed j hj).elim (h.indexed j) fun ⟨key, hrow⟩ =>
    .inr ⟨key, h.rows ▸ hrow⟩
  conn := h'.conn.trans h.conn
  allocated := h'.allocated.trans h.allocated
  onDemand := h'.onDemand.trans h.onDemand

/-- The entries stay, and rows are changed that keep their key and index. -/
theorem of_rows {f : ServerRow → ServerRow} (hservers : s'.cp.servers = s.cp.servers.map f)
    (hf : ∀ r, (f r).keyIndex = r.keyIndex) (hinfo : s'.nps.serverInfo = s.nps.serverInfo)
    (hconn : s'.nps.connInfo = s.nps.connInfo)
    (halloc : s'.nps.connIndexAllocated = s.nps.connIndexAllocated)
    (htotal : s'.nps.onDemand = s.nps.onDemand) : IndexesKept s s' where
  rows := by
    rw [Cp.keyIndexes, hservers, List.map_map, Cp.keyIndexes]
    exact List.map_congr_left fun r _ => hf r
  kept := fun j hj => hinfo ▸ hj
  indexed := fun j hj => .inl (hinfo ▸ hj)
  conn := hconn
  allocated := halloc
  onDemand := htotal

theorem same (hservers : s'.cp.servers = s.cp.servers)
    (hinfo : s'.nps.serverInfo = s.nps.serverInfo)
    (hconn : s'.nps.connInfo = s.nps.connInfo)
    (halloc : s'.nps.connIndexAllocated = s.nps.connIndexAllocated)
    (htotal : s'.nps.onDemand = s.nps.onDemand) : IndexesKept s s' :=
  of_rows (f := id) (by rw [hservers, List.map_id]) (fun _ => rfl) hinfo hconn halloc htotal

theorem recalculatedService (s : Sys) (v : DbService) (modifyDb : Bool) :
    IndexesKept s (s.recalculatedService v modifyDb) := by
  unfold Sys.recalculatedService
  generalize s.cp.entriesCount v = n
  cases modifyDb <;> exact same rfl rfl rfl rfl rfl

theorem updateServer (s : Sys) (t : ServiceTuple) (ip : UInt32) (port : UInt16)
    {f : DbServer → DbServer}
    (hf : ∀ v, (f v).ip = v.ip ∧ (f v).port = v.port ∧ (f v).npsIndex = v.npsIndex) :
    IndexesKept s { s with cp := s.cp.updateServer t ip port f } := by
  refine of_rows rfl (fun r => ?_) rfl rfl rfl rfl
  obtain ⟨hip, hport, hidx⟩ := hf r.server
  split
  · simp only [ServerRow.keyIndex, ServerRow.key, hip, hport, hidx]
  · rfl

/-- The entry of a row is written. -/
theorem withServerInfo {v : DbServer} (hv : s.cp.HasIndex v.npsIndex) :
    IndexesKept s (s.withEntry (serverInfoEntry v)) where
  rows := rfl
  kept := fun j hj => by
    show Function.update s.nps.serverInfo v.npsIndex _ j ≠ none
    by_cases hidx : j = v.npsIndex
    · rw [hidx, Function.update_self]
      exact Option.some_ne_none _
    · rwa [Function.update_of_ne hidx]
  indexed := fun j hj => by
    change Function.update s.nps.serverInfo v.npsIndex _ j ≠ none at hj
    by_cases hidx : j = v.npsIndex
    · exact .inr (hidx ▸ hv)
    · rw [Function.update_of_ne hidx] at hj
      exact .inl hj
  conn := rfl
  allocated := rfl
  onDemand := rfl

theorem hasIndex_of_row {r : ServerRow} (hr : r ∈ s.cp.servers) :
    s.cp.HasIndex r.server.npsIndex := ⟨r.key, List.mem_map.mpr ⟨r, hr, rfl⟩⟩

theorem hasIndex (h : IndexesKept s s') {j : UInt32} (hj : s.cp.HasIndex j) : s'.cp.HasIndex j := by
  rw [Cp.HasIndex, h.rows]
  exact hj

/-- The rows of the servers of a deleted service stay. -/
theorem deletedService (s : Sys) (v : DbService) : IndexesKept s (s.deletedService v) := by
  let s₁ : Sys :=
    { cp := { s.cp.deleteService v.tuple with
        serviceIndexPool := s.cp.serviceIndexPool.release v.npsIndex.toNat }
      nps := (s.nps.eraseEntry (.serviceClassification
        (buildNpsServiceClassificationKey v.tuple))).eraseEntry
        (.serviceInfo (buildNpsServiceInfoKey v)) }
  have h₁ : IndexesKept s s₁ := by
    refine of_rows rfl (fun r => ?_) rfl rfl rfl rfl
    split <;> rfl
  refine h₁.trans ?_
  have heq : s.deletedService v =
      { s₁ with nps := s₁.nps.deactivatedFirst (s.cp.serverList v.tuple ⟨false, true⟩) } := rfl
  rw [heq, Nps.deactivatedFirst]
  cases hhead : (s.cp.serverList v.tuple ⟨false, true⟩).head? with
  | none => exact same rfl rfl rfl rfl rfl
  | some server =>
    obtain ⟨r, hr, rfl⟩ := List.mem_map.mp (List.mem_of_mem_head? hhead)
    have hmem := hasIndex_of_row (List.mem_of_mem_filter hr)
    exact withServerInfo (s := s₁) (v := r.server.unavailable) (h₁.hasIndex hmem)

theorem withoutServices : ∀ (l : List DbService) (s : Sys),
    IndexesKept s { s with nps := s.nps.withoutServices l }
  | [], s => same rfl rfl rfl rfl rfl
  | v :: l, s => by
    let nps := s.nps.eraseEntry (.serviceClassification (buildNpsServiceClassificationKey v.tuple))
    let s₁ : Sys := { s with nps := nps }
    have h₁ : IndexesKept s s₁ := same rfl rfl rfl rfl rfl
    exact h₁.trans (withoutServices l s₁)

end IndexesKept

/-! ## Rows that come and go -/

/-- A row that comes had no entry and starts at 0; one that goes has a counter that reads 0. -/
structure IndexStep (s s' : Sys) : Prop where
  rows : ∀ r ∈ s'.cp.keyIndexes, r ∈ s.cp.keyIndexes ∨
    s.nps.serverInfo r.2 = none ∧ s'.nps.connTotal r.2 = 0
  total : ∀ r ∈ s.cp.keyIndexes, s'.nps.connTotal r.2 = s.nps.connTotal r.2
  gone : ∀ r ∈ s.cp.keyIndexes, r ∈ s'.cp.keyIndexes ∨ counterValue (s.nps.connTotal r.2) = 0
  indexed : InfoIndexed s'
  conn : s'.nps.connInfo = s.nps.connInfo
  allocated : s'.nps.connIndexAllocated = s.nps.connIndexAllocated

namespace IndexStep

variable {s s₁ s' : Sys}

theorem refl (hi : InfoIndexed s) : IndexStep s s where
  rows := fun _ hr => .inl hr
  total := fun _ _ => rfl
  gone := fun _ hr => .inl hr
  indexed := hi
  conn := rfl
  allocated := rfl

theorem trans (h : IndexStep s s₁) (h' : IndexesKept s₁ s') : IndexStep s s' where
  rows := fun r hr => by
    rw [Nps.connTotal, h'.onDemand]
    exact h.rows r (h'.rows ▸ hr)
  total := fun r hr => by
    rw [Nps.connTotal, h'.onDemand]
    exact h.total r hr
  gone := fun r hr => by
    rw [h'.rows]
    exact h.gone r hr
  indexed := fun j => by
    rw [Cp.HasIndex, h'.rows, ← Cp.HasIndex, ← h.indexed j]
    exact ⟨fun hj => (h'.indexed j hj).elim id (h.indexed j).mpr, h'.kept j⟩
  conn := h'.conn.trans h.conn
  allocated := h'.allocated.trans h.allocated

theorem of_kept (hi : InfoIndexed s) (h : IndexesKept s s') : IndexStep s s' := (refl hi).trans h

/-- A server whose index was free. -/
theorem addedServer (hinv : s.cp.Inv) (hi : InfoIndexed s) {t : ServiceTuple} {v : DbServer}
    {i : Nat}
    {pool : WfPool serverIndexPoolSize} (halloc : s.cp.serverIndexPool.alloc = some (i, pool))
    (hv : v.npsIndex = .ofNat i) : IndexStep s (s.addedServer t v pool) := by
  have hfresh : ∀ key, (key, v.npsIndex) ∉ s.cp.keyIndexes := by
    intro key hmem
    obtain ⟨r, hr, heq⟩ := List.mem_map.mp hmem
    exact hinv.server_index_fresh halloc r hr ((congrArg Prod.snd heq).trans hv)
  have hvi : v.npsIndex.toNat < serverIndexPoolSize := by
    rw [hv, WfPool.alloc_toNat halloc (by decide)]
    exact (WfPool.alloc_spec halloc).1
  constructor
  · intro r hr
    obtain hr | rfl : r ∈ s.cp.keyIndexes ∨ r = ((⟨t, v⟩ : ServerRow).key, v.npsIndex) := by
      simpa [Sys.addedServer, Cp.keyIndexes, ServerRow.keyIndex] using hr
    · exact .inl hr
    · refine .inr ⟨not_not.mp fun hinfo => ?_, if_pos ((inRange_connTotal hvi).mpr rfl)⟩
      obtain ⟨key, hmem⟩ := (hi v.npsIndex).mp hinfo
      exact hfresh key hmem
  · rintro ⟨key, j⟩ hr
    refine if_neg fun hin => hfresh key ?_
    rw [← (inRange_connTotal hvi).mp hin]
    exact hr
  · intro r hr
    exact .inl (by simp [Sys.addedServer, Cp.keyIndexes]; exact .inl (List.mem_map.mp hr))
  · intro j
    show Function.update s.nps.serverInfo v.npsIndex _ j ≠ none ↔ _
    have hrows : (s.addedServer t v pool).cp.keyIndexes =
        s.cp.keyIndexes ++ [((⟨t, v⟩ : ServerRow).key, v.npsIndex)] := by
      simp [Sys.addedServer, Cp.keyIndexes, ServerRow.keyIndex]
    rw [Cp.HasIndex, hrows]
    by_cases hidx : j = v.npsIndex
    · subst hidx
      rw [Function.update_self]
      exact iff_of_true (Option.some_ne_none _) ⟨_, List.mem_append_right _
        (List.mem_singleton_self _)⟩
    · rw [Function.update_of_ne hidx, hi j]
      refine exists_congr fun key => ⟨fun h => List.mem_append_left _ h, fun h => ?_⟩
      obtain h | h := List.mem_append.mp h
      · exact h
      · exact absurd (congrArg Prod.snd (List.mem_singleton.mp h)) hidx
  · rfl
  · rfl

/-- A row whose counter reads 0 is removed. -/
theorem reclaimed (hinv : s.cp.Inv) (hi : InfoIndexed s) {r : ServerRow} (hr : r ∈ s.cp.servers)
    (hzero : counterValue (s.nps.connTotal r.server.npsIndex) = 0) :
    IndexStep s (s.reclaimed r) := by
  have hmem (q : (ServiceTuple × UInt32 × UInt16) × UInt32) :
      q ∈ (s.reclaimed r).cp.keyIndexes ↔ q ∈ s.cp.keyIndexes ∧ q.2 ≠ r.server.npsIndex := by
    constructor
    · intro hq
      obtain ⟨r', hr', rfl⟩ := List.mem_map.mp hq
      obtain ⟨hr', hk⟩ := List.mem_filter.mp hr'
      refine ⟨List.mem_map.mpr ⟨r', hr', rfl⟩, fun heq => ?_⟩
      obtain rfl := hinv.server_eq_of_index hr' hr heq
      simp [ServerRow.key] at hk
    · rintro ⟨hq, hne⟩
      obtain ⟨r', hr', rfl⟩ := List.mem_map.mp hq
      refine List.mem_map.mpr ⟨r', List.mem_filter.mpr ⟨hr', ?_⟩, rfl⟩
      have hkey : r'.key ≠ r.key := fun heq =>
        hne (congrArg (·.server.npsIndex) (hinv.server_eq_of_key hr' hr heq))
      exact decide_eq_true hkey
  constructor
  · exact fun q hq => .inl ((hmem q).mp hq).1
  · exact fun _ _ => rfl
  · intro q hq
    by_cases hidx : q.2 = r.server.npsIndex
    · exact .inr (hidx ▸ hzero)
    · exact .inl ((hmem q).mpr ⟨hq, hidx⟩)
  · intro j
    show Function.update s.nps.serverInfo r.server.npsIndex none j ≠ none ↔ _
    by_cases hidx : j = r.server.npsIndex
    · subst hidx
      rw [Function.update_self]
      refine iff_of_false (fun h => h rfl) fun h => ?_
      obtain ⟨key, hq⟩ := h
      exact ((hmem _).mp hq).2 rfl
    · rw [Function.update_of_ne hidx, hi j]
      exact exists_congr fun key => ⟨fun h => (hmem _).mpr ⟨h, hidx⟩, fun h => ((hmem _).mp h).1⟩
  · rfl
  · rfl

theorem rowAdded (hinv : s.cp.Inv) (hi : InfoIndexed s) {service : DbService} {d : IpVsDestUser}
    {v : DbServer} (hadded : s.RowAdded service d v s₁) : IndexStep s s₁ := by
  obtain ⟨r, hf, -, rfl, rfl⟩ | ⟨-, i, pool, halloc, rfl, rfl⟩ := hadded
  · have hupdate := IndexesKept.updateServer s service.tuple (reactivatedServer r.server d).ip
      (reactivatedServer r.server d).port (f := (reactivatedServer r.server d).activate)
      fun _ => ⟨rfl, rfl, rfl⟩
    have hmem := IndexesKept.hasIndex_of_row (List.mem_of_find?_eq_some hf)
    refine of_kept hi (hupdate.trans (.withServerInfo (v := reactivatedServer r.server d) ?_))
    exact hupdate.hasIndex hmem
  · exact addedServer hinv hi halloc rfl

theorem effect {op : CpOp} (hinv : s.cp.Inv) (hi : InfoIndexed s) (he : s.Effect op s') :
    IndexStep s s' := by
  cases he with
  | addService | modifyService | modifyServiceAlg => exact of_kept hi (.same rfl rfl rfl rfl rfl)
  | @deleteService u uninit v =>
    exact of_kept hi ((IndexesKept.deletedService s v).trans (.same rfl rfl rfl rfl rfl))
  | @addServer u d service v s₁ _ _ hadded =>
    have h₁ := rowAdded hinv hi hadded
    split
    · exact (h₁.trans (.recalculatedService _ _ _)).trans (.same rfl rfl rfl rfl rfl)
    · exact h₁.trans (.same rfl rfl rfl rfl rfl)
  | @modifyServer u d service r s₁ _ hrow _ hs₁ =>
    have h₁ : IndexesKept s s₁ := by
      have hupdate := IndexesKept.updateServer s service.tuple (modifiedServer r.server d).ip
        (modifiedServer r.server d).port (f := (modifiedServer r.server d).modify)
        fun _ => ⟨rfl, rfl, rfl⟩
      rw [hs₁, Sys.modifiedServerRow]
      split <;> exact hupdate.trans (.same rfl rfl rfl rfl rfl)
    have hmem := IndexesKept.hasIndex_of_row (List.mem_of_find?_eq_some hrow)
    split
    · have h₂ := h₁.trans (.recalculatedService s₁ service false)
      exact of_kept hi (h₂.trans (.withServerInfo (v := modifiedServer r.server d)
        (h₂.hasIndex hmem)))
    · exact of_kept hi (h₁.trans (.withServerInfo (v := modifiedServer r.server d)
        (h₁.hasIndex hmem)))
  | @deleteServer u d service r s₁ _ hrow _ hs₁ =>
    have h₁ : IndexesKept s s₁ := by
      rw [hs₁]
      exact .updateServer s _ _ _ fun _ => ⟨rfl, rfl, rfl⟩
    have hmem := IndexesKept.hasIndex_of_row (List.mem_of_find?_eq_some hrow)
    split
    · have h₂ := h₁.trans (.recalculatedService s₁ service false)
      have h₃ := h₂.trans (.withServerInfo (v := r.server.unavailable) (h₂.hasIndex hmem))
      exact of_kept hi (h₃.trans (.same rfl rfl rfl rfl rfl))
    · have h₃ := h₁.trans (.withServerInfo (v := r.server.unavailable) (h₁.hasIndex hmem))
      exact of_kept hi (h₃.trans (.same rfl rfl rfl rfl rfl))
  | clear =>
    refine of_kept hi ((IndexesKept.withoutServices s.cp.services s).trans ?_)
    exact .of_rows rfl (fun _ => rfl) rfl rfl rfl rfl
  | aging hr _ hzero => exact reclaimed hinv hi hr hzero

theorem cpStep (hinv : s.cp.Inv) (hi : InfoIndexed s) (op : CpOp) : IndexStep s (s.cpStep op) := by
  obtain heq | he := cpStep_cases hinv.algs op
  · rw [heq]
    exact refl hi
  · exact effect hinv hi he

end IndexStep

end Alvs
