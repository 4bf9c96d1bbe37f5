import Alvs.Cp.Startup
import Mathlib.Data.Set.Card

/-!
# The table of virtual servers

What the administrator configures : services with an algorithm and flags, and servers of them. A
server that is deleted, or whose service is, stays in the table without being active until its
connections have ended (`VsTable.reclaim`).

`VsTable.handle` : a request that the table admits is applied, any other one changes nothing.
`VsTable.Safe` is kept by all requests (`VsTable.Safe.handle`).
-/

namespace Alvs

/-- A server is named by its service, its address and its port. -/
abbrev ServerKey := ServiceTuple × UInt32 × UInt16

structure VsService where
  alg : AlvsSchedulerType
  flags : UInt32

/-- The values of a server that a request sets. -/
structure VsDest where
  connFlags : UInt32
  weight : UInt16
  uThresh : UInt32
  lThresh : UInt32

structure VsServer extends VsDest where
  active : Bool

/-- Services and servers, the inactive ones too. -/
@[ext] structure VsTable where
  service : ServiceTuple → Option VsService
  server : ServerKey → Option VsServer

/-- The requests on the table. -/
inductive VsRequest
  | newService (t : ServiceTuple) (alg : AlvsSchedulerType) (flags : IpVsFlags)
  | setService (t : ServiceTuple) (alg : AlvsSchedulerType) (flags : IpVsFlags)
  | delService (t : ServiceTuple)
  | newDest (k : ServerKey) (d : VsDest)
  | setDest (k : ServerKey) (d : VsDest)
  | delDest (k : ServerKey)
  | flush

/-- The flags in the mask replaced. -/
def IpVsFlags.applied (f : IpVsFlags) (old : UInt32) : UInt32 :=
  (old &&& ~~~f.mask) ||| (f.flags &&& f.mask)

/-- Direct routing, and the lower threshold is not above the upper one. -/
def VsDest.Acceptable (d : VsDest) : Prop :=
  supportedRoutingAlg d.connFlags = true ∧ d.lThresh ≤ d.uThresh

def VsServer.deactivated (v : VsServer) : VsServer := { v with active := false }

namespace VsTable

/-- The table without services. -/
def empty : VsTable := ⟨fun _ => none, fun _ => none⟩

/-- The services. -/
def services (T : VsTable) : Set ServiceTuple := {t | T.service t ≠ none}

/-- The servers, the inactive ones too. -/
def servers (T : VsTable) : Set ServerKey := {k | T.server k ≠ none}

/-- The active servers of a service. -/
def activeServers (T : VsTable) (t : ServiceTuple) : Set ServerKey :=
  {k | ∃ v, T.server k = some v ∧ k.1 = t ∧ v.active = true}

/-- The servers that `p` chooses deactivated. -/
def deactivate (T : VsTable) (p : ServerKey → Bool) : ServerKey → Option VsServer :=
  fun k => if p k then (T.server k).map VsServer.deactivated else T.server k

/-- The table with the values of a service. -/
def withService (T : VsTable) (t : ServiceTuple) (v : VsService) : VsTable :=
  { T with service := Function.update T.service t (some v) }

/-- The table with the values of a server. -/
def withServer (T : VsTable) (k : ServerKey) (v : VsServer) : VsTable :=
  { T with server := Function.update T.server k (some v) }

/-- The conditions of a request : what it creates is not there and there is room for it, what it
changes is there, and its values are supported. -/
def Admits (T : VsTable) : VsRequest → Prop
  | .newService t alg _ =>
    supportedProtocol t.protocol = true ∧ supportedSchedAlg alg = true ∧ T.service t = none ∧
      T.services.ncard ≠ serviceIndexPoolSize
  | .setService t alg _ => supportedSchedAlg alg = true ∧ T.service t ≠ none
  | .delService t => T.service t ≠ none
  | .newDest k d =>
    d.Acceptable ∧ T.service k.1 ≠ none ∧ (T.activeServers k.1).ncard ≠ alvsSizeOfSchedBucket ∧
      k ∉ T.activeServers k.1 ∧ (T.server k = none → T.servers.ncard ≠ serverIndexPoolSize)
  | .setDest k d => d.Acceptable ∧ T.service k.1 ≠ none ∧ k ∈ T.activeServers k.1
  | .delDest k => T.service k.1 ≠ none ∧ k ∈ T.activeServers k.1
  | .flush => True

/-- A request applied. -/
def apply (T : VsTable) : VsRequest → VsTable
  | .newService t alg flags => T.withService t ⟨alg, flags.applied 0⟩
  | .setService t alg flags =>
    T.withService t ⟨alg, flags.applied (((T.service t).map (·.flags)).getD 0)⟩
  | .delService t => ⟨Function.update T.service t none, T.deactivate fun k => k.1 = t⟩
  | .newDest k d => T.withServer k ⟨d, true⟩
  | .setDest k d => T.withServer k ⟨d, true⟩
  | .delDest k => { T with server := T.deactivate fun k' => k' = k }
  | .flush => ⟨fun _ => none, T.deactivate fun _ => true⟩

open Classical in
/-- A request that is not admitted changes nothing. -/
noncomputable def handle (T : VsTable) (req : VsRequest) : VsTable :=
  if T.Admits req then T.apply req else T

/-- The connections of an inactive server have ended. -/
def reclaim (T : VsTable) (k : ServerKey) : VsTable :=
  { T with server := Function.update T.server k none }

theorem handle_of_admits {T : VsTable} {req : VsRequest} (h : T.Admits req) :
    T.handle req = T.apply req := if_pos h

theorem handle_of_not_admits {T : VsTable} {req : VsRequest} (h : ¬ T.Admits req) :
    T.handle req = T := if_neg h

/-! ## What every table keeps -/

/-- What is configured is supported, an active server has its service, and the table keeps its
bounds. -/
structure Safe (T : VsTable) : Prop where
  service : ∀ t v, T.service t = some v →
    supportedProtocol t.protocol = true ∧ supportedSchedAlg v.alg = true
  server : ∀ k v, T.server k = some v → v.toVsDest.Acceptable
  active : ∀ t, ∀ k ∈ T.activeServers t, T.service t ≠ none
  services_finite : T.services.Finite
  services_le : T.services.ncard ≤ serviceIndexPoolSize
  servers_finite : T.servers.Finite
  servers_le : T.servers.ncard ≤ serverIndexPoolSize
  active_le : ∀ t, (T.activeServers t).ncard ≤ alvsSizeOfSchedBucket

namespace Safe

variable {T : VsTable}

theorem empty : VsTable.empty.Safe := by
  have hservices : VsTable.empty.services = ∅ := by simp [VsTable.empty, services]
  have hservers : VsTable.empty.servers = ∅ := by simp [VsTable.empty, servers]
  have hactive (t : ServiceTuple) : VsTable.empty.activeServers t = ∅ := by
    simp [VsTable.empty, activeServers]
  refine ⟨fun _ _ h => absurd h.symm (Option.some_ne_none _),
    fun _ _ h => absurd h.symm (Option.some_ne_none _), fun t k hk => ?_, ?_, ?_, ?_, ?_,
    fun t => ?_⟩
  · rw [hactive] at hk
    exact hk.elim
  all_goals simp [hservices, hservers, hactive]

theorem activeServers_subset (T : VsTable) (t : ServiceTuple) : T.activeServers t ⊆ T.servers := by
  rintro k ⟨v, hv, -, -⟩
  exact fun h => Option.some_ne_none v (hv.symm.trans h)

/-- No more services and servers are there, and no more servers are active. -/
theorem of_fewer (h : T.Safe) {T' : VsTable}
    (hservice : ∀ t v, T'.service t = some v → T.service t = some v)
    (hserver : ∀ k v, T'.server k = some v → ∃ w, T.server k = some w ∧
      v.toVsDest = w.toVsDest ∧ (v.active = true → w.active = true ∧
        (T.service k.1 ≠ none → T'.service k.1 ≠ none))) : T'.Safe := by
  have hservices : T'.services ⊆ T.services := by
    intro t ht
    obtain ⟨v, hv⟩ := Option.ne_none_iff_exists'.mp ht
    exact fun hnone => Option.some_ne_none v ((hservice t v hv).symm.trans hnone)
  have hservers : T'.servers ⊆ T.servers := by
    intro k hk
    obtain ⟨v, hv⟩ := Option.ne_none_iff_exists'.mp hk
    obtain ⟨w, hw, -⟩ := hserver k v hv
    exact fun hnone => Option.some_ne_none w (hw.symm.trans hnone)
  have hactive (t : ServiceTuple) : T'.activeServers t ⊆ T.activeServers t := by
    rintro k ⟨v, hv, hk, hact⟩
    obtain ⟨w, hw, -, hwact⟩ := hserver k v hv
    exact ⟨w, hw, hk, (hwact hact).1⟩
  refine ⟨fun t v hv => h.service t v (hservice t v hv), fun k v hv => ?_, ?_,
    h.services_finite.subset hservices,
    (Set.ncard_le_ncard hservices h.services_finite).trans h.services_le,
    h.servers_finite.subset hservers,
    (Set.ncard_le_ncard hservers h.servers_finite).trans h.servers_le, fun t => ?_⟩
  · obtain ⟨w, hw, hdest, -⟩ := hserver k v hv
    exact hdest ▸ h.server k w hw
  · rintro t k ⟨v, hv, rfl, hact⟩
    obtain ⟨w, hw, -, hwact⟩ := hserver k v hv
    exact (hwact hact).2 (h.active k.1 k ⟨w, hw, rfl, (hwact hact).1⟩)
  · exact (Set.ncard_le_ncard (hactive t)
      (h.servers_finite.subset (activeServers_subset T t))).trans (h.active_le t)

theorem reclaim (h : T.Safe) (k : ServerKey) : (T.reclaim k).Safe := by
  refine h.of_fewer (fun _ _ hv => hv) fun k' v hv => ?_
  by_cases hk : k' = k
  · subst hk
    simp [VsTable.reclaim] at hv
  · exact ⟨v, by simpa [VsTable.reclaim, hk] using hv, rfl, fun hact => ⟨hact, id⟩⟩

/-- Servers deactivated, those of the services that are removed among them. -/
theorem deactivate (h : T.Safe) {service : ServiceTuple → Option VsService} {p : ServerKey → Bool}
    (hservice : ∀ t v, service t = some v → T.service t = some v)
    (hp : ∀ k, p k = false → service k.1 = T.service k.1) :
    VsTable.Safe ⟨service, T.deactivate p⟩ := by
  refine h.of_fewer hservice fun k v hv => ?_
  by_cases hpk : p k = true
  · simp only [VsTable.deactivate, if_pos hpk, Option.map_eq_some_iff] at hv
    obtain ⟨w, hw, rfl⟩ := hv
    exact ⟨w, hw, rfl, fun hact => absurd hact (by simp [VsServer.deactivated])⟩
  · simp only [VsTable.deactivate, if_neg hpk] at hv
    exact ⟨v, hv, rfl, fun hact =>
      ⟨hact, (hp k (by simpa using hpk)).trans_ne⟩⟩

theorem withService (h : T.Safe) {t : ServiceTuple} {v : VsService}
    (hprotocol : supportedProtocol t.protocol = true) (halg : supportedSchedAlg v.alg = true)
    (hroom : (insert t T.services).ncard ≤ serviceIndexPoolSize) : (T.withService t v).Safe := by
  have hservice (t' : ServiceTuple) (hne : T.service t' ≠ none) :
      (T.withService t v).service t' ≠ none := by
    by_cases ht : t' = t <;> simp [VsTable.withService, ht, hne]
  have hservices : (T.withService t v).services = insert t T.services := by
    ext t'
    by_cases ht : t' = t <;> simp [services, VsTable.withService, ht]
  refine ⟨fun t' w hw => ?_, h.server, fun t' k hk => hservice t' (h.active t' k hk), ?_, ?_,
    h.servers_finite, h.servers_le, h.active_le⟩
  · by_cases ht : t' = t
    · subst ht
      obtain rfl : v = w := by simpa [VsTable.withService] using hw
      exact ⟨hprotocol, halg⟩
    · exact h.service t' w (by simpa [VsTable.withService, ht] using hw)
  · exact hservices ▸ h.services_finite.insert t
  · exact hservices ▸ hroom

theorem withServer (h : T.Safe) {k : ServerKey} {d : VsDest} (hd : d.Acceptable)
    (hservice : T.service k.1 ≠ none) (hroom : (insert k T.servers).ncard ≤ serverIndexPoolSize)
    (hactive : (insert k (T.activeServers k.1)).ncard ≤ alvsSizeOfSchedBucket) :
    (T.withServer k ⟨d, true⟩).Safe := by
  have hservers : (T.withServer k ⟨d, true⟩).servers = insert k T.servers := by
    ext k'
    by_cases hk : k' = k <;> simp [servers, VsTable.withServer, hk]
  have hmem (t : ServiceTuple) (k' : ServerKey)
      (hk' : k' ∈ (T.withServer k ⟨d, true⟩).activeServers t) : k' = k ∧ k.1 = t ∨
      k' ∈ T.activeServers t := by
    obtain ⟨v, hv, rfl, hact⟩ := hk'
    by_cases hk : k' = k
    · exact .inl ⟨hk, by rw [hk]⟩
    · exact .inr ⟨v, by simpa [VsTable.withServer, hk] using hv, rfl, hact⟩
  have hfinite (t : ServiceTuple) : (T.activeServers t).Finite :=
    h.servers_finite.subset (activeServers_subset T t)
  refine ⟨h.service, fun k' v hv => ?_, fun t k' hk' => ?_, h.services_finite, h.services_le,
    hservers ▸ h.servers_finite.insert k, hservers ▸ hroom, fun t => ?_⟩
  · by_cases hk : k' = k
    · subst hk
      obtain rfl : (⟨d, true⟩ : VsServer) = v := by simpa [VsTable.withServer] using hv
      exact hd
    · exact h.server k' v (by simpa [VsTable.withServer, hk] using hv)
  · obtain ⟨-, rfl⟩ | hk := hmem t k' hk'
    · exact hservice
    · exact h.active t k' hk
  · by_cases ht : k.1 = t
    · subst ht
      refine (Set.ncard_le_ncard (fun k' hk' => ?_) ((hfinite k.1).insert k)).trans hactive
      obtain ⟨rfl, -⟩ | hk := hmem _ k' hk'
      · exact Set.mem_insert _ _
      · exact Set.mem_insert_of_mem _ hk
    · refine (Set.ncard_le_ncard (fun k' hk' => ?_) (hfinite t)).trans (h.active_le t)
      obtain ⟨-, heq⟩ | hk := hmem t k' hk'
      · exact absurd heq ht
      · exact hk

/-- There is room for one more where the bound is not reached. -/
theorem ncard_insert_le {α : Type} {s : Set α} {n : Nat} (a : α) (hle : s.ncard ≤ n)
    (hne : a ∉ s → s.ncard ≠ n) : (insert a s).ncard ≤ n := by
  by_cases ha : a ∈ s
  · rwa [Set.insert_eq_of_mem ha]
  · have := Set.ncard_insert_le a s
    have := hne ha
    omega

/-- Every request keeps it. -/
theorem handle (h : T.Safe) (req : VsRequest) : (T.handle req).Safe := by
  by_cases hadmits : T.Admits req
  swap
  · rwa [handle_of_not_admits hadmits]
  rw [handle_of_admits hadmits]
  cases req with
  | newService t alg flags =>
    obtain ⟨hprotocol, halg, -, hroom⟩ := hadmits
    exact h.withService hprotocol halg (ncard_insert_le t h.services_le fun _ => hroom)
  | setService t alg flags =>
    obtain ⟨halg, hservice⟩ := hadmits
    obtain ⟨v, hv⟩ := Option.ne_none_iff_exists'.mp hservice
    exact h.withService (h.service t v hv).1 halg
      (ncard_insert_le t h.services_le fun ht => absurd hservice ht)
  | delService t =>
    refine h.deactivate (fun t' v hv => ?_) fun k hk => ?_
    · by_cases ht : t' = t
      · simp [ht] at hv
      · simpa [ht] using hv
    · exact Function.update_of_ne (by simpa using hk) _ _
  | newDest k d =>
    obtain ⟨hd, hservice, hcount, hactive, hroom⟩ := hadmits
    exact h.withServer hd hservice
      (ncard_insert_le k h.servers_le fun hk => hroom (by simpa [servers] using hk))
      (ncard_insert_le k (h.active_le k.1) fun _ => hcount)
  | setDest k d =>
    obtain ⟨hd, hservice, hactive⟩ := hadmits
    exact h.withServer hd hservice
      (ncard_insert_le k h.servers_le fun hk => absurd (activeServers_subset T k.1 hactive) hk)
      (ncard_insert_le k (h.active_le k.1) fun hk => absurd hactive hk)
  | delDest k => exact h.deactivate (fun _ _ hv => hv) fun _ _ => rfl
  | flush =>
    exact h.deactivate (fun _ _ hv => absurd hv.symm (Option.some_ne_none _)) fun _ hp =>
      absurd hp (by decide)

end Safe

end VsTable

end Alvs
