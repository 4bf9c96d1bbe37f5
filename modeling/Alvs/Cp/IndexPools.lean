import Alvs.Cp.Outcomes
import Alvs.Lib.Runs

/-!
# The index pools and the rows

`Cp.Inv` says that the index of every row is allocated. `Cp.Held` says the converse : every
index that is allocated is that of a row, active or inactive. Both are kept by every effect
on the database, so by every run in which no request returns an error (`indexUnique_run`).
A request that returns one may leave a row without its index : it is released where an
entry of the row cannot be written.
-/

namespace Alvs

open ProgLogic

/-- Every allocated index is that of a row. -/
structure Cp.Held (cp : Cp) : Prop where
  services : ∀ i, cp.serviceIndexPool.flag i = true → ∃ v ∈ cp.services, v.npsIndex.toNat = i
  servers : ∀ i, cp.serverIndexPool.flag i = true →
    ∃ r ∈ cp.servers, r.server.npsIndex.toNat = i

namespace Cp.Held

variable {cp : Cp}

theorem init : Sys.init.cp.Held where
  services i h := by simp [Sys.init] at h
  servers i h := by simp [Sys.init] at h

theorem addService (h : cp.Held) {v : DbService} {i : Nat} {pool : WfPool serviceIndexPoolSize}
    (halloc : cp.serviceIndexPool.alloc = some (i, pool)) (hi : v.npsIndex = .ofNat i) :
    Cp.Held { cp with services := cp.services ++ [v], serviceIndexPool := pool } where
  services j hj := by
    obtain ⟨-, -, hflag⟩ := WfPool.alloc_spec halloc
    rw [hflag] at hj
    split at hj
    next hji =>
      refine ⟨v, by simp, ?_⟩
      rw [hi, hji]
      exact WfPool.alloc_toNat halloc (by decide)
    next =>
      obtain ⟨w, hw, hwj⟩ := h.services j hj
      exact ⟨w, List.mem_append_left _ hw, hwj⟩
  servers := h.servers

/-- A change of service rows that keeps their indexes. -/
theorem mapServices (h : cp.Held) {f : DbService → DbService}
    (hf : ∀ v, (f v).npsIndex = v.npsIndex) :
    Cp.Held { cp with services := cp.services.map f } where
  services j hj := by
    obtain ⟨w, hw, hwj⟩ := h.services j hj
    exact ⟨f w, List.mem_map_of_mem hw, (congrArg UInt32.toNat (hf w)).trans hwj⟩
  servers := h.servers

theorem mapServers (h : cp.Held) {f : ServerRow → ServerRow}
    (hf : ∀ r, (f r).server.npsIndex = r.server.npsIndex) :
    Cp.Held { cp with servers := cp.servers.map f } where
  services := h.services
  servers j hj := by
    obtain ⟨r, hr, hrj⟩ := h.servers j hj
    exact ⟨f r, List.mem_map_of_mem hr, (congrArg UInt32.toNat (hf r)).trans hrj⟩

theorem updateServer (h : cp.Held) {t : ServiceTuple} {ip : UInt32} {port : UInt16}
    {f : DbServer → DbServer} (hf : ∀ v, (f v).npsIndex = v.npsIndex) :
    (cp.updateServer t ip port f).Held := by
  refine h.mapServers fun r => ?_
  split
  · exact hf _
  · rfl

/-- A service deleted, the other services kept, and its index released. -/
theorem deleteService (h : cp.Held) (hinv : cp.Inv) {v : DbService} (hv : v ∈ cp.services) :
    Cp.Held { cp.deleteService v.tuple with
      serviceIndexPool := cp.serviceIndexPool.release v.npsIndex.toNat } where
  services j hj := by
    rw [WfPool.release_flag (hinv.services_index v hv).1] at hj
    split at hj
    · cases hj
    next hne =>
      obtain ⟨w, hw, hwj⟩ := h.services j hj
      refine ⟨w, List.mem_filter.mpr ⟨hw, ?_⟩, hwj⟩
      simp only [ne_eq, decide_not, Bool.not_eq_eq_eq_not, Bool.not_true, decide_eq_false_iff_not]
      intro htuple
      rw [hinv.service_eq_of_tuple hw hv htuple] at hwj
      exact hne hwj.symm
  servers := (h.mapServers fun r => by split <;> rfl).servers

theorem addServer (h : cp.Held) {t : ServiceTuple} {v : DbServer} {i : Nat}
    {pool : WfPool serverIndexPoolSize}
    (halloc : cp.serverIndexPool.alloc = some (i, pool)) (hi : v.npsIndex = .ofNat i) :
    Cp.Held { cp with servers := cp.servers ++ [⟨t, v⟩], serverIndexPool := pool } where
  services := h.services
  servers j hj := by
    obtain ⟨-, -, hflag⟩ := WfPool.alloc_spec halloc
    rw [hflag] at hj
    split at hj
    next hji =>
      refine ⟨⟨t, v⟩, by simp, ?_⟩
      rw [hi, hji]
      exact WfPool.alloc_toNat halloc (by decide)
    next =>
      obtain ⟨r, hr, hrj⟩ := h.servers j hj
      exact ⟨r, List.mem_append_left _ hr, hrj⟩

/-- A server deleted, the other servers kept, and its index released. -/
theorem deleteServer (h : cp.Held) (hinv : cp.Inv) {r : ServerRow} (hr : r ∈ cp.servers) :
    Cp.Held { cp.deleteServer r.srv r.server.ip r.server.port with
      serverIndexPool := cp.serverIndexPool.release r.server.npsIndex.toNat } where
  services := h.services
  servers j hj := by
    rw [WfPool.release_flag (hinv.servers_index r hr).1] at hj
    split at hj
    · cases hj
    next hne =>
      obtain ⟨r', hr', hrj⟩ := h.servers j hj
      refine ⟨r', List.mem_filter.mpr ⟨hr', ?_⟩, hrj⟩
      simp only [ne_eq, decide_not, Bool.not_eq_eq_eq_not, Bool.not_true, decide_eq_false_iff_not]
      intro hkey
      rw [hinv.server_eq_of_key hr' hr hkey] at hrj
      exact hne hrj.symm

theorem rowAdded (h : cp.Held) {service : DbService} {d : IpVsDestUser} {v : DbServer} {cp₁ : Cp}
    (hadded : cp.RowAdded service d v cp₁) : cp₁.Held := by
  obtain ⟨r, -, -, -, rfl⟩ | ⟨-, i, pool, halloc, rfl, rfl⟩ := hadded
  · exact h.updateServer fun _ => rfl
  · exact h.addServer halloc rfl

/-- Every effect on the database keeps it. -/
theorem cpEffect {cp' : Cp} {op : CpOp} (h : cp.Held) (hinv : cp.Inv) (he : cp.Effect op cp') :
    cp'.Held := by
  cases he with
  | addService _ _ halloc => exact h.addService halloc rfl
  | @modifyService u v hsup =>
    refine h.mapServices fun w => ?_
    split <;> rfl
  | deleteService hfind => exact h.deleteService hinv (List.mem_of_find?_eq_some hfind)
  | addServer hadded => exact h.rowAdded hadded
  | addServerCount hadded _ =>
    refine (h.rowAdded hadded).mapServices fun w => ?_
    split <;> rfl
  | modifyServer _ => exact h.updateServer fun _ => rfl
  | deleteServer => exact h.updateServer fun _ => rfl
  | clear =>
    have hmap := h.mapServers (f := fun r => { r with server := r.server.deactivated })
      fun _ => rfl
    exact ⟨fun i hi => by simp at hi, hmap.servers⟩
  | aging hr => exact h.deleteServer hinv hr

end Cp.Held

/-! ## Runs without errors -/

/-- The request returns neither `ALVS_DB_INTERNAL_ERROR` nor `ALVS_DB_NPS_ERROR`. -/
def NoError (s : Sys) (a : CpAttempt) : Prop :=
  (s.serve a).1 ≠ .internalError ∧ (s.serve a).1 ≠ .npsError

instance (s : Sys) (a : CpAttempt) : Decidable (NoError s a) := inferInstanceAs (Decidable (_ ∧ _))

/-- A request that returns no error leaves the tables and pools of services and servers as
they are, or has the effect of an operation. -/
theorem served_cases {s : Sys} (hs : s.cp.AlgsSupported) {a : CpAttempt} (h : NoError s a) :
    (s.served a).cp = { s.cp with applicationInfo := (s.served a).cp.applicationInfo } ∨
      ∃ op, s.cp.Effect op (s.served a).cp := by
  obtain ⟨request, env, value⟩ := a
  obtain ⟨pick, rfl⟩ | ⟨op, hop, rfl⟩ | hd := request.aging_or_command
  · obtain herr | ⟨-, heq | ⟨pick', he⟩⟩ :=
      (serve_aging hs env value pick).2
    · exact absurd herr h.1
    · exact .inl (by rw [heq])
    · exact .inr ⟨_, he⟩
  · have ho := serve_admin hs env value hop
    obtain hok | hrejected | hrejected | herr | herr := ho.known
    · exact .inr ⟨op, (ho.ok hok).1⟩
    · exact .inl (by rw [Sys.served, (ho.rejected (.inl hrejected)).1])
    · exact .inl (by rw [Sys.served, (ho.rejected (.inr hrejected)).1])
    · exact absurd herr h.1
    · exact absurd herr h.2
  · exact .inl (serve_daemon s hd env value).tables

/-- The rows of each table have distinct indexes, the allocated indexes of each pool are
those of its rows, and an allocation returns an index of no row. -/
structure Cp.IndexUnique (cp : Cp) : Prop where
  services : cp.services.Pairwise (·.npsIndex ≠ ·.npsIndex)
  servers : cp.servers.Pairwise (·.server.npsIndex ≠ ·.server.npsIndex)
  serviceFlag : ∀ i, cp.serviceIndexPool.flag i = true ↔ ∃ v ∈ cp.services, v.npsIndex.toNat = i
  serverFlag : ∀ i, cp.serverIndexPool.flag i = true ↔
    ∃ r ∈ cp.servers, r.server.npsIndex.toNat = i
  serviceAlloc : ∀ i pool, cp.serviceIndexPool.alloc = some (i, pool) →
    ∀ v ∈ cp.services, v.npsIndex.toNat ≠ i
  serverAlloc : ∀ i pool, cp.serverIndexPool.alloc = some (i, pool) →
    ∀ r ∈ cp.servers, r.server.npsIndex.toNat ≠ i

theorem Cp.IndexUnique.of_inv {cp : Cp} (hinv : cp.Inv) (hheld : cp.Held) : cp.IndexUnique where
  services := hinv.services_distinct.imp And.right
  servers := hinv.servers_distinct.imp And.right
  serviceFlag i := by
    refine ⟨hheld.services i, ?_⟩
    rintro ⟨v, hv, rfl⟩
    exact (hinv.services_index v hv).2
  serverFlag i := by
    refine ⟨hheld.servers i, ?_⟩
    rintro ⟨r, hr, rfl⟩
    exact (hinv.servers_index r hr).2
  serviceAlloc i pool halloc v hv := by
    rintro rfl
    have hfree := (WfPool.alloc_spec halloc).2.1
    rw [(hinv.services_index v hv).2] at hfree
    cases hfree
  serverAlloc i pool halloc r hr := by
    rintro rfl
    have hfree := (WfPool.alloc_spec halloc).2.1
    rw [(hinv.servers_index r hr).2] at hfree
    cases hfree

theorem held_served (s : Sys) (a : CpAttempt) (h : s.cp.Inv ∧ s.cp.Held) (hok : NoError s a) :
    (s.served a).cp.Inv ∧ (s.served a).cp.Held := by
  obtain ⟨hinv, hheld⟩ := h
  obtain heq | ⟨op, he⟩ := served_cases hinv.algs hok
  · rw [heq]
    exact ⟨⟨hinv.algs, hinv.services_distinct, hinv.services_index, hinv.servers_distinct,
      hinv.servers_index, hinv.servers_ok⟩, hheld.services, hheld.servers⟩
  · exact ⟨inv_cpEffect hinv he, hheld.cpEffect hinv he⟩

/-- Along every run in which no request returns an error. -/
theorem indexUnique_run (as : List CpAttempt) (h : Always NoError Sys.served Sys.init as) :
    (as.foldl Sys.served Sys.init).cp.IndexUnique := by
  obtain ⟨hinv, hheld⟩ := Always.invariant held_served _ as ⟨.init, .init⟩ h
  exact .of_inv hinv hheld

/-- A service is added twice, a server added, deleted and reclaimed, and another one added
before everything is cleared. -/
def reclaimRun : List CpAttempt :=
  ([.addService exampleService, .addService exampleService,
    .addServer exampleService (exampleServer 0 1),
    .deleteServer exampleService (exampleServer 0 1), .aging 0,
    .addServer exampleService (exampleServer 1 1), .clear] : List CpOp).map fun op =>
      ⟨.ipvs op, fun _ => ⟨false, 0⟩, 0⟩

theorem indexUnique_run_reclaim : (reclaimRun.foldl Sys.served Sys.init).cp.IndexUnique :=
  indexUnique_run reclaimRun (by decide +kernel)

end Alvs
