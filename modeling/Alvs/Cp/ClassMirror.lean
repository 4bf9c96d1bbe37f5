import Alvs.Cp.InfoMirror

/-!
# The server classification table mirrors the active servers

`ServerClassMirror` : the server classification table maps a key to an index exactly when
an active server row has that key and that index; so no entry designates an index that is
free or belongs to another server.

Only `alvs_db_add_server` and `alvs_db_delete_server` write the table. Deleting a service
and clearing the database deactivate servers without deleting their entries, so the
mirror is kept where they find no active server (`ClassOk`, `serverClassMirror_run`).
`serverClassMirror_fails` is a run that breaks it.
-/

namespace Alvs

open ProgLogic

/-- The classification key of a server row. -/
def ServerRow.classKey (r : ServerRow) : ServerClassificationKey :=
  buildNpsServerClassificationKey r.srv r.server.ip r.server.port

/-- An active row has key `k` and index `i`. -/
def ActiveAt (servers : List ServerRow) (k : ServerClassificationKey) (i : UInt32) : Prop :=
  ∃ r ∈ servers, r.server.active = true ∧ r.classKey = k ∧ r.server.npsIndex = i

/-- The entries of the server classification table are the active server rows, and the
index of an entry is allocated and belongs to no other server. -/
def ServerClassMirror (s : Sys) : Prop :=
  ∀ k i, (s.nps.serverClassification k = some i ↔ ActiveAt s.cp.servers k i) ∧
    (s.nps.serverClassification k = some i → s.cp.serverIndexPool.flag i.toNat = true ∧
      ∀ r ∈ s.cp.servers, r.server.npsIndex = i → r.classKey = k)

def ClassAgrees (servers : List ServerRow) (cls : ServerClassificationKey → Option UInt32) :
    Prop :=
  ∀ k i, cls k = some i ↔ ActiveAt servers k i

theorem ClassAgrees.mirror {s : Sys} (h : s.cp.Inv)
    (ha : ClassAgrees s.cp.servers s.nps.serverClassification) : ServerClassMirror s := by
  refine fun k i => ⟨ha k i, fun hki => ?_⟩
  obtain ⟨r, hr, -, rfl, rfl⟩ := (ha k i).mp hki
  exact ⟨(h.servers_index r hr).2, fun r' hr' hi => by rw [h.server_eq_of_index hr' hr hi]⟩

theorem classKey_eq_iff {r : ServerRow} {t : ServiceTuple} {ip : UInt32} {port : UInt16} :
    r.classKey = buildNpsServerClassificationKey t ip port ↔ r.key = (t, ip, port) := by
  obtain ⟨⟨sip, sport, sproto⟩, v⟩ := r
  obtain ⟨tip, tport, tproto⟩ := t
  simp only [ServerRow.classKey, buildNpsServerClassificationKey, ServerRow.key,
    ServerClassificationKey.mk.injEq, Prod.mk.injEq, ServiceTuple.mk.injEq]
  tauto

/-! ## Which rows are active after a change -/

section Changes

variable {cp : Cp} {k : ServerClassificationKey} {i : UInt32}

/-- A change of the rows that keeps keys, indexes and what is active. -/
theorem activeAt_map {servers : List ServerRow} {f : ServerRow → ServerRow}
    (hf : ∀ r ∈ servers, (f r).classKey = r.classKey ∧
      (f r).server.npsIndex = r.server.npsIndex ∧ (f r).server.active = r.server.active) :
    ActiveAt (servers.map f) k i ↔ ActiveAt servers k i := by
  constructor
  · rintro ⟨r', hr', hact, hk, hi⟩
    obtain ⟨r, hr, rfl⟩ := List.mem_map.mp hr'
    obtain ⟨hfk, hfi, hfa⟩ := hf r hr
    exact ⟨r, hr, hfa ▸ hact, hfk ▸ hk, hfi ▸ hi⟩
  · rintro ⟨r, hr, hact, hk, hi⟩
    obtain ⟨hfk, hfi, hfa⟩ := hf r hr
    exact ⟨f r, List.mem_map_of_mem hr, hfa.trans hact, hfk.trans hk, hfi.trans hi⟩

/-- The update of one row keeps the other rows. -/
theorem activeAt_updateServer (h : cp.Inv) {t : ServiceTuple} {ip : UInt32} {port : UInt16}
    {r : ServerRow} (hf : cp.findServer t ip port = some r) {f : DbServer → DbServer}
    (hip : (f r.server).ip = r.server.ip) (hport : (f r.server).port = r.server.port)
    (hi : (f r.server).npsIndex = r.server.npsIndex) :
    ActiveAt (cp.updateServer t ip port f).servers k i ↔
      if k = buildNpsServerClassificationKey t ip port
      then (f r.server).active = true ∧ r.server.npsIndex = i
      else ActiveAt cp.servers k i := by
  have hr := List.mem_of_find?_eq_some hf
  have hkey := Cp.findServer_key hf
  have hfkey : ({ r with server := f r.server } : ServerRow).key = (t, ip, port) := by
    rw [← hkey]
    simp [ServerRow.key, hip, hport]
  constructor
  · rintro ⟨r', hr', hact, rfl, rfl⟩
    obtain ⟨r₀, hr₀, rfl⟩ := List.mem_map.mp hr'
    by_cases hk : r₀.key = (t, ip, port)
    · obtain rfl := h.eq_of_findServer hf hr₀ hk
      simp only [hk, if_true] at hact ⊢
      rw [if_pos (classKey_eq_iff.mpr hfkey), hi]
      exact ⟨hact, rfl⟩
    · simp only [hk, if_false] at hact ⊢
      rw [if_neg (mt classKey_eq_iff.mp hk)]
      exact ⟨r₀, hr₀, hact, rfl, rfl⟩
  · split_ifs with hk
    · rintro ⟨hact, rfl⟩
      refine ⟨{ r with server := f r.server }, List.mem_map.mpr ⟨r, hr, ?_⟩, hact, ?_, hi⟩
      · rw [if_pos hkey]
      · rw [hk, classKey_eq_iff]
        exact hfkey
    · rintro ⟨r₀, hr₀, hact, rfl, rfl⟩
      refine ⟨r₀, List.mem_map.mpr ⟨r₀, hr₀, ?_⟩, hact, rfl, rfl⟩
      rw [if_neg (mt classKey_eq_iff.mpr hk)]

theorem activeAt_append {servers : List ServerRow} {r : ServerRow} (hact : r.server.active = true)
    (hne : ∀ r' ∈ servers, r'.classKey ≠ r.classKey) :
    ActiveAt (servers ++ [r]) k i ↔
      if k = r.classKey then r.server.npsIndex = i else ActiveAt servers k i := by
  simp only [ActiveAt, List.mem_append, List.mem_singleton]
  split_ifs with hk
  · subst hk
    constructor
    · rintro ⟨r', hr' | rfl, -, hk, hi⟩
      exacts [absurd hk (hne r' hr'), hi]
    · exact fun hi => ⟨r, .inr rfl, hact, rfl, hi⟩
  · constructor
    · rintro ⟨r', hr' | rfl, hact', hk', hi⟩
      exacts [⟨r', hr', hact', hk', hi⟩, absurd hk'.symm hk]
    · exact fun ⟨r', hr', hact', hk', hi⟩ => ⟨r', .inl hr', hact', hk', hi⟩

/-- The deletion of an inactive row. -/
theorem activeAt_deleteServer (h : cp.Inv) {r : ServerRow} (hr : r ∈ cp.servers)
    (hact : r.server.active = false) :
    ActiveAt (cp.deleteServer r.srv r.server.ip r.server.port).servers k i ↔
      ActiveAt cp.servers k i := by
  constructor
  · rintro ⟨r', hr', hrest⟩
    exact ⟨r', List.mem_of_mem_filter hr', hrest⟩
  · rintro ⟨r', hr', hact', hrest⟩
    refine ⟨r', List.mem_filter.mpr ⟨hr', ?_⟩, hact', hrest⟩
    have hk : r'.key ≠ r.key := fun hk => by
      rw [h.server_eq_of_key hr' hr hk, hact] at hact'
      cases hact'
    simpa using (show r'.key ≠ (r.srv, r.server.ip, r.server.port) from hk)

end Changes

/-! ## The runs that keep the mirror -/

/-- The condition on an operation : a deleted service has no active server, and no server
is active when the database is cleared. -/
def ClassOk (s : Sys) : CpOp → Prop
  | .deleteService u _ => ∀ r ∈ s.cp.servers, r.srv = u.tuple → r.server.active = false
  | .clear => ∀ r ∈ s.cp.servers, r.server.active = false
  | _ => True

instance decidableClassOk (s : Sys) : (op : CpOp) → Decidable (ClassOk s op)
  | .deleteService u _ =>
    inferInstanceAs (Decidable (∀ r ∈ s.cp.servers, r.srv = u.tuple → r.server.active = false))
  | .clear => inferInstanceAs (Decidable (∀ r ∈ s.cp.servers, r.server.active = false))
  | .addService _ => .isTrue trivial
  | .modifyService _ => .isTrue trivial
  | .addServer _ _ => .isTrue trivial
  | .modifyServer _ _ => .isTrue trivial
  | .deleteServer _ _ => .isTrue trivial
  | .aging _ => .isTrue trivial

/-- The new row of `alvs_db_add_server` and the classification entry it adds. -/
theorem classAgrees_rowAdded {s s₁ : Sys} (h : s.cp.Inv)
    (ha : ClassAgrees s.cp.servers s.nps.serverClassification) {service : DbService}
    {d : IpVsDestUser} {v : DbServer} (hadded : s.RowAdded service d v s₁) :
    s₁.nps.serverClassification = s.nps.serverClassification ∧
      ClassAgrees s₁.cp.servers (Function.update s.nps.serverClassification
        (buildNpsServerClassificationKey service.tuple v.ip v.port) (some v.npsIndex)) := by
  obtain ⟨r, hf, -, rfl, rfl⟩ | ⟨hf, i, pool, halloc, rfl, rfl⟩ := hadded
  · refine ⟨rfl, fun k i => ?_⟩
    have hsrv : r.srv = service.tuple := congrArg Prod.fst (Cp.findServer_key hf)
    have hf' : s.cp.findServer service.tuple (reactivatedServer r.server d).ip
        (reactivatedServer r.server d).port = some r := hsrv ▸ Cp.findServer_self hf
    rw [Sys.reactivated, activeAt_updateServer h hf' rfl rfl rfl, Function.update_apply]
    split_ifs
    · simp [DbServer.activate, reactivatedServer]
    · exact ha k i
  · refine ⟨rfl, fun k i' => ?_⟩
    rw [Sys.addedServer, activeAt_append rfl, Function.update_apply]
    · split_ifs with hk hk' hk'
      · simp
      · exact absurd hk hk'
      · exact absurd hk' hk
      · exact ha k i'
    · exact fun r hr hk => Cp.Inv.server_ne_of_find_none hf hr (classKey_eq_iff.mp hk)

theorem deactivatedFirst_class (nps : Nps) (l : List DbServer) :
    (nps.deactivatedFirst l).serverClassification = nps.serverClassification := by
  unfold Nps.deactivatedFirst
  split <;> rfl

theorem withoutServices_class : ∀ (l : List DbService) (nps : Nps),
    (nps.withoutServices l).serverClassification = nps.serverClassification
  | [], _ => rfl
  | _ :: l, _ => withoutServices_class l _

theorem classAgrees_effect {s s' : Sys} {op : CpOp} (h : s.cp.Inv)
    (ha : ClassAgrees s.cp.servers s.nps.serverClassification) (hok : ClassOk s op)
    (he : s.Effect op s') : ClassAgrees s'.cp.servers s'.nps.serverClassification := by
  cases he with
  | addService | modifyService | modifyServiceAlg => exact ha
  | @deleteService u _ v hfind =>
    intro k i
    change (Nps.deactivatedFirst _ _).serverClassification k = some i ↔ _
    rw [deactivatedFirst_class]
    refine (ha k i).trans (activeAt_map fun r hr => ?_).symm
    split
    next hsrv =>
      rw [Cp.findService_tuple hfind] at hsrv
      exact ⟨rfl, rfl, (hok r hr hsrv).symm⟩
    next => exact ⟨rfl, rfl, rfl⟩
  | @addServer u d service v s₁ hfind _ hadded =>
    obtain ⟨hcls, ha₁⟩ := classAgrees_rowAdded h ha hadded
    rw [← hcls] at ha₁
    split <;> exact ha₁
  | @modifyServer u d service r s₁ hfind hrow hact hs₁ =>
    have ha₁ : ClassAgrees s₁.cp.servers s₁.nps.serverClassification := by
      subst hs₁
      intro k i
      have hcls : (s.modifiedServerRow service.tuple (modifiedServer r.server d)
          (raisesThreshold r.server d)).nps.serverClassification = s.nps.serverClassification := by
        unfold Sys.modifiedServerRow
        split <;> rfl
      rw [hcls]
      refine (ha k i).trans (activeAt_map fun r' _ => ?_).symm
      split <;> exact ⟨rfl, rfl, rfl⟩
    split <;> exact ha₁
  | @deleteServer u d service r s₁ hfind hrow _ hs₁ =>
    have hrow' := Cp.findServer_self hrow
    have ha₁ : ClassAgrees s₁.cp.servers (Function.update s.nps.serverClassification
        (buildNpsServerClassificationKey r.srv r.server.ip r.server.port) none) := by
      subst hs₁
      intro k i
      rw [Sys.deactivatedServerRow, activeAt_updateServer h hrow' rfl rfl rfl,
        Function.update_apply]
      split_ifs
      · simp [DbServer.deactivated]
      · exact ha k i
    subst hs₁
    split <;> exact ha₁
  | clear =>
    intro k i
    change (Nps.withoutServices _ _).serverClassification k = some i ↔ _
    rw [withoutServices_class]
    have hmap := @activeAt_map k i s.cp.servers (fun r => { r with server := r.server.deactivated })
      fun r hr => ⟨rfl, rfl, (hok r hr).symm⟩
    exact (ha k i).trans hmap.symm
  | @aging _ r hr hact _ => exact fun k i => (ha k i).trans (activeAt_deleteServer h hr hact).symm

/-- The invariant of the runs : the database's own, and its agreement with the server
classification table. -/
def ClassInv (s : Sys) : Prop := s.cp.Inv ∧ ClassAgrees s.cp.servers s.nps.serverClassification

theorem classInv_cpStep (s : Sys) (op : CpOp) (h : ClassInv s) (hok : ClassOk s op) :
    ClassInv (s.cpStep op) := by
  refine ⟨inv_cpStep h.1 op, ?_⟩
  obtain heq | he := cpStep_cases h.1.algs op
  · rw [heq]
    exact h.2
  · exact classAgrees_effect h.1 h.2 hok he

/-- Where every deletion of a service and every clear find no active server, every state
of the run mirrors the active server rows in the server classification table. -/
theorem serverClassMirror_run (ops : List CpOp)
    (hops : Always ClassOk Sys.cpStep Sys.init ops) :
    ServerClassMirror (ops.foldl Sys.cpStep Sys.init) := by
  have hinit : ClassInv Sys.init := ⟨Cp.Inv.init, fun k i => by simp [Sys.init, ActiveAt]⟩
  have hinv := Always.invariant classInv_cpStep _ ops hinit hops
  exact hinv.2.mirror hinv.1

/-- A server is added, deleted and reclaimed. -/
theorem serverClassMirror_run_reclaim :
    ServerClassMirror ([.addService exampleService, .addServer exampleService (exampleServer 0 1),
      .deleteServer exampleService (exampleServer 0 1), .aging 0].foldl Sys.cpStep Sys.init) :=
  serverClassMirror_run _ (by decide +kernel)

/-! ## A run that breaks it -/

/-- A service with an active server is deleted. -/
def deleteActiveService : List CpOp :=
  [.addService exampleService, .addServer exampleService (exampleServer 0 1),
    .deleteService exampleService 0]

/-- All operations of that run succeed, and the server still has its classification entry
though no row is active. -/
theorem serverClassMirror_fails :
    Always Succeeds Sys.cpStep Sys.init deleteActiveService ∧
      ¬ ServerClassMirror (deleteActiveService.foldl Sys.cpStep Sys.init) := by
  refine ⟨by decide +kernel, fun h => ?_⟩
  have hentry : (deleteActiveService.foldl Sys.cpStep Sys.init).nps.serverClassification
      (buildNpsServerClassificationKey exampleService.tuple (exampleServer 0 1).ip
        (exampleServer 0 1).cpPort) = some 0 := by decide +kernel
  have hinactive : ∀ r ∈ (deleteActiveService.foldl Sys.cpStep Sys.init).cp.servers,
      r.server.active = false := by decide +kernel
  obtain ⟨r, hr, hact, -⟩ := (h _ 0).1.mp hentry
  rw [hinactive r hr] at hact
  cases hact

end Alvs
