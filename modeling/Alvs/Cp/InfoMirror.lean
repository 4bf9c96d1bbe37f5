import Alvs.Cp.Inv
import Alvs.Lib.Runs

/-!
# The server info table mirrors the database

`ServerInfoMirror` : every server row, active or not, has an info entry at its index,
with the row's address, port and connection flags, and marked as available exactly when
the row is active. Inside, `InfoAgrees` : the entry is the one built from the row.

Deleting a service marks only the first of its active servers as unavailable, and
clearing the database marks none, so the mirror is kept where a deleted service has at
most one active server and no server is active when the database is cleared (`InfoOk`,
`serverInfoMirror_run`). `serverInfoMirror_fails` is a run that breaks it.
-/

namespace Alvs

open ProgLogic

/-- Every server row has the info entry that its operations wrote. -/
def ServerInfoMirror (s : Sys) : Prop :=
  ∀ r ∈ s.cp.servers, ∃ e ∈ s.nps.serverInfo r.server.npsIndex,
    e.serverIp = r.server.ip ∧ e.serverPort = r.server.port ∧
    e.connFlags = r.server.connFlags ∧ (e.available ↔ r.server.active = true)

instance (s : Sys) : Decidable (ServerInfoMirror s) :=
  inferInstanceAs (Decidable (∀ r ∈ s.cp.servers, ∃ e ∈ s.nps.serverInfo r.server.npsIndex, _))

/-- The info entry of each row is the one built from it. -/
def InfoAgrees (servers : List ServerRow) (info : UInt32 → Option ServerInfoResult) : Prop :=
  ∀ r ∈ servers, info r.server.npsIndex = some (buildNpsServerInfoResult r.server)

theorem available_iff {v : DbServer} (h : v.Ok) :
    (buildNpsServerInfoResult v).available ↔ v.active = true := by
  simp only [ServerInfoResult.available, buildNpsServerInfoResult, h.flags]
  cases v.active <;> simp
  all_goals decide

theorem InfoAgrees.mirror {s : Sys} (h : s.cp.Inv)
    (ha : InfoAgrees s.cp.servers s.nps.serverInfo) : ServerInfoMirror s :=
  fun r hr => ⟨_, ha r hr, rfl, rfl, rfl, available_iff (h.servers_ok r hr)⟩

/-! ## Changes that keep the mirror -/

section Changes

variable {cp : Cp} {info : UInt32 → Option ServerInfoResult}

theorem InfoAgrees.append {v : DbServer} {t : ServiceTuple} (ha : InfoAgrees cp.servers info)
    (hne : ∀ r ∈ cp.servers, r.server.npsIndex ≠ v.npsIndex) :
    InfoAgrees (cp.servers ++ [⟨t, v⟩])
      (Function.update info v.npsIndex (some (buildNpsServerInfoResult v))) := by
  intro r hr
  obtain hr | rfl := by simpa using hr
  · rw [Function.update_of_ne (hne r hr)]
    exact ha r hr
  · exact Function.update_self _ _ _

/-- One row is updated, and its entry written with the same values. -/
theorem InfoAgrees.updateServer (h : cp.Inv) (ha : InfoAgrees cp.servers info)
    {t : ServiceTuple} {ip : UInt32} {port : UInt16} {r : ServerRow}
    (hf : cp.findServer t ip port = some r) {f : DbServer → DbServer} {v : DbServer}
    (hv : buildNpsServerInfoResult (f r.server) = buildNpsServerInfoResult v)
    (hi : (f r.server).npsIndex = r.server.npsIndex) (hvi : v.npsIndex = r.server.npsIndex) :
    InfoAgrees (cp.updateServer t ip port f).servers
      (Function.update info v.npsIndex (some (buildNpsServerInfoResult v))) := by
  intro r' hr'
  obtain ⟨r₀, hr₀, rfl⟩ := List.mem_map.mp hr'
  have hr := List.mem_of_find?_eq_some hf
  split
  next hk =>
    obtain rfl := h.eq_of_findServer hf hr₀ hk
    rw [hi, ← hvi, Function.update_self, hv]
  next hk =>
    have hne : r₀.server.npsIndex ≠ v.npsIndex := fun heq => hk <| by
      rw [h.server_eq_of_index hr₀ hr (heq.trans hvi)]
      exact Cp.findServer_key hf
    rw [Function.update_of_ne hne]
    exact ha r₀ hr₀

/-- Deactivating a row that is inactive does not change its entry. -/
theorem build_deactivated {v : DbServer} (h : v.Ok) (hact : v.active = false) :
    buildNpsServerInfoResult v.deactivated = buildNpsServerInfoResult v := by
  simp only [buildNpsServerInfoResult, DbServer.deactivated, h.flags, hact]
  rfl

/-- The rows of a service are deactivated, and the entry of the first of its active
servers is written : enough when it has no second one. -/
theorem InfoAgrees.deleteService (h : cp.Inv) (ha : InfoAgrees cp.servers info)
    {nps : Nps} (hnps : nps.serverInfo = info) (t : ServiceTuple)
    (hle : (cp.serverList t ⟨false, true⟩).length ≤ 1) :
    InfoAgrees (cp.deleteService t).servers
      (nps.deactivatedFirst (cp.serverList t ⟨false, true⟩)).serverInfo := by
  subst hnps
  have hsel : ∀ r ∈ cp.servers, r.srv = t → r.server.active = true →
      cp.serverList t ⟨false, true⟩ = [r.server] := fun r hr ht hact => by
    have hmem : r.server ∈ cp.serverList t ⟨false, true⟩ :=
      List.mem_map.mpr ⟨r, List.mem_filter.mpr ⟨hr, by simp [Cp.Selected, ht, hact]⟩, rfl⟩
    obtain ⟨v, hv⟩ := List.length_eq_one_iff.mp
      (Nat.le_antisymm hle (List.length_pos_of_mem hmem))
    rw [hv, List.mem_singleton] at hmem
    rw [hv, hmem]
  intro r' hr'
  obtain ⟨r, hr, rfl⟩ := List.mem_map.mp hr'
  have hother : (¬ (r.srv = t ∧ r.server.active = true)) →
      (nps.deactivatedFirst (cp.serverList t ⟨false, true⟩)).serverInfo r.server.npsIndex =
        nps.serverInfo r.server.npsIndex := fun hno => by
    unfold Nps.deactivatedFirst
    split
    · rfl
    next v hhead =>
      obtain ⟨q, hq, rfl⟩ := List.mem_map.mp (List.mem_of_mem_head? hhead)
      obtain ⟨hq, hsel⟩ := List.mem_filter.mp hq
      rw [setEntry_serverInfo, Function.update_of_ne fun heq => hno ?_]
      rw [h.server_eq_of_index hr hq heq]
      simpa [Cp.Selected] using hsel
  split
  next ht =>
    cases hact : r.server.active with
    | true =>
      rw [hsel r hr ht hact]
      exact Function.update_self _ _ _
    | false =>
      rw [build_deactivated (h.servers_ok r hr) hact]
      exact (hother (by simp [hact])).trans (ha r hr)
  next ht => exact (hother (by simp [ht])).trans (ha r hr)

end Changes

/-! ## The runs that keep it -/

/-- The condition on an operation : a deleted service has at most one active server, and
no server is active when the database is cleared. -/
def InfoOk (s : Sys) : CpOp → Prop
  | .deleteService u _ => (s.cp.serverList u.tuple ⟨false, true⟩).length ≤ 1
  | .clear => ∀ r ∈ s.cp.servers, r.server.active = false
  | _ => True

instance decidableInfoOk (s : Sys) : (op : CpOp) → Decidable (InfoOk s op)
  | .deleteService u _ =>
    inferInstanceAs (Decidable ((s.cp.serverList u.tuple ⟨false, true⟩).length ≤ 1))
  | .clear => inferInstanceAs (Decidable (∀ r ∈ s.cp.servers, r.server.active = false))
  | .addService _ => .isTrue trivial
  | .modifyService _ => .isTrue trivial
  | .addServer _ _ => .isTrue trivial
  | .modifyServer _ _ => .isTrue trivial
  | .deleteServer _ _ => .isTrue trivial
  | .aging _ => .isTrue trivial

theorem infoAgrees_rowAdded {s s₁ : Sys} (h : s.cp.Inv)
    (ha : InfoAgrees s.cp.servers s.nps.serverInfo) {service : DbService} {d : IpVsDestUser}
    {v : DbServer} (hadded : s.RowAdded service d v s₁) :
    InfoAgrees s₁.cp.servers s₁.nps.serverInfo := by
  obtain ⟨r, hf, -, rfl, rfl⟩ | ⟨hf, i, pool, halloc, rfl, rfl⟩ := hadded
  · have hsrv : r.srv = service.tuple := congrArg Prod.fst (Cp.findServer_key hf)
    exact ha.updateServer h (hsrv ▸ Cp.findServer_self hf) rfl rfl rfl
  · exact ha.append (h.server_index_fresh halloc)

theorem withoutServices_serverInfo : ∀ (l : List DbService) (nps : Nps),
    (nps.withoutServices l).serverInfo = nps.serverInfo
  | [], _ => rfl
  | _ :: l, _ => withoutServices_serverInfo l _

theorem infoAgrees_effect {s s' : Sys} {op : CpOp} (h : s.cp.Inv)
    (ha : InfoAgrees s.cp.servers s.nps.serverInfo) (hok : InfoOk s op) (he : s.Effect op s') :
    InfoAgrees s'.cp.servers s'.nps.serverInfo := by
  cases he with
  | addService | modifyService | modifyServiceAlg => exact ha
  | @deleteService u _ v hfind =>
    have hle : (s.cp.serverList v.tuple ⟨false, true⟩).length ≤ 1 := by
      rw [Cp.findService_tuple hfind]
      exact hok
    exact @InfoAgrees.deleteService s.cp _ h ha ((s.nps.eraseEntry _).eraseEntry _) rfl v.tuple hle
  | @addServer u d service v s₁ hfind _ hadded =>
    have ha₁ := infoAgrees_rowAdded h ha hadded
    split <;> exact ha₁
  | @modifyServer u d service r s₁ hfind hrow _ hs₁ =>
    have hsrv : r.srv = service.tuple := congrArg Prod.fst (Cp.findServer_key hrow)
    have ha₁ : InfoAgrees s₁.cp.servers
        (s.nps.setEntry (serverInfoEntry (modifiedServer r.server d))).serverInfo := by
      subst hs₁
      exact ha.updateServer h (hsrv ▸ Cp.findServer_self hrow) rfl rfl rfl
    have hinfo : s₁.nps.serverInfo = s.nps.serverInfo := by
      subst hs₁
      unfold Sys.modifiedServerRow
      split <;> rfl
    have hset : ∀ nps : Nps, nps.serverInfo = s.nps.serverInfo →
        (nps.setEntry (serverInfoEntry (modifiedServer r.server d))).serverInfo =
          (s.nps.setEntry (serverInfoEntry (modifiedServer r.server d))).serverInfo := by
      intro nps hnps
      simp only [serverInfoEntry, Nps.setEntry, hnps]
    split
    · exact (hset (s₁.recalculatedService service false).nps hinfo) ▸ ha₁
    · exact (hset s₁.nps hinfo) ▸ ha₁
  | @deleteServer u d service r s₁ hfind hrow _ hs₁ =>
    have ha₁ : InfoAgrees s₁.cp.servers
        (s.nps.setEntry (serverInfoEntry r.server.unavailable)).serverInfo := by
      subst hs₁
      exact ha.updateServer h (Cp.findServer_self hrow) rfl rfl rfl
    subst hs₁
    split <;> exact ha₁
  | clear =>
    intro r' hr'
    obtain ⟨r, hr, rfl⟩ := List.mem_map.mp hr'
    rw [build_deactivated (h.servers_ok r hr) (hok r hr)]
    exact (congrFun (withoutServices_serverInfo s.cp.services s.nps) _).trans (ha r hr)
  | @aging _ r hr _ _ =>
    intro r' hr'
    obtain ⟨hmem, hk⟩ := List.mem_filter.mp hr'
    have hne : r'.server.npsIndex ≠ r.server.npsIndex := fun heq => by
      obtain rfl := h.server_eq_of_index hmem hr heq
      simp [ServerRow.key] at hk
    exact (Function.update_of_ne hne _ _).trans (ha r' hmem)

/-- The invariant of the runs : the database's own, and its agreement with the info
table. -/
def InfoInv (s : Sys) : Prop := s.cp.Inv ∧ InfoAgrees s.cp.servers s.nps.serverInfo

theorem infoInv_cpStep (s : Sys) (op : CpOp) (h : InfoInv s) (hok : InfoOk s op) :
    InfoInv (s.cpStep op) := by
  refine ⟨inv_cpStep h.1 op, ?_⟩
  obtain heq | he := cpStep_cases h.1.algs op
  · rw [heq]
    exact h.2
  · exact infoAgrees_effect h.1 h.2 hok he

/-- Where every deletion of a service finds at most one active server and every clear
none, every state of the run mirrors its rows in the server info table. -/
theorem serverInfoMirror_run (ops : List CpOp) (hops : Always InfoOk Sys.cpStep Sys.init ops) :
    ServerInfoMirror (ops.foldl Sys.cpStep Sys.init) := by
  have hinit : InfoInv Sys.init := ⟨Cp.Inv.init, by simp [Sys.init, InfoAgrees]⟩
  have hinv := Always.invariant infoInv_cpStep _ ops hinit hops
  exact hinv.2.mirror hinv.1

/-! ## A run that breaks it -/

/-- A service with two active servers is deleted. -/
def deleteTwoServers : List CpOp :=
  [.addService exampleService, .addServer exampleService (exampleServer 0 1),
    .addServer exampleService (exampleServer 1 1), .deleteService exampleService 0]

/-- All operations of that run succeed, and the entry of the second server still says that
it is available. -/
theorem serverInfoMirror_fails :
    Always Succeeds Sys.cpStep Sys.init deleteTwoServers ∧
      ¬ ServerInfoMirror (deleteTwoServers.foldl Sys.cpStep Sys.init) := by
  decide +kernel

/-- A run with a deletion of a service with one active server. -/
theorem serverInfoMirror_run_one :
    ServerInfoMirror ([.addService exampleService, .addServer exampleService (exampleServer 0 1),
      .deleteService exampleService 0].foldl Sys.cpStep Sys.init) :=
  serverInfoMirror_run _ (by decide +kernel)

end Alvs
