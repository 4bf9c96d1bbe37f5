import Alvs.Cp.ClassMirror

/-!
# The scheduling table mirrors the buckets

`SchedMirror` : the 256 scheduling entries of each service are the bucket computed from
its active servers with a weight, and an index of no service has no entries.

An operation recalculates the entries of a service only where it sees a reason to :
`alvs_db_modify_server` where the new weight differs from the old one, of which it keeps
8 bits, and `alvs_db_add_server` where the weight of the request is positive, which is
the `int` before it is cut to 16 bits. The mirror is kept where these tests do not miss
a change (`SchedOk`, `schedMirror_run`). `schedMirror_fails` is a run that breaks it.

A bucket only depends on the indexes and weights of the servers, in their order
(`serversBuckets_map`), so a change of other fields needs no recalculation.
-/

namespace Alvs

open ProgLogic

/-! ## A bucket depends on indexes and weights only -/

section Natural

/-- A map of servers that keeps weights. -/
structure KeepsWeight (g : DbServer → DbServer) : Prop where
  weight : ∀ s, (g s).weight = s.weight
  update : ∀ s w, g (s.withWeight w) = (g s).withWeight w

variable {g : DbServer → DbServer} (l : List DbServer)

theorem cyclicNode_map (i : Nat) : cyclicNode (l.map g) i = (cyclicNode l i).map g := by
  simp [cyclicNode]

theorem gcdLoop_map (hg : KeepsWeight g) :
    ∀ (inds : List Nat) (gcd : UInt16), gcdLoop (l.map g) inds gcd = gcdLoop l inds gcd
  | [], _ => rfl
  | ind :: inds, gcd => by
    unfold gcdLoop
    rw [cyclicNode_map]
    cases cyclicNode l ind with
    | none => rfl
    | some s => simp only [Option.map_some, hg.weight, gcdLoop_map hg inds]

theorem modify_map (hg : KeepsWeight g) (i : Nat) (f : DbServer → UInt16)
    (hf : ∀ s, f (g s) = f s) :
    (l.map g).modify i (fun s => s.withWeight (f s)) =
      (l.modify i fun s => s.withWeight (f s)).map g := by
  refine List.ext_getElem? fun j => ?_
  simp only [List.getElem?_modify, List.getElem?_map]
  cases l[j]? with
  | none => rfl
  | some s =>
    by_cases hij : i = j
    · simp only [hij, if_true, Option.map_some, Option.map_eq_map, hf, hg.update]
    · simp only [hij, if_false, Option.map_some, Option.map_eq_map]

theorem reduceWeights_map (hg : KeepsWeight g) (n : Nat) :
    alvsDbReduceWeights (l.map g) n = (alvsDbReduceWeights l n).map g := by
  unfold alvsDbReduceWeights
  rw [List.head?_map]
  cases l.head? with
  | none => rfl
  | some s =>
    simp only [Option.map_some, gcdLoop_map l hg, hg.weight]
    cases gcdLoop l (List.range' 1 (n - 1)) s.weight with
    | none => rfl
    | some gcd =>
      simp only
      generalize List.range' (n - 1) n = inds
      induction inds generalizing l with
      | nil => rfl
      | cons i inds ih =>
        simp only [List.foldl_cons, List.length_map]
        rw [modify_map l hg _ (fun s => s.weight / gcd) fun s => by rw [hg.weight]]
        exact ih _

theorem getMaxWeightServer_map (hg : KeepsWeight g) (n : Nat) :
    alvsDbGetMaxWeightServer (l.map g) n = alvsDbGetMaxWeightServer l n := by
  unfold alvsDbGetMaxWeightServer
  congr 2
  funext m ind
  rw [cyclicNode_map, List.length_map]
  cases cyclicNode l ind with
  | none => rfl
  | some s => simp only [Option.map_some, hg.weight]

theorem wrrLoop_map (hg : KeepsWeight g) (n : Nat) :
    ∀ (m : Nat) (l : List DbServer), wrrLoop n m (l.map g) = (wrrLoop n m l).map g
  | 0, _ => rfl
  | m + 1, l => by
    unfold wrrLoop
    rw [getMaxWeightServer_map l hg]
    cases alvsDbGetMaxWeightServer l n with
    | none => rfl
    | some max =>
      simp only [List.getElem?_map]
      cases l[max]? with
      | none => rfl
      | some s =>
        simp only [Option.map_some, List.map_cons]
        rw [modify_map l hg _ (fun s => s.weight - 1) fun s => by rw [hg.weight],
          wrrLoop_map hg n m]

theorem shLoop_map (hg : KeepsWeight g) :
    ∀ (m pos : Nat) (w : UInt16), shLoop (l.map g) m pos w = (shLoop l m pos w).map g
  | 0, _, _ => rfl
  | m + 1, pos, w => by
    unfold shLoop
    rw [cyclicNode_map]
    cases cyclicNode l pos with
    | none => rfl
    | some s =>
      simp only [Option.map_some, List.map_cons, hg.weight]
      congr 1
      split <;> exact shLoop_map hg m _ _

theorem serversBuckets_map (hg : KeepsWeight g) (alg : AlvsSchedulerType) (n : Nat) :
    serversBuckets alg (l.map g) n = (serversBuckets alg l n).map (List.map g) := by
  unfold serversBuckets
  split
  · rfl
  · cases alg
    all_goals try rfl
    · have : cyclicNode (l.map g) = fun i => (cyclicNode l i).map g :=
        funext fun i => cyclicNode_map l i
      simp [alvsDbRrFillBuckets, this, List.map_filterMap]
    · simp [alvsDbWrrFillBuckets, reduceWeights_map l hg, wrrLoop_map hg]
    · simp [alvsDbShFillBuckets, reduceWeights_map l hg, shLoop_map _ hg]

end Natural

/-- A server reduced to its index and weight. -/
def schedView (v : DbServer) : DbServer :=
  ⟨0, 0, v.weight, false, v.npsIndex, 0, 0, 0, 0, .zero, .zero, .zero, .zero, .zero⟩

/-- The indexes and weights of the servers that a recalculation of service `t` uses. -/
def serverView (servers : List ServerRow) (t : ServiceTuple) : List DbServer :=
  ((servers.filter (Cp.Selected t ⟨true, true⟩)).map ServerRow.server).map schedView

/-- The server indexes in the bucket of a service. -/
def Cp.bucketIndexes (cp : Cp) (v : DbService) : List UInt32 := (cp.bucket v).map (·.npsIndex)

theorem bucketIndexes_eq (cp : Cp) (v : DbService) :
    cp.bucketIndexes v =
      ((serversBuckets v.schedAlg (serverView cp.servers v.tuple)
        (serverView cp.servers v.tuple).length).getD []).map (·.npsIndex) := by
  have hg : KeepsWeight schedView := ⟨fun _ => rfl, fun _ _ => rfl⟩
  unfold Cp.bucketIndexes Cp.bucket serverView
  rw [List.length_map, serversBuckets_map _ hg]
  simp only [Cp.serverList]
  generalize serversBuckets v.schedAlg _ _ = b
  cases b with
  | none => rfl
  | some b =>
    simp only [Option.getD_some, Option.map_some, List.map_map]
    rfl

theorem bucketIndexes_congr {cp cp' : Cp} {v v' : DbService} (halg : v.schedAlg = v'.schedAlg)
    (hview : serverView cp.servers v.tuple = serverView cp'.servers v'.tuple) :
    cp.bucketIndexes v = cp'.bucketIndexes v' := by
  rw [bucketIndexes_eq, bucketIndexes_eq, halg, hview]

theorem bucketIndexes_nil {cp : Cp} {v : DbService} (hview : serverView cp.servers v.tuple = []) :
    cp.bucketIndexes v = [] := by
  simp [bucketIndexes_eq, hview, serversBuckets]

/-! ## Changes of the rows that a recalculation does not see -/

section View

variable {servers : List ServerRow} {t : ServiceTuple}

/-- The rows that the recalculation of service `t` uses. -/
def Scheduled (t : ServiceTuple) (r : ServerRow) : Prop :=
  r.srv = t ∧ 0 < r.server.weight ∧ r.server.active = true

theorem selected_iff {r : ServerRow} : Cp.Selected t ⟨true, true⟩ r = true ↔ Scheduled t r := by
  simp [Cp.Selected, Scheduled, and_assoc]

theorem serverView_map {f : ServerRow → ServerRow}
    (hf : ∀ r ∈ servers, (Scheduled t (f r) ↔ Scheduled t r) ∧
      (Scheduled t r → schedView (f r).server = schedView r.server)) :
    serverView (servers.map f) t = serverView servers t := by
  simp only [serverView, List.filter_map, List.map_map]
  have hfilter : servers.filter (Cp.Selected t ⟨true, true⟩ ∘ f) =
      servers.filter (Cp.Selected t ⟨true, true⟩) :=
    List.filter_congr fun r hr => by
      rw [Bool.eq_iff_iff, Function.comp_apply, selected_iff, selected_iff, (hf r hr).1]
  rw [hfilter]
  refine List.map_congr_left fun r hr => ?_
  obtain ⟨hr, hsel⟩ := List.mem_filter.mp hr
  exact (hf r hr).2 (selected_iff.mp hsel)

theorem serverView_append {r : ServerRow} (hr : ¬ Scheduled t r) :
    serverView (servers ++ [r]) t = serverView servers t := by
  have hsel : Cp.Selected t ⟨true, true⟩ r = false := by
    rw [← Bool.not_eq_true, selected_iff]
    exact hr
  simp [serverView, List.filter_append, hsel]

theorem serverView_filter {p : ServerRow → Bool}
    (hp : ∀ r ∈ servers, Scheduled t r → p r = true) :
    serverView (servers.filter p) t = serverView servers t := by
  simp only [serverView, List.filter_filter]
  congr 2
  refine List.filter_congr fun r hr => ?_
  rw [Bool.eq_iff_iff, Bool.and_eq_true, selected_iff]
  exact ⟨fun h => h.1, fun h => ⟨h, hp r hr h⟩⟩

theorem serverView_nil (hno : ∀ r ∈ servers, ¬ Scheduled t r) : serverView servers t = [] := by
  rw [serverView, List.map_eq_nil_iff, List.map_eq_nil_iff, List.filter_eq_nil_iff]
  exact fun r hr hsel => hno r hr (selected_iff.mp hsel)

/-- The update of a row of one service does not concern the others. -/
theorem serverView_updateServer_ne {cp : Cp} {t₀ : ServiceTuple} (ht : t ≠ t₀) (ip : UInt32)
    (port : UInt16) (f : DbServer → DbServer) :
    serverView (cp.updateServer t₀ ip port f).servers t = serverView cp.servers t := by
  refine serverView_map fun r _ => ?_
  split
  next hk =>
    have hsrv : r.srv ≠ t := fun h => ht (h.symm.trans (congrArg Prod.fst hk))
    exact ⟨⟨fun h => absurd h.1 hsrv, fun h => absurd h.1 hsrv⟩, fun h => absurd h.1 hsrv⟩
  next => exact ⟨Iff.rfl, fun _ => rfl⟩

/-- The update of one row that is not scheduled before or after it, or keeps its weight. -/
theorem serverView_updateServer {cp : Cp} (h : cp.Inv) {t₀ : ServiceTuple} {ip : UInt32}
    {port : UInt16} {r : ServerRow} (hr : cp.findServer t₀ ip port = some r)
    {f : DbServer → DbServer}
    (hf : schedView (f r.server) = schedView r.server ∧ (f r.server).active = r.server.active ∨
      ¬ (0 < r.server.weight ∧ r.server.active = true) ∧ ¬ 0 < (f r.server).weight) :
    serverView (cp.updateServer t₀ ip port f).servers t = serverView cp.servers t := by
  refine serverView_map fun r' hr' => ?_
  split
  next hk =>
    obtain rfl := h.eq_of_findServer hr hr' hk
    obtain ⟨hv, ha⟩ | ⟨hbefore, hafter⟩ := hf
    · have hw : (f r'.server).weight = r'.server.weight := by
        simpa [schedView] using congrArg DbServer.weight hv
      simp only [Scheduled, hw, ha]
      exact ⟨trivial, fun _ => hv⟩
    · exact ⟨⟨fun hs => absurd hs.2.1 hafter, fun hs => absurd hs.2 hbefore⟩,
        fun hs => absurd hs.2 hbefore⟩
  next => exact ⟨Iff.rfl, fun _ => rfl⟩

end View

/-! ## The mirror -/

/-- The scheduling entries of each service are the bucket computed from its servers, and
there are no others. -/
def SchedMirror (s : Sys) : Prop :=
  (∀ v ∈ s.cp.services, ∀ j < alvsSizeOfSchedBucket, ∀ k : UInt16,
    k.toNat = v.npsIndex.toNat * alvsSizeOfSchedBucket + j →
    s.nps.schedInfo k = (s.cp.bucket v)[j]?.map (·.npsIndex)) ∧
  ∀ k : UInt16, (∀ v ∈ s.cp.services, v.npsIndex.toNat ≠ k.toNat / alvsSizeOfSchedBucket) →
    s.nps.schedInfo k = none

structure SchedAgrees (s : Sys) : Prop where
  entry : ∀ v ∈ s.cp.services, ∀ k : UInt16, k.toNat / 256 = v.npsIndex.toNat →
    s.nps.schedInfo k = (s.cp.bucketIndexes v)[k.toNat % 256]?
  absent : ∀ k : UInt16, (∀ v ∈ s.cp.services, v.npsIndex.toNat ≠ k.toNat / 256) →
    s.nps.schedInfo k = none

theorem SchedAgrees.mirror {s : Sys} (ha : SchedAgrees s) : SchedMirror s := by
  refine ⟨fun v hv j hj k hk => ?_, ha.absent⟩
  simp only [alvsSizeOfSchedBucket] at hj hk
  rw [ha.entry v hv k (by omega), show k.toNat % 256 = j by omega, Cp.bucketIndexes,
    List.getElem?_map]

/-- A change that neither writes the table nor changes what a recalculation would see. -/
theorem SchedAgrees.same {s s' : Sys} (ha : SchedAgrees s)
    (htab : s'.nps.schedInfo = s.nps.schedInfo) {f : DbService → DbService}
    (hserv : s'.cp.services = s.cp.services.map f)
    (hf : ∀ v ∈ s.cp.services, (f v).npsIndex = v.npsIndex ∧
      s'.cp.bucketIndexes (f v) = s.cp.bucketIndexes v) : SchedAgrees s' := by
  constructor
  · intro v' hv' k hk
    rw [hserv] at hv'
    obtain ⟨v, hv, rfl⟩ := List.mem_map.mp hv'
    rw [htab, (hf v hv).2]
    exact ha.entry v hv k (by rw [hk, (hf v hv).1])
  · intro k hk
    rw [htab]
    refine ha.absent k fun v hv => ?_
    rw [← (hf v hv).1]
    exact hk (f v) (by rw [hserv]; exact List.mem_map_of_mem hv)

/-- The entries of one index are rewritten. -/
theorem SchedAgrees.rewrite {s s' : Sys} (ha : SchedAgrees s) (idx : UInt32) (b : List UInt32)
    (htab : ∀ k : UInt16, s'.nps.schedInfo k =
      if k.toNat / 256 = idx.toNat then b[k.toNat % 256]? else s.nps.schedInfo k)
    (hnew : ∀ v' ∈ s'.cp.services, v'.npsIndex = idx → s'.cp.bucketIndexes v' = b)
    (hold : ∀ v' ∈ s'.cp.services, v'.npsIndex ≠ idx → ∃ v ∈ s.cp.services,
      v.npsIndex = v'.npsIndex ∧ s'.cp.bucketIndexes v' = s.cp.bucketIndexes v)
    (hkept : ∀ v ∈ s.cp.services, v.npsIndex ≠ idx → ∃ v' ∈ s'.cp.services,
      v'.npsIndex = v.npsIndex)
    (hnone : (∀ v' ∈ s'.cp.services, v'.npsIndex ≠ idx) → b = []) : SchedAgrees s' := by
  constructor
  · intro v' hv' k hk
    rw [htab]
    split
    next hidx => rw [hnew v' hv' (UInt32.toNat_inj.mp (hk.symm.trans hidx))]
    next hidx =>
      obtain ⟨v, hv, hvi, hb⟩ := hold v' hv' fun heq => hidx (by rw [hk, heq])
      rw [hb]
      exact ha.entry v hv k (by rw [hk, hvi])
  · intro k hk
    rw [htab]
    split
    next hidx =>
      have hempty := hnone fun v' hv' heq => hk v' hv' (by rw [heq, hidx])
      simp [hempty]
    next hidx =>
      refine ha.absent k fun v hv heq => ?_
      obtain ⟨v', hv', hvi⟩ := hkept v hv fun hne => hidx (by rw [← heq, hne])
      exact hk v' hv' (by rw [hvi, heq])

/-! ## The runs that keep it -/

/-- The server row of a request. -/
def Sys.requestedRow (s : Sys) (u : IpVsServiceUser) (d : IpVsDestUser) : Option ServerRow :=
  s.cp.findServer u.tuple d.ip d.cpPort

/-- The condition on an operation : a modified weight differs from the 8 bits kept of the
old one unless it is the old one, and a server added with a weight that is not positive
is stored with weight 0. -/
def SchedOk (s : Sys) : CpOp → Prop
  | .modifyServer u d => ∀ r ∈ s.requestedRow u d,
    d.storedWeight = r.server.weight ∨ weightSeemsChanged r.server d = true
  | .addServer _ d => 0 < d.weight ∨ d.storedWeight = 0
  | _ => True

instance decidableSchedOk (s : Sys) : (op : CpOp) → Decidable (SchedOk s op)
  | .modifyServer u d => inferInstanceAs (Decidable (∀ r ∈ s.requestedRow u d,
    d.storedWeight = r.server.weight ∨ weightSeemsChanged r.server d = true))
  | .addServer _ d => inferInstanceAs (Decidable (0 < d.weight ∨ d.storedWeight = 0))
  | .clear => .isTrue trivial
  | .addService _ => .isTrue trivial
  | .modifyService _ => .isTrue trivial
  | .deleteService _ _ => .isTrue trivial
  | .deleteServer _ _ => .isTrue trivial
  | .aging _ => .isTrue trivial

/-- The service of an active server exists. -/
def ActiveOwned (cp : Cp) : Prop :=
  ∀ r ∈ cp.servers, r.server.active = true → ∃ v ∈ cp.services, v.tuple = r.srv

/-- A change of rows that activates none but keeps all services. -/
theorem ActiveOwned.map {cp cp' : Cp} (h : ActiveOwned cp) {f : ServerRow → ServerRow}
    (hservers : cp'.servers = cp.servers.map f)
    (hf : ∀ r ∈ cp.servers, (f r).srv = r.srv ∧
      ((f r).server.active = true → r.server.active = true ∨ ∃ v ∈ cp.services, v.tuple = r.srv))
    (hserv : ∀ v ∈ cp.services, ∃ v' ∈ cp'.services, v'.tuple = v.tuple) : ActiveOwned cp' := by
  intro r' hr' hact
  rw [hservers] at hr'
  obtain ⟨r, hr, rfl⟩ := List.mem_map.mp hr'
  obtain ⟨hsrv, hfact⟩ := hf r hr
  obtain ⟨v, hv, hvt⟩ : ∃ v ∈ cp.services, v.tuple = r.srv := by
    obtain hact | hv := hfact hact
    exacts [h r hr hact, hv]
  obtain ⟨v', hv', hvt'⟩ := hserv v hv
  exact ⟨v', hv', by rw [hvt', hvt, hsrv]⟩

theorem ActiveOwned.of_servers {cp cp' : Cp} (h : ActiveOwned cp)
    (hservers : cp'.servers = cp.servers)
    (hserv : ∀ v ∈ cp.services, ∃ v' ∈ cp'.services, v'.tuple = v.tuple) : ActiveOwned cp' :=
  @ActiveOwned.map cp cp' h id (by simp [hservers]) (fun _ _ => ⟨rfl, .inl⟩) hserv

/-- The update of a row whose service exists. -/
theorem ActiveOwned.updateServer {cp : Cp} (h : ActiveOwned cp) {t : ServiceTuple} {v : DbService}
    (hv : v ∈ cp.services) (hvt : v.tuple = t) (ip : UInt32) (port : UInt16)
    (f : DbServer → DbServer) : ActiveOwned (cp.updateServer t ip port f) := by
  refine h.map rfl (fun r _ => ?_) fun v hv => ⟨v, hv, rfl⟩
  split
  next hk => exact ⟨rfl, fun _ => .inr ⟨v, hv, hvt.trans (congrArg Prod.fst hk).symm⟩⟩
  next => exact ⟨rfl, .inl⟩

theorem ActiveOwned.modifyService {cp : Cp} (h : ActiveOwned cp) (v : DbService) :
    ActiveOwned (cp.modifyService v) := by
  refine h.of_servers rfl fun w hw => ⟨_, List.mem_map_of_mem hw, ?_⟩
  split <;> rfl

theorem owned_recalculatedService {s : Sys} (h : ActiveOwned s.cp) (v : DbService)
    (modifyDb : Bool) : ActiveOwned (s.recalculatedService v modifyDb).cp := by
  cases modifyDb
  · exact h
  · exact h.modifyService _

theorem owned_effect {s s' : Sys} {op : CpOp} (h : ActiveOwned s.cp) (he : s.Effect op s') :
    ActiveOwned s'.cp := by
  cases he with
  | addService => exact h.of_servers rfl fun v hv => ⟨v, List.mem_append_left _ hv, rfl⟩
  | modifyService => exact h.modifyService _
  | modifyServiceAlg => exact h.modifyService _
  | @deleteService u _ v hfind =>
    intro r' hr' hact
    obtain ⟨r, hr, rfl⟩ := List.mem_map.mp hr'
    split at hact
    next => cases hact
    next hsrv =>
      rw [if_neg hsrv]
      obtain ⟨w, hw, hwt⟩ := h r hr hact
      exact ⟨w, List.mem_filter.mpr ⟨hw, by simpa [hwt] using hsrv⟩, hwt⟩
  | @addServer u d service v s₁ hfind _ hadded =>
    have hmem := List.mem_of_find?_eq_some hfind
    have h₁ : ActiveOwned s₁.cp := by
      obtain ⟨r, -, -, rfl, rfl⟩ | ⟨-, i, pool, -, rfl, rfl⟩ := hadded
      · exact h.updateServer hmem rfl _ _ _
      · intro r' hr' hact
        obtain hr' | rfl := by simpa [Sys.addedServer] using hr'
        exacts [h r' hr' hact, ⟨service, hmem, rfl⟩]
    split
    · exact owned_recalculatedService h₁ _ _
    · exact h₁
  | @modifyServer u d service r s₁ hfind _ _ hs₁ =>
    have h₁ : ActiveOwned s₁.cp := by
      subst hs₁
      exact h.updateServer (List.mem_of_find?_eq_some hfind) rfl _ _ _
    split
    · exact owned_recalculatedService h₁ _ _
    · exact h₁
  | @deleteServer u d service r s₁ hfind hrow _ hs₁ =>
    have h₁ : ActiveOwned s₁.cp := by
      subst hs₁
      have hsrv : service.tuple = r.srv := (congrArg Prod.fst (Cp.findServer_key hrow)).symm
      exact h.updateServer (List.mem_of_find?_eq_some hfind) hsrv _ _ _
    split
    · exact owned_recalculatedService h₁ _ _
    · exact h₁
  | clear =>
    intro r' hr' hact
    obtain ⟨r, hr, rfl⟩ := List.mem_map.mp hr'
    cases hact
  | aging => exact fun r hr => h r (List.mem_of_mem_filter hr)

theorem recalculatedService_schedInfo (s : Sys) (v : DbService) (modifyDb : Bool) :
    (s.recalculatedService v modifyDb).nps.schedInfo = (s.recalculated v).nps.schedInfo := by
  simp only [Sys.recalculatedService, serviceInfoEntry, Nps.setEntry]

/-- What a recalculation writes, as indexes. -/
theorem recalculated_bucketIndexes {service : DbService} (s : Sys)
    (hs : service.npsIndex.toNat < 256) (k : UInt16) :
    (s.recalculated service).nps.schedInfo k =
      if k.toNat / 256 = service.npsIndex.toNat
      then (s.cp.bucketIndexes service)[k.toNat % 256]? else s.nps.schedInfo k := by
  rw [recalculated_schedInfo s hs, Cp.bucketIndexes, List.getElem?_map]

/-- The services are changed in place and the entries of service `v` are rewritten. -/
theorem agrees_rewriteService {s s' : Sys} (h : s.cp.Inv) (ha : SchedAgrees s) {v : DbService}
    (hmem : v ∈ s.cp.services) {f : DbService → DbService} (b : List UInt32)
    (hserv : s'.cp.services = s.cp.services.map f)
    (hf : ∀ w, (f w).npsIndex = w.npsIndex)
    (htab : ∀ k : UInt16, s'.nps.schedInfo k =
      if k.toNat / 256 = v.npsIndex.toNat then b[k.toNat % 256]? else s.nps.schedInfo k)
    (hnew : s'.cp.bucketIndexes (f v) = b)
    (hold : ∀ w ∈ s.cp.services, w ≠ v →
      s'.cp.bucketIndexes (f w) = s.cp.bucketIndexes w) : SchedAgrees s' := by
  refine ha.rewrite v.npsIndex b htab ?_ ?_ ?_ ?_
  · rw [hserv]
    intro w' hw' hidx
    obtain ⟨w, hw, rfl⟩ := List.mem_map.mp hw'
    rw [h.service_eq_of_index hw hmem ((hf w).symm.trans hidx), hnew]
  · rw [hserv]
    intro w' hw' hidx
    obtain ⟨w, hw, rfl⟩ := List.mem_map.mp hw'
    refine ⟨w, hw, (hf w).symm, hold w hw fun heq => hidx ?_⟩
    rw [hf, heq]
  · rw [hserv]
    exact fun w hw _ => ⟨f w, List.mem_map_of_mem hw, hf w⟩
  · rw [hserv]
    exact fun hno => absurd (hf v) (hno _ (List.mem_map_of_mem hmem))

/-- The rows of one service change and its entries are recalculated. -/
theorem agrees_recalculatedService {s s₁ : Sys} (h : s.cp.Inv) (ha : SchedAgrees s)
    {service : DbService} (hmem : service ∈ s.cp.services)
    (htab : s₁.nps.schedInfo = s.nps.schedInfo) (hserv : s₁.cp.services = s.cp.services)
    (hview : ∀ t, t ≠ service.tuple → serverView s₁.cp.servers t = serverView s.cp.servers t)
    (modifyDb : Bool) : SchedAgrees (s₁.recalculatedService service modifyDb) := by
  -- the services after it, with the same keys, indexes and algorithms
  obtain ⟨f, hf, hsame⟩ : ∃ f : DbService → DbService,
      (s₁.recalculatedService service modifyDb).cp.services = s.cp.services.map f ∧
      ∀ v, (f v).npsIndex = v.npsIndex ∧ (f v).tuple = v.tuple ∧
        (v ∈ s.cp.services → (f v).schedAlg = v.schedAlg) := by
    cases modifyDb
    · exact ⟨id, by rw [List.map_id]; exact hserv, fun _ => ⟨rfl, rfl, fun _ => rfl⟩⟩
    · refine ⟨_, congrArg (List.map _) hserv, fun v => ?_⟩
      split
      next hvt => exact ⟨rfl, rfl, fun hv => by rw [h.service_eq_of_tuple hv hmem hvt]⟩
      next => exact ⟨rfl, rfl, fun _ => rfl⟩
  have hservers : (s₁.recalculatedService service modifyDb).cp.servers = s₁.cp.servers := by
    cases modifyDb <;> rfl
  refine agrees_rewriteService h ha hmem (s₁.cp.bucketIndexes service) hf
    (fun v => (hsame v).1) (fun k => ?_) ?_ fun w hw hne => ?_
  · rw [recalculatedService_schedInfo,
      recalculated_bucketIndexes s₁ (h.services_index service hmem).1, htab]
  · exact bucketIndexes_congr ((hsame service).2.2 hmem) (by rw [hservers, (hsame service).2.1])
  · refine bucketIndexes_congr ((hsame w).2.2 hw) ?_
    rw [hservers, (hsame w).2.1]
    exact hview _ fun hwt => hne (h.service_eq_of_tuple hw hmem hwt)

/-- The row of an added server is seen by its own service only, and only with a weight. -/
theorem rowAdded_view {s s₁ : Sys} (h : s.cp.Inv) {service : DbService} {d : IpVsDestUser}
    {v : DbServer} (hadded : s.RowAdded service d v s₁) {t : ServiceTuple}
    (ht : t ≠ service.tuple ∨ d.storedWeight = 0) :
    serverView s₁.cp.servers t = serverView s.cp.servers t := by
  obtain ⟨r, hfind, hact, rfl, rfl⟩ | ⟨-, i, pool, -, rfl, rfl⟩ := hadded
  · obtain ht | hw := ht
    · exact serverView_updateServer_ne ht _ _ _
    · have hsrv : r.srv = service.tuple := congrArg Prod.fst (Cp.findServer_key hfind)
      have hfind' : s.cp.findServer service.tuple (reactivatedServer r.server d).ip
          (reactivatedServer r.server d).port = some r := hsrv ▸ Cp.findServer_self hfind
      refine serverView_updateServer h hfind' (.inr ⟨by simp [hact], ?_⟩)
      simp [DbServer.activate, reactivatedServer, hw]
  · refine serverView_append fun hsched => ?_
    obtain ⟨hsrv, hpos, -⟩ := hsched
    obtain ht | hw := ht
    · exact ht hsrv.symm
    · simp only [newServer, hw] at hpos
      cases hpos

/-- The tables of services and what a recalculation sees are unchanged. -/
theorem SchedAgrees.of_view {s s' : Sys} (ha : SchedAgrees s)
    (htab : s'.nps.schedInfo = s.nps.schedInfo) (hserv : s'.cp.services = s.cp.services)
    (hview : ∀ t, serverView s'.cp.servers t = serverView s.cp.servers t) : SchedAgrees s' :=
  ha.same htab (show _ = s.cp.services.map id by rw [List.map_id, hserv])
    fun _ _ => ⟨rfl, bucketIndexes_congr rfl (hview _)⟩

theorem rowAdded_frame {s s₁ : Sys} {service : DbService} {d : IpVsDestUser} {v : DbServer}
    (hadded : s.RowAdded service d v s₁) :
    s₁.nps.schedInfo = s.nps.schedInfo ∧ s₁.cp.services = s.cp.services := by
  obtain ⟨r, -, -, rfl, rfl⟩ | ⟨-, i, pool, -, rfl, rfl⟩ := hadded <;> exact ⟨rfl, rfl⟩

theorem modifiedServerRow_schedInfo (s : Sys) (t : ServiceTuple) (v : DbServer) (b : Bool) :
    (s.modifiedServerRow t v b).nps.schedInfo = s.nps.schedInfo := by
  cases b <;> rfl

theorem modifiedService_sched (s : Sys) (v : DbService) :
    (s.modifiedService v).nps.schedInfo = s.nps.schedInfo := rfl

theorem withServerInfo_sched (s : Sys) (v : DbServer) :
    (s.withEntry (serverInfoEntry v)).nps.schedInfo = s.nps.schedInfo := rfl

theorem withServerClass_sched (s : Sys) (t : ServiceTuple) (v : DbServer) :
    (s.withEntry (serverClassificationEntry t v)).nps.schedInfo = s.nps.schedInfo := rfl

theorem withoutServerClass_sched (s : Sys) (k : ServerClassificationKey) :
    (s.withoutEntry (.serverClassification k)).nps.schedInfo = s.nps.schedInfo := rfl

theorem deactivatedFirst_sched (nps : Nps) (l : List DbServer) :
    (nps.deactivatedFirst l).schedInfo = nps.schedInfo := by
  unfold Nps.deactivatedFirst
  split <;> rfl

/-- No server of a deleted service is scheduled. -/
theorem deletedService_bucketIndexes (s : Sys) (v : DbService) :
    (s.deletedService v).cp.bucketIndexes v = [] := by
  refine bucketIndexes_nil (serverView_nil fun r' hr' hs => ?_)
  obtain ⟨r, hr, rfl⟩ := List.mem_map.mp hr'
  obtain ⟨hsrv, -, hact⟩ := hs
  split at hact
  next => cases hact
  next hne => rw [if_neg hne] at hsrv; exact hne hsrv

/-- A deleted service loses its entries. -/
theorem agrees_deletedService {s : Sys} (h : s.cp.Inv) (ha : SchedAgrees s) {v : DbService}
    (hmem : v ∈ s.cp.services) : SchedAgrees ((s.deletedService v).recalculated v) := by
  have hview : ∀ t, t ≠ v.tuple →
      serverView (s.deletedService v).cp.servers t = serverView s.cp.servers t := fun t ht => by
    refine serverView_map fun r _ => ?_
    split
    next hsrv =>
      have hne : r.srv ≠ t := fun heq => ht (heq.symm.trans hsrv)
      exact ⟨⟨fun hs => absurd hs.1 hne, fun hs => absurd hs.1 hne⟩, fun hs => absurd hs.1 hne⟩
    next => exact ⟨Iff.rfl, fun _ => rfl⟩
  have hgone : ∀ w, w ∈ ((s.deletedService v).recalculated v).cp.services ↔
      w ∈ s.cp.services ∧ w.tuple ≠ v.tuple := fun w => by
    simp [Sys.recalculated, Sys.deletedService, Cp.deleteService]
  refine ha.rewrite v.npsIndex [] (fun k => ?_) (fun w hw hidx => ?_) (fun w hw _ => ?_)
    (fun w hw hidx => ?_) fun _ => rfl
  · rw [recalculated_bucketIndexes _ (h.services_index v hmem).1, deletedService_bucketIndexes]
    simp only [Sys.deletedService, deactivatedFirst_sched, Nps.eraseEntry]
  · obtain ⟨hw, hne⟩ := (hgone w).mp hw
    exact absurd (congrArg DbService.tuple (h.service_eq_of_index hw hmem hidx)) hne
  · obtain ⟨hw, hne⟩ := (hgone w).mp hw
    exact ⟨w, hw, rfl, bucketIndexes_congr rfl (hview _ hne)⟩
  · refine ⟨w, (hgone w).mpr ⟨hw, fun heq => hidx ?_⟩, rfl⟩
    rw [h.service_eq_of_tuple hw hmem heq]

/-- A new service has no server that is scheduled. -/
theorem agrees_addedService {s : Sys} (h : s.cp.Inv) (ha : SchedAgrees s) (ho : ActiveOwned s.cp)
    {v : DbService} {i : Nat} {pool : WfPool serviceIndexPoolSize}
    (hfind : s.cp.findService v.tuple = none)
    (halloc : s.cp.serviceIndexPool.alloc = some (i, pool)) (hi : v.npsIndex = .ofNat i) :
    SchedAgrees (s.addedService v pool) := by
  have hne := h.service_index_fresh halloc
  have hnil : (s.addedService v pool).cp.bucketIndexes v = [] :=
    bucketIndexes_nil (serverView_nil fun r hr ⟨hsrv, _, hact⟩ => by
      obtain ⟨w, hw, hwt⟩ := ho r hr hact
      exact Cp.Inv.service_ne_of_find_none hfind hw (hwt.trans hsrv))
  constructor
  · intro w hw k hk
    obtain hw | rfl := by simpa [Sys.addedService] using hw
    · exact ha.entry w hw k hk
    · rw [hnil]
      refine ha.absent k fun w' hw' heq => hne w' hw' (UInt32.toNat_inj.mp ?_)
      rw [heq, hk, hi]
  · exact fun k hk => ha.absent k fun w hw => hk w (List.mem_append_left _ hw)

/-- A service with a new algorithm gets the bucket of that algorithm. -/
theorem agrees_modifiedServiceAlg {s : Sys} (h : s.cp.Inv) (ha : SchedAgrees s)
    {prev : DbService} (hmem : prev ∈ s.cp.services) (u : IpVsServiceUser) (count : UInt16) :
    SchedAgrees ((s.recalculated (modifiedRow prev u)).modifiedService
      { modifiedRow prev u with schedEntriesCount := count }) := by
  refine agrees_rewriteService h ha hmem (s.cp.bucketIndexes (modifiedRow prev u)) rfl
    (fun w => ?_) (fun k => ?_) ?_ fun w hw hne => ?_
  · split <;> rfl
  · rw [modifiedService_sched]
    exact @recalculated_bucketIndexes (modifiedRow prev u) s (h.services_index prev hmem).1 k
  · split
    next => exact bucketIndexes_congr rfl rfl
    next hne => exact absurd rfl hne
  · split
    next hwt => exact absurd (h.service_eq_of_tuple hw hmem hwt) hne
    next => exact bucketIndexes_congr rfl rfl

theorem agrees_effect {s s' : Sys} {op : CpOp} (h : s.cp.Inv) (ha : SchedAgrees s)
    (ho : ActiveOwned s.cp) (hok : SchedOk s op) (he : s.Effect op s') : SchedAgrees s' := by
  cases he with
  | addService hsup hfind halloc => exact agrees_addedService h ha ho hfind halloc rfl
  | @modifyService u prev hsup hfind hsame =>
    refine ha.same rfl rfl fun w hw => ?_
    split
    next hwt =>
      obtain rfl := h.service_eq_of_tuple hw (List.mem_of_find?_eq_some hfind) hwt
      exact ⟨rfl, bucketIndexes_congr hsame.symm rfl⟩
    next => exact ⟨rfl, bucketIndexes_congr rfl rfl⟩
  | modifyServiceAlg hsup hfind hnew =>
    exact agrees_modifiedServiceAlg h ha (List.mem_of_find?_eq_some hfind) _ _
  | deleteService hfind => exact agrees_deletedService h ha (List.mem_of_find?_eq_some hfind)
  | @addServer u d service v s₁ hfind _ hadded =>
    obtain ⟨htab, hserv⟩ := rowAdded_frame hadded
    split
    next =>
      have ha₁ := agrees_recalculatedService h ha (List.mem_of_find?_eq_some hfind) htab hserv
        (fun t ht => rowAdded_view h hadded (.inl ht)) true
      exact ha₁.of_view (withServerClass_sched _ _ _) rfl fun _ => rfl
    next hw =>
      exact ha.of_view htab hserv fun t => rowAdded_view h hadded (.inr (hok.resolve_left hw))
  | @modifyServer u d service r s₁ hfind hrow hact hs₁ =>
    subst hs₁
    have htab := modifiedServerRow_schedInfo s service.tuple (modifiedServer r.server d)
      (raisesThreshold r.server d)
    split
    next =>
      have ha₁ := agrees_recalculatedService h ha (List.mem_of_find?_eq_some hfind) htab rfl
        (fun t ht => serverView_updateServer_ne ht _ _ _) false
      exact ha₁.of_view (withServerInfo_sched _ _) rfl fun _ => rfl
    next hseems =>
      have hrow' := Cp.findServer_self hrow
      have hsrv : service.tuple = r.srv := (congrArg Prod.fst (Cp.findServer_key hrow)).symm
      have hweight : d.storedWeight = r.server.weight := by
        refine (hok r ?_).resolve_right hseems
        rw [Sys.requestedRow, ← Cp.findService_tuple hfind]
        exact hrow
      refine ha.of_view htab rfl fun t => ?_
      rw [hsrv]
      refine serverView_updateServer h hrow' (.inl ⟨?_, rfl⟩)
      simp [schedView, DbServer.modify, modifiedServer, hweight]
  | @deleteServer u d service r s₁ hfind hrow _ hs₁ =>
    subst hs₁
    have hsrv : service.tuple = r.srv := (congrArg Prod.fst (Cp.findServer_key hrow)).symm
    split
    next =>
      have ha₁ := @agrees_recalculatedService s (s.deactivatedServerRow r) h ha _
        (List.mem_of_find?_eq_some hfind) rfl rfl
        (fun t ht => serverView_updateServer_ne (hsrv ▸ ht) _ _ _) false
      have ha₂ := ha₁.of_view (withServerInfo_sched _ r.server.unavailable) rfl fun _ => rfl
      exact ha₂.of_view (withoutServerClass_sched _ _) rfl fun _ => rfl
    next hw =>
      refine ha.of_view rfl rfl fun t => ?_
      refine serverView_updateServer h (Cp.findServer_self hrow) (.inr ⟨fun hs => hw hs.1, ?_⟩)
      exact hw
  | clear => exact ⟨fun v hv => absurd hv (by simp [Sys.cleared, Cp.clearAll]), fun _ _ => rfl⟩
  | @aging _ r hr hact _ =>
    refine ha.of_view rfl rfl fun t => serverView_filter fun r' hr' hs => ?_
    have hk : r'.key ≠ (r.srv, r.server.ip, r.server.port) := fun hk => by
      have hact' := hs.2.2
      rw [h.server_eq_of_key hr' hr hk, hact] at hact'
      cases hact'
    simpa using hk

/-- The invariant of the runs. -/
structure SchedInv (s : Sys) : Prop where
  inv : s.cp.Inv
  agrees : SchedAgrees s
  owned : ActiveOwned s.cp

theorem schedInv_cpStep (s : Sys) (op : CpOp) (h : SchedInv s) (hok : SchedOk s op) :
    SchedInv (s.cpStep op) := by
  obtain heq | he := cpStep_cases h.inv.algs op
  · rwa [heq]
  · exact ⟨inv_effect h.inv he, agrees_effect h.inv h.agrees h.owned hok he,
      owned_effect h.owned he⟩

/-- Where no change of a weight is missed, every state of the run mirrors the buckets of
its services in the scheduling table. -/
theorem schedMirror_run (ops : List CpOp) (hops : Always SchedOk Sys.cpStep Sys.init ops) :
    SchedMirror (ops.foldl Sys.cpStep Sys.init) := by
  have hinit : SchedInv Sys.init :=
    ⟨.init, ⟨by simp [Sys.init], fun _ _ => rfl⟩, by simp [Sys.init, ActiveOwned]⟩
  exact (Always.invariant schedInv_cpStep _ ops hinit hops).agrees.mirror

/-- A server whose weight is raised and then set to 0. -/
theorem schedMirror_run_weights :
    SchedMirror ([.addService exampleService, .addServer exampleService (exampleServer 0 1),
      .modifyServer exampleService (exampleServer 0 255),
      .modifyServer exampleService (exampleServer 0 0)].foldl Sys.cpStep Sys.init) :=
  schedMirror_run _ (by decide +kernel)

/-! ## A run that breaks it -/

/-- The weight of a server changes from 256 to 0. -/
def weightTo0 : List CpOp :=
  [.addService exampleService, .addServer exampleService (exampleServer 0 256),
    .modifyServer exampleService (exampleServer 0 0)]

/-- All operations of that run succeed, and the first scheduling entry of the service is
still the server though its bucket is empty. -/
theorem schedMirror_fails :
    Always Succeeds Sys.cpStep Sys.init weightTo0 ∧
      ¬ SchedMirror (weightTo0.foldl Sys.cpStep Sys.init) := by
  refine ⟨by decide +kernel, fun h => ?_⟩
  have hservice : ∃ v ∈ (weightTo0.foldl Sys.cpStep Sys.init).cp.services, v.npsIndex = 0 ∧
      (weightTo0.foldl Sys.cpStep Sys.init).cp.bucket v = [] := by decide +kernel
  have hentry : (weightTo0.foldl Sys.cpStep Sys.init).nps.schedInfo 0 = some 0 := by decide +kernel
  obtain ⟨v, hv, hidx, hbucket⟩ := hservice
  have := h.1 v hv 0 (by decide) 0 (by rw [hidx]; rfl)
  rw [hentry, hbucket] at this
  cases this

end Alvs
