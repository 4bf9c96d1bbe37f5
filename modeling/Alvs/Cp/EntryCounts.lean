import Alvs.Cp.Starvation
import Alvs.Cp.SchedMirror

/-!
# The number of scheduling entries in three places

The number of entries of a service is in its row, in its info entry, and is that of its
entries in the scheduling table. `alvs_db_modify_server` and `alvs_db_delete_server` write
the table and the info entry and leave the row, from which `alvs_db_modify_service` writes
the info entry again. The three agree along the runs in which these operations leave the
size of the bucket (`countsAgree_run`). `countsAgree_fails` is a run in which one does not.
-/

namespace Alvs

open ProgLogic

/-! ## The three numbers -/

/-- The number of entries of the scheduling table that belong to index `i`. -/
def Nps.entriesOf (nps : Nps) (i : UInt32) : Nat :=
  (List.range alvsSizeOfSchedBucket).countP fun k => (nps.schedInfo (schedIndex i k)).isSome

/-- The number in the info entry of index `i`. -/
def Nps.infoCount (nps : Nps) (i : UInt32) : Option UInt16 :=
  (nps.serviceInfo i.toUInt8).map (·.schedEntriesCount)

/-- The number of entries of a service is the same in its row, in its info entry and in the
table. -/
structure CountAgrees (nps : Nps) (v : DbService) : Prop where
  table : nps.entriesOf v.npsIndex = v.schedEntriesCount.toNat
  info : nps.infoCount v.npsIndex = some v.schedEntriesCount

def CountsAgree (s : Sys) : Prop := ∀ v ∈ s.cp.services, CountAgrees s.nps v

/-- The counts agree, and an index of no service has no entries. -/
structure CountInv (s : Sys) : Prop where
  agree : CountsAgree s
  absent : ∀ i : UInt32, i.toNat < 256 → (∀ v ∈ s.cp.services, v.npsIndex ≠ i) →
    s.nps.entriesOf i = 0

theorem entriesOf_congr {nps nps' : Nps} (h : nps'.schedInfo = nps.schedInfo) (i : UInt32) :
    nps'.entriesOf i = nps.entriesOf i := by
  rw [Nps.entriesOf, h, Nps.entriesOf]

namespace CountInv

variable {s s' : Sys}

/-- A step that concerns index `i₀` only. -/
theorem change (h : CountInv s) (i₀ : UInt32) (hidx : ∀ v ∈ s.cp.services, v.npsIndex.toNat < 256)
    (hother : ∀ i : UInt32, i.toNat < 256 → i ≠ i₀ →
      s'.nps.entriesOf i = s.nps.entriesOf i ∧ s'.nps.infoCount i = s.nps.infoCount i)
    (hrows : ∀ w' ∈ s'.cp.services, w'.npsIndex ≠ i₀ → ∃ w ∈ s.cp.services,
      w.npsIndex = w'.npsIndex ∧ w.schedEntriesCount = w'.schedEntriesCount)
    (hkept : ∀ w ∈ s.cp.services, w.npsIndex ≠ i₀ →
      ∃ w' ∈ s'.cp.services, w'.npsIndex = w.npsIndex)
    (hnew : ∀ w' ∈ s'.cp.services, w'.npsIndex = i₀ → CountAgrees s'.nps w')
    (hgone : (∀ w' ∈ s'.cp.services, w'.npsIndex ≠ i₀) → s'.nps.entriesOf i₀ = 0) :
    CountInv s' where
  agree w' hw' := by
    by_cases hi : w'.npsIndex = i₀
    · exact hnew w' hw' hi
    · obtain ⟨w, hw, hwi, hwc⟩ := hrows w' hw' hi
      obtain ⟨htable, hinfo⟩ := hother w'.npsIndex (hwi ▸ hidx w hw) hi
      obtain ⟨htable', hinfo'⟩ := h.agree w hw
      rw [hwi, hwc] at htable' hinfo'
      exact ⟨htable.trans htable', hinfo.trans hinfo'⟩
  absent i hi hno := by
    by_cases hi₀ : i = i₀
    · subst hi₀
      exact hgone hno
    · rw [(hother i hi hi₀).1]
      refine h.absent i hi fun w hw hwi => ?_
      obtain ⟨w', hw', hwi'⟩ := hkept w hw fun heq => hi₀ (hwi.symm.trans heq)
      exact hno w' hw' (hwi'.trans hwi)

/-- A step that leaves the services, the table and the info entries. -/
theorem same (h : CountInv s) (hserv : s'.cp.services = s.cp.services)
    (htable : s'.nps.schedInfo = s.nps.schedInfo)
    (hinfo : s'.nps.serviceInfo = s.nps.serviceInfo) : CountInv s' := by
  constructor
  · intro v hv
    rw [hserv] at hv
    obtain ⟨ht, hi⟩ := h.agree v hv
    refine ⟨(entriesOf_congr htable _).trans ht, ?_⟩
    rw [Nps.infoCount, hinfo]
    exact hi
  · intro i hi hno
    rw [hserv] at hno
    exact (entriesOf_congr htable i).trans (h.absent i hi hno)

theorem withServerInfo (h : CountInv s) (v : DbServer) :
    CountInv (s.withEntry (serverInfoEntry v)) :=
  h.same rfl rfl rfl

theorem withServerClass (h : CountInv s) (t : ServiceTuple) (v : DbServer) :
    CountInv (s.withEntry (serverClassificationEntry t v)) :=
  h.same rfl rfl rfl

theorem withoutServerClass (h : CountInv s) (k : ServerClassificationKey) :
    CountInv (s.withoutEntry (.serverClassification k)) :=
  h.same rfl rfl rfl

end CountInv

/-! ## What the operations write -/

theorem countP_isSome {α : Type} (b : List α) (n : Nat) :
    (List.range n).countP (fun k => b[k]?.isSome) = min n b.length := by
  induction n with
  | zero => simp
  | succ n ih =>
    rw [List.range_succ, List.countP_append, ih, List.countP_singleton]
    by_cases hn : n < b.length
    · simp only [List.getElem?_eq_getElem hn, Option.isSome_some, if_true]
      omega
    · simp only [List.getElem?_eq_none (Nat.not_lt.mp hn), Option.isSome_none, Bool.false_eq_true,
        if_false]
      omega

section Writes

variable {s : Sys} {v : DbService} (hv : v.npsIndex.toNat < 256)

include hv

/-- A recalculation gives a service as many entries as its bucket has. -/
theorem recalculated_entriesOf :
    (s.recalculated v).nps.entriesOf v.npsIndex = (s.cp.bucket v).length := by
  have hentry : ∀ k ∈ List.range alvsSizeOfSchedBucket,
      (((s.recalculated v).nps.schedInfo (schedIndex v.npsIndex k)).isSome = true ↔
        (s.cp.bucket v)[k]?.isSome = true) := fun k hk => by
    rw [recalculated_schedIndex s hv (List.mem_range.mp hk), Option.isSome_map]
  rw [Nps.entriesOf, List.countP_congr hentry, countP_isSome]
  exact Nat.min_eq_right (length_bucket_le _ _)

theorem recalculated_entriesOf_ne {i : UInt32} (hi : i.toNat < 256) (hne : i ≠ v.npsIndex) :
    (s.recalculated v).nps.entriesOf i = s.nps.entriesOf i := by
  refine List.countP_congr fun k hk => ?_
  have hk : k < 256 := List.mem_range.mp hk
  have hdiv : (i.toNat * 256 + k) / 256 ≠ v.npsIndex.toNat := fun heq =>
    hne (UInt32.toNat_inj.mp (by omega))
  rw [recalculated_schedInfo s hv, schedIndex_toNat hi hk, if_neg hdiv]

omit hv in
theorem setInfo_infoCount (nps : Nps) :
    (nps.setEntry (serviceInfoEntry v)).infoCount v.npsIndex = some v.schedEntriesCount := by
  simp [Nps.infoCount, serviceInfoEntry, Nps.setEntry, buildNpsServiceInfoKey,
    buildNpsServiceInfoResult]

theorem toUInt8_ne {i : UInt32} (hi : i.toNat < 256) (hne : i ≠ v.npsIndex) :
    i.toUInt8 ≠ v.npsIndex.toUInt8 := fun heq => by
  have hnat := congrArg UInt8.toNat heq
  rw [UInt32.toNat_toUInt8, UInt32.toNat_toUInt8, Nat.mod_eq_of_lt hi, Nat.mod_eq_of_lt hv] at hnat
  exact hne (UInt32.toNat_inj.mp hnat)

theorem setInfo_infoCount_ne (nps : Nps) {i : UInt32} (hi : i.toNat < 256)
    (hne : i ≠ v.npsIndex) :
    (nps.setEntry (serviceInfoEntry v)).infoCount i = nps.infoCount i := by
  simp only [Nps.infoCount, serviceInfoEntry, Nps.setEntry, buildNpsServiceInfoKey,
    Function.update_of_ne (toUInt8_ne hv hi hne)]

omit hv in
theorem recalculatedService_infoCount (modifyDb : Bool) :
    (s.recalculatedService v modifyDb).nps.infoCount v.npsIndex =
      some (s.cp.entriesCount v) := by
  unfold Sys.recalculatedService
  generalize s.cp.entriesCount v = n
  exact setInfo_infoCount _

theorem recalculatedService_infoCount_ne (modifyDb : Bool) {i : UInt32} (hi : i.toNat < 256)
    (hne : i ≠ v.npsIndex) :
    (s.recalculatedService v modifyDb).nps.infoCount i = s.nps.infoCount i := by
  unfold Sys.recalculatedService
  generalize s.cp.entriesCount v = n
  exact setInfo_infoCount_ne (v := { v with schedEntriesCount := n }) hv _ hi hne

end Writes

/-! ## Every operation keeps the agreement -/

/-- The services are changed in place, and only the numbers of service `v` may be others. -/
theorem CountInv.rewrite {s s' : Sys} (h : CountInv s) (hinv : s.cp.Inv) {v : DbService}
    (hv : v ∈ s.cp.services) {f : DbService → DbService}
    (hserv : s'.cp.services = s.cp.services.map f) (hf : ∀ w, (f w).npsIndex = w.npsIndex)
    (hsame : ∀ w ∈ s.cp.services, w ≠ v → (f w).schedEntriesCount = w.schedEntriesCount)
    (hother : ∀ i : UInt32, i.toNat < 256 → i ≠ v.npsIndex →
      s'.nps.entriesOf i = s.nps.entriesOf i ∧ s'.nps.infoCount i = s.nps.infoCount i)
    (hnew : CountAgrees s'.nps (f v)) : CountInv s' := by
  have hidx : ∀ v ∈ s.cp.services, v.npsIndex.toNat < 256 :=
    fun v hv => (hinv.services_index v hv).1
  refine h.change v.npsIndex hidx hother ?_ ?_ ?_ ?_
  · rw [hserv]
    intro w' hw' hi
    obtain ⟨w, hw, rfl⟩ := List.mem_map.mp hw'
    refine ⟨w, hw, (hf w).symm, (hsame w hw fun heq => hi ?_).symm⟩
    rw [hf, heq]
  · rw [hserv]
    exact fun w hw _ => ⟨f w, List.mem_map_of_mem hw, hf w⟩
  · rw [hserv]
    intro w' hw' hi
    obtain ⟨w, hw, rfl⟩ := List.mem_map.mp hw'
    rwa [hinv.service_eq_of_index hw hv ((hf w).symm.trans hi)]
  · rw [hserv]
    exact fun hno => absurd (hf v) (hno _ (List.mem_map_of_mem hv))

/-- A service whose row and info entry are written with the number of its entries. -/
theorem countInv_modifiedService {s s₁ : Sys} (h : CountInv s) (hinv : s.cp.Inv)
    {v w : DbService} (hv : v ∈ s.cp.services) (htuple : w.tuple = v.tuple)
    (hindex : w.npsIndex = v.npsIndex) (hserv : s₁.cp.services = s.cp.services)
    (hinfo : s₁.nps.serviceInfo = s.nps.serviceInfo)
    (hother : ∀ i : UInt32, i.toNat < 256 → i ≠ v.npsIndex →
      s₁.nps.entriesOf i = s.nps.entriesOf i)
    (hcount : s₁.nps.entriesOf v.npsIndex = w.schedEntriesCount.toNat) :
    CountInv (s₁.modifiedService w) := by
  have hidx : w.npsIndex.toNat < 256 := hindex ▸ (hinv.services_index v hv).1
  have hentries : ∀ i, (s₁.modifiedService w).nps.entriesOf i = s₁.nps.entriesOf i :=
    entriesOf_congr rfl
  refine h.rewrite hinv hv (congrArg (List.map _) hserv) (fun x => ?_) (fun x hx hne => ?_)
    (fun i hi hne => ⟨(hentries i).trans (hother i hi hne), ?_⟩) ?_
  · split <;> rfl
  · rw [if_neg fun hxt => hne (hinv.service_eq_of_tuple hx hv (hxt.trans htuple))]
  · refine (setInfo_infoCount_ne hidx s₁.nps hi (hindex ▸ hne)).trans ?_
    rw [Nps.infoCount, hinfo, Nps.infoCount]
  · rw [if_pos htuple.symm]
    refine ⟨(hentries _).trans hcount, ?_⟩
    dsimp only
    rw [← hindex]
    exact setInfo_infoCount s₁.nps

/-- A recalculation keeps it where it writes the row too, or does not change the number. -/
theorem countInv_recalculatedService {s s₁ : Sys} (h : CountInv s) (hinv : s.cp.Inv)
    {v : DbService} (hv : v ∈ s.cp.services) (hserv : s₁.cp.services = s.cp.services)
    (htable : s₁.nps.schedInfo = s.nps.schedInfo) (hinfo : s₁.nps.serviceInfo = s.nps.serviceInfo)
    {modifyDb : Bool} (hsize : modifyDb = true ∨
      (s₁.cp.bucket v).length = v.schedEntriesCount.toNat) :
    CountInv (s₁.recalculatedService v modifyDb) := by
  have hidx := (hinv.services_index v hv).1
  have hother : ∀ i : UInt32, i.toNat < 256 → i ≠ v.npsIndex →
      (s₁.recalculated v).nps.entriesOf i = s.nps.entriesOf i := fun i hi hne => by
    rw [recalculated_entriesOf_ne hidx hi hne, entriesOf_congr htable]
  cases modifyDb with
  | true =>
    refine countInv_modifiedService h hinv hv rfl rfl hserv hinfo hother ?_
    rw [recalculated_entriesOf hidx, entriesCount_toNat]
  | false =>
    have hlength := hsize.resolve_left Bool.false_ne_true
    have hcount : s₁.cp.entriesCount v = v.schedEntriesCount := by
      rw [← UInt16.toNat_inj, entriesCount_toNat, hlength]
    have hentries := entriesOf_congr (recalculatedService_schedInfo s₁ v false)
    refine h.rewrite hinv hv (f := id) (by rw [List.map_id]; exact hserv) (fun _ => rfl)
      (fun _ _ _ => rfl) (fun i hi hne => ⟨(hentries i).trans (hother i hi hne), ?_⟩) ⟨?_, ?_⟩
    · rw [recalculatedService_infoCount_ne hidx _ hi hne, Nps.infoCount, hinfo, Nps.infoCount]
    · rw [id, hentries, recalculated_entriesOf hidx, hlength]
    · rw [id, recalculatedService_infoCount, hcount]

theorem countInv_addedService {s : Sys} (h : CountInv s) (hinv : s.cp.Inv) {v : DbService} {i : Nat}
    {pool : WfPool serviceIndexPoolSize} (halloc : s.cp.serviceIndexPool.alloc = some (i, pool))
    (hi : v.npsIndex = .ofNat i) (hzero : v.schedEntriesCount = 0) :
    CountInv (s.addedService v pool) := by
  have hvi := WfPool.alloc_toNat halloc (by decide)
  have hno := hinv.service_index_fresh halloc
  rw [← hi] at hvi hno
  have hv : v.npsIndex.toNat < 256 := hvi ▸ (WfPool.alloc_spec halloc).1
  have hmem : ∀ w, w ∈ (s.addedService v pool).cp.services ↔ w ∈ s.cp.services ∨ w = v :=
    fun w => by
    simp [Sys.addedService]
  have hentries : ∀ j, (s.addedService v pool).nps.entriesOf j = s.nps.entriesOf j :=
    entriesOf_congr rfl
  have hinfo : ∀ j, (s.addedService v pool).nps.infoCount j =
      (s.nps.setEntry (serviceInfoEntry v)).infoCount j := fun j => rfl
  refine h.change v.npsIndex (fun w hw => (hinv.services_index w hw).1) ?_ ?_ ?_ ?_ ?_
  · exact fun j hj hne => ⟨hentries j, (hinfo j).trans (setInfo_infoCount_ne hv _ hj hne)⟩
  · intro w hw hne
    obtain hw | rfl := (hmem w).mp hw
    · exact ⟨w, hw, rfl, rfl⟩
    · exact absurd rfl hne
  · exact fun w hw _ => ⟨w, (hmem w).mpr (.inl hw), rfl⟩
  · intro w hw hwi
    obtain hw | rfl := (hmem w).mp hw
    · exact absurd hwi (hno w hw)
    · refine ⟨?_, (hinfo _).trans (setInfo_infoCount _)⟩
      rw [hentries, hzero]
      exact h.absent _ hv hno
  · exact fun hgone => absurd rfl (hgone v ((hmem v).mpr (.inr rfl)))

theorem deactivatedFirst_serviceInfo (nps : Nps) (l : List DbServer) :
    (nps.deactivatedFirst l).serviceInfo = nps.serviceInfo := by
  unfold Nps.deactivatedFirst
  split <;> rfl

theorem countInv_deletedService {s : Sys} (h : CountInv s) (hinv : s.cp.Inv) {v : DbService}
    (hv : v ∈ s.cp.services) : CountInv ((s.deletedService v).recalculated v) := by
  have hidx := (hinv.services_index v hv).1
  have hmem : ∀ w, w ∈ ((s.deletedService v).recalculated v).cp.services ↔
      w ∈ s.cp.services ∧ w.tuple ≠ v.tuple := fun w => by
    simp [Sys.recalculated, Sys.deletedService, Cp.deleteService]
  have hbucket : (s.deletedService v).cp.bucket v = [] :=
    List.map_eq_nil_iff.mp (deletedService_bucketIndexes s v)
  have hbefore : ∀ j, (s.deletedService v).nps.entriesOf j = s.nps.entriesOf j :=
    entriesOf_congr (by simp only [Sys.deletedService, deactivatedFirst_sched, Nps.eraseEntry])
  refine h.change v.npsIndex (fun w hw => (hinv.services_index w hw).1) ?_ ?_ ?_ ?_ ?_
  · intro j hj hne
    refine ⟨by rw [recalculated_entriesOf_ne hidx hj hne, hbefore], ?_⟩
    simp only [Nps.infoCount, Sys.recalculated, Sys.deletedService, deactivatedFirst_serviceInfo,
      Nps.eraseEntry, buildNpsServiceInfoKey, Function.update_of_ne (toUInt8_ne hidx hj hne)]
  · intro w hw _
    exact ⟨w, ((hmem w).mp hw).1, rfl, rfl⟩
  · intro w hw hne
    refine ⟨w, (hmem w).mpr ⟨hw, fun heq => hne ?_⟩, rfl⟩
    rw [hinv.service_eq_of_tuple hw hv heq]
  · intro w hw hwi
    obtain ⟨hw, hne⟩ := (hmem w).mp hw
    exact absurd (congrArg DbService.tuple (hinv.service_eq_of_index hw hv hwi)) hne
  · intro _
    rw [recalculated_entriesOf hidx, hbucket, List.length_nil]

/-- Where an operation recalculates the entries of a service and leaves its row, their
number is that of the row. -/
def SizeKept (s : Sys) : CpOp → Prop
  | .modifyServer u d => ∀ v ∈ s.cp.findService u.tuple, ∀ r ∈ s.requestedRow u d,
    r.server.active = true ∧ weightSeemsChanged r.server d = true →
    bucketSize v.schedAlg ((s.cp.updateServer u.tuple d.ip d.cpPort
      (modifiedServer r.server d).modify).scheduled v) = v.schedEntriesCount.toNat
  | .deleteServer u d => ∀ v ∈ s.cp.findService u.tuple, ∀ r ∈ s.requestedRow u d,
    r.server.active = true ∧ r.server.weight > 0 →
    bucketSize v.schedAlg ((s.cp.updateServer u.tuple d.ip d.cpPort
      DbServer.deactivated).scheduled v) = v.schedEntriesCount.toNat
  | _ => True

instance decidableSizeKept (s : Sys) : (op : CpOp) → Decidable (SizeKept s op)
  | .modifyServer u d => by unfold SizeKept; infer_instance
  | .deleteServer u d => by unfold SizeKept; infer_instance
  | .clear => .isTrue trivial
  | .addService _ => .isTrue trivial
  | .modifyService _ => .isTrue trivial
  | .deleteService _ _ => .isTrue trivial
  | .addServer _ _ => .isTrue trivial
  | .aging _ => .isTrue trivial

/-- The condition on an operation : unless it fails its checks, it keeps the number of the
entries that it recalculates without the row. -/
def CountOk (s : Sys) (op : CpOp) : Prop := op.Acceptable → SizeKept s op

instance (s : Sys) (op : CpOp) : Decidable (CountOk s op) :=
  inferInstanceAs (Decidable (_ → _))

theorem rowAdded_serviceInfo {s s₁ : Sys} {service : DbService} {d : IpVsDestUser} {v : DbServer}
    (hadded : s.RowAdded service d v s₁) : s₁.nps.serviceInfo = s.nps.serviceInfo := by
  obtain ⟨r, -, -, rfl, rfl⟩ | ⟨-, i, pool, -, rfl, rfl⟩ := hadded <;> rfl

theorem modifiedServerRow_serviceInfo (s : Sys) (t : ServiceTuple) (v : DbServer) (b : Bool) :
    (s.modifiedServerRow t v b).nps.serviceInfo = s.nps.serviceInfo := by
  cases b <;> rfl

theorem countInv_effect {s s' : Sys} {op : CpOp} (h : CountInv s) (hinv : s.cp.Inv)
    (hok : SizeKept s op) (he : s.Effect op s') : CountInv s' := by
  cases he with
  | addService hsup hfind halloc => exact countInv_addedService h hinv halloc rfl rfl
  | @modifyService u prev hsup hfind hsame =>
    have hmem := List.mem_of_find?_eq_some hfind
    exact countInv_modifiedService h hinv hmem rfl rfl rfl rfl (fun _ _ _ => rfl)
      (h.agree prev hmem).table
  | @modifyServiceAlg u prev hsup hfind hnew =>
    have hmem := List.mem_of_find?_eq_some hfind
    have hidx : (modifiedRow prev u).npsIndex.toNat < 256 := (hinv.services_index prev hmem).1
    refine countInv_modifiedService h hinv hmem rfl rfl
      rfl rfl (fun i hi hne => recalculated_entriesOf_ne hidx hi hne) ?_
    rw [entriesCount_toNat]
    exact recalculated_entriesOf hidx
  | deleteService hfind => exact countInv_deletedService h hinv (List.mem_of_find?_eq_some hfind)
  | @addServer u d service v s₁ hfind hcount hadded =>
    have hmem := List.mem_of_find?_eq_some hfind
    obtain ⟨htable, hserv⟩ := rowAdded_frame hadded
    have hinfo := rowAdded_serviceInfo hadded
    refine CountInv.withServerClass ?_ _ _
    split
    next => exact countInv_recalculatedService h hinv hmem hserv htable hinfo (.inl rfl)
    next => exact h.same hserv htable hinfo
  | @modifyServer u d service r s₁ hfind hrow hact hs₁ =>
    have hmem := List.mem_of_find?_eq_some hfind
    have hcp : s₁.cp = s.cp.updateServer service.tuple (modifiedServer r.server d).ip
      (modifiedServer r.server d).port (modifiedServer r.server d).modify := by rw [hs₁]; rfl
    have hserv : s₁.cp.services = s.cp.services := by rw [hcp]; rfl
    have htable : s₁.nps.schedInfo = s.nps.schedInfo := by rw [hs₁, modifiedServerRow_schedInfo]
    have hinfo : s₁.nps.serviceInfo = s.nps.serviceInfo := by
      rw [hs₁, modifiedServerRow_serviceInfo]
    refine CountInv.withServerInfo ?_ _
    split
    next hseems =>
      have hinv₁ : s₁.cp.Inv := hcp ▸ inv_cpEffect hinv (.modifyServer (u := u) hrow)
      refine countInv_recalculatedService h hinv hmem hserv htable hinfo (.inr ?_)
      rw [length_bucket_scheduled hinv₁ (hserv ▸ hmem), hcp]
      have htuple := Cp.findService_tuple hfind
      rw [htuple] at hrow
      have hkey := Cp.findServer_key hrow
      have hkept := hok service hfind r hrow ⟨hact, hseems⟩
      rwa [← htuple, ← show r.server.ip = d.ip from congrArg (·.2.1) hkey,
        ← show r.server.port = d.cpPort from congrArg (·.2.2) hkey] at hkept
    next => exact h.same hserv htable hinfo
  | @deleteServer u d service r s₁ hfind hrow hact hs₁ =>
    have hmem := List.mem_of_find?_eq_some hfind
    have hcp : s₁.cp = s.cp.updateServer r.srv r.server.ip r.server.port DbServer.deactivated := by
      rw [hs₁]; rfl
    have hserv : s₁.cp.services = s.cp.services := by rw [hcp]; rfl
    have hnps : s₁.nps = s.nps := by rw [hs₁]; rfl
    have htable : s₁.nps.schedInfo = s.nps.schedInfo := by rw [hnps]
    have hinfo : s₁.nps.serviceInfo = s.nps.serviceInfo := by rw [hnps]
    refine (CountInv.withServerInfo ?_ _).withoutServerClass _
    split
    next hw =>
      have hinv₁ : s₁.cp.Inv := hcp ▸ inv_cpEffect hinv (.deleteServer (u := u) (d := d))
      refine countInv_recalculatedService h hinv hmem hserv htable hinfo (.inr ?_)
      rw [length_bucket_scheduled hinv₁ (hserv ▸ hmem), hcp]
      rw [Cp.findService_tuple hfind] at hrow
      have hkey := Cp.findServer_key hrow
      have hkept := hok service hfind r hrow ⟨hact, hw⟩
      rwa [← show r.srv = u.tuple from congrArg Prod.fst hkey,
        ← show r.server.ip = d.ip from congrArg (·.2.1) hkey,
        ← show r.server.port = d.cpPort from congrArg (·.2.2) hkey] at hkept
    next => exact h.same hserv htable hinfo
  | clear =>
    refine ⟨fun v hv => absurd hv (by simp [Sys.cleared, Cp.clearAll]), fun i hi _ => ?_⟩
    exact List.countP_eq_zero.mpr fun k _ => Bool.false_ne_true
  | aging hr => exact h.same rfl rfl rfl

/-! ## The runs that keep it -/

theorem countInv_cpStep (s : Sys) (op : CpOp) (h : s.cp.Inv ∧ CountInv s) (hok : CountOk s op) :
    (s.cpStep op).cp.Inv ∧ CountInv (s.cpStep op) := by
  obtain ⟨hinv, hcount⟩ := h
  refine ⟨inv_cpStep hinv op, ?_⟩
  by_cases hacc : op.Acceptable
  · obtain heq | he := cpStep_cases hinv.algs op
    · rwa [heq]
    · exact countInv_effect hcount hinv (hok hacc) he
  · rwa [cpStep_of_not_acceptable hacc]

/-- Where the operations that leave the row of a service leave the size of its bucket too,
the three numbers agree in every state of the run. -/
theorem countsAgree_run (ops : List CpOp) (hops : Always CountOk Sys.cpStep Sys.init ops) :
    CountsAgree (ops.foldl Sys.cpStep Sys.init) := by
  have hinit : CountInv Sys.init :=
    ⟨fun v hv => absurd hv List.not_mem_nil,
      fun _ _ _ => List.countP_eq_zero.mpr fun _ _ => Bool.false_ne_true⟩
  exact (Always.invariant countInv_cpStep _ ops ⟨.init, hinit⟩ hops).2.agree

/-- A request for a service that schedules by the hash of the source. -/
def sourceHashService : IpVsServiceUser := { exampleService with schedName := "sh" }

/-- The entries of a source hash service fill its range whichever servers it has. -/
theorem countsAgree_run_sourceHash :
    CountsAgree ([.addService sourceHashService, .addServer sourceHashService (exampleServer 0 1),
      .addServer sourceHashService (exampleServer 1 1),
      .deleteServer sourceHashService (exampleServer 1 1),
      .modifyService sourceHashService].foldl Sys.cpStep Sys.init) :=
  countsAgree_run _ (by decide +kernel)

/-! ## A run that breaks it -/

/-- One of two servers of a round robin service deleted, and the service modified. -/
def deleteOneOfTwo : List CpOp :=
  [.addService exampleService, .addServer exampleService (exampleServer 0 1),
    .addServer exampleService (exampleServer 1 1),
    .deleteServer exampleService (exampleServer 1 1), .modifyService exampleService]

/-- All operations of that run succeed. The row and the info entry say two entries, and the
table has one. -/
theorem countsAgree_fails :
    Always Succeeds Sys.cpStep Sys.init deleteOneOfTwo ∧
      ¬ CountsAgree (deleteOneOfTwo.foldl Sys.cpStep Sys.init) := by
  refine ⟨by decide +kernel, fun h => ?_⟩
  have hrow : ∃ v ∈ (deleteOneOfTwo.foldl Sys.cpStep Sys.init).cp.services,
      v.npsIndex = 0 ∧ v.schedEntriesCount = 2 := by decide +kernel
  have htable : (deleteOneOfTwo.foldl Sys.cpStep Sys.init).nps.entriesOf 0 = 1 := by decide +kernel
  obtain ⟨v, hv, hidx, hcount⟩ := hrow
  have := (h v hv).table
  rw [hidx, htable, hcount] at this
  exact absurd this (by decide)

end Alvs
