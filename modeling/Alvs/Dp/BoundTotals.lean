import Alvs.Cp.OwnCounters
import Alvs.Dp.Attempts
import Alvs.Dp.ConnCounters
import Alvs.Dp.Sections

/-!
# CONNECTION_TOTAL and the bound entries

The counter of a server is to be the number of the entries that are bound to it
(`Nps.Booked`). The scheduler counts a connection before its entry is stored and a deletion
removes the entry before it is counted off, so in between the counter is one ahead. A job keeps
the books (`booked_job`) if its calls meet `TotalsOk` : it binds no entry without counting it
and counts off no connection that it has not counted.
-/

namespace Alvs

open ProgLogic LProg

/-! ## The books -/

/-- CONNECTION_TOTAL is to count the entries that are bound to the server. -/
def connectionTotal : ConnCounter where
  value s info := s.onDemand info.connTotal
  counts j c := decide (c.BoundTo j)

/-- One ahead at server `j`. -/
def oneAhead (j : UInt32) : UInt32 → Int := fun i => if i = j then 1 else 0

/-- The counters are `ahead` of the bound entries, whose servers are there; the index of an
entry is allocated, and servers do not share counters. -/
structure Nps.Booked (s : Nps) (ahead : UInt32 → Int) : Prop where
  totals : connectionTotal.Counts ahead s
  own : s.OwnCounters
  allocated : ∀ i c, s.connInfo i = some c → s.connIndexAllocated i = true
  served : ∀ i c, s.connInfo i = some c → c.bound = true →
    ∃ info, s.serverInfo c.serverIndex = some info

section Books

variable {s s' : Nps} {ahead ahead' : UInt32 → Int} {i j : UInt32} {c : ConnInfoResult}
  {info info' : ServerInfoResult}

theorem connTotal_inj (h : info.Own i) (h' : info'.Own j) (heq : info.connTotal = info'.connTotal) :
    i = j := by
  rw [ServerInfoResult.connTotal, ServerInfoResult.connTotal, h.onDemand, h'.onDemand] at heq
  simpa [SumAddr.add, serverOnDemandStatsBase, alvsNumOfServersOnDemandStats] using heq

theorem weight_boundTo (c : ConnInfoResult) (j : UInt32) :
    entryWeight (connectionTotal.counts j) (some c) = if c.BoundTo j then 1 else 0 := by
  simp [entryWeight_some, connectionTotal]

theorem weight_unbound (hc : c.bound = false) (j : UInt32) :
    entryWeight (connectionTotal.counts j) (some c) = 0 := by
  rw [weight_boundTo, if_neg fun h => Bool.false_ne_true (hc.symm.trans h.1)]

theorem weight_bound (hc : c.BoundTo j) :
    (fun i => entryWeight (connectionTotal.counts i) (some c)) = oneAhead j := by
  funext i
  rw [weight_boundTo, oneAhead]
  exact if_congr ⟨fun h => h.2.symm.trans hc.2, fun h => ⟨hc.1, hc.2.trans h.symm⟩⟩ rfl rfl

namespace Nps.Booked

/-- A step that leaves what the books are about. -/
theorem congr (h : s.Booked ahead) (hserver : s'.serverInfo = s.serverInfo)
    (hconn : s'.connInfo = s.connInfo) (halloc : s'.connIndexAllocated = s.connIndexAllocated)
    (htotal : s'.onDemand = s.onDemand) : s'.Booked ahead where
  totals := h.totals.congr hserver hconn fun _ info _ => by
    simp only [connectionTotal, htotal]
  own := h.own.congr hserver
  allocated := by
    rw [hconn, halloc]
    exact h.allocated
  served := by
    rw [hconn, hserver]
    exact h.served

/-- The counter of server `j` is changed. -/
theorem addTotal (h : s.Booked ahead) (hinfo : s.serverInfo j = some info) (d : Int)
    (hserver : s'.serverInfo = s.serverInfo) (hconn : s'.connInfo = s.connInfo)
    (halloc : s'.connIndexAllocated = s.connIndexAllocated)
    (htotal : s'.onDemand = Function.update s.onDemand info.connTotal
      (s.onDemand info.connTotal + d))
    (hahead : ∀ i, ahead' i = ahead i + if i = j then d else 0) : s'.Booked ahead' where
  totals := h.totals.congr hserver hconn fun i info' hinfo' => by
    simp only [connectionTotal, htotal, hahead]
    by_cases hij : i = j
    · subst hij
      obtain rfl := Option.some.inj (hinfo.symm.trans hinfo')
      rw [Function.update_self, if_pos rfl]
      omega
    · have hne : info'.connTotal ≠ info.connTotal := fun heq =>
        hij (connTotal_inj (h.own i info' hinfo') (h.own j info hinfo) heq)
      rw [Function.update_of_ne hne, if_neg hij]
      omega
  own := h.own.congr hserver
  allocated := by
    rw [hconn, halloc]
    exact h.allocated
  served := by
    rw [hconn, hserver]
    exact h.served

/-- Entry `i` is replaced. -/
theorem setEntry (h : s.Booked ahead) {new : Option ConnInfoResult}
    (halloc : new ≠ none → s.connIndexAllocated i = true)
    (hserved : ∀ c ∈ new, c.bound = true → ∃ info, s.serverInfo c.serverIndex = some info)
    (hahead : ∀ j, ahead' j = ahead j + entryWeight (connectionTotal.counts j) (s.connInfo i) -
      entryWeight (connectionTotal.counts j) new) :
    Nps.Booked { s with connInfo := Function.update s.connInfo i new } ahead' where
  totals := h.totals.update rfl rfl fun j info _ => by
    simp only [connectionTotal, hahead]
    omega
  own := h.own.congr rfl
  allocated := by
    intro k c hc
    change Function.update s.connInfo i new k = some c at hc
    by_cases hk : k = i
    · subst hk
      rw [Function.update_self] at hc
      exact halloc fun hnone => by simp [hnone] at hc
    · rw [Function.update_of_ne hk] at hc
      exact h.allocated k c hc
  served := by
    intro k c hc
    change Function.update s.connInfo i new k = some c at hc
    by_cases hk : k = i
    · subst hk
      rw [Function.update_self] at hc
      exact hserved c hc
    · rw [Function.update_of_ne hk] at hc
      exact h.served k c hc

/-- An entry is modified that stays with its server. -/
theorem modify (h : s.Booked ahead) {c' : ConnInfoResult} (hc : s.connInfo i = some c)
    (hbound : c'.bound = c.bound) (hserver : c'.serverIndex = c.serverIndex) :
    (s.setConn i c').Booked ahead := by
  refine h.setEntry (fun _ => h.allocated i c hc) ?_ fun j => ?_
  · rintro _ ⟨⟩ hb
    rw [hserver]
    exact h.served i c hc (hbound ▸ hb)
  · have hiff : c'.BoundTo j ↔ c.BoundTo j := by
      rw [ConnInfoResult.BoundTo, ConnInfoResult.BoundTo, hbound, hserver]
    rw [hc, weight_boundTo, weight_boundTo, if_congr hiff rfl rfl, Int.add_sub_cancel]

/-- The index of an entry that is not there is allocated, or freed. -/
theorem setAllocated (h : s.Booked ahead) {b : Bool} (hi : s.connInfo i = none ∨ b = true) :
    Nps.Booked { s with connIndexAllocated := Function.update s.connIndexAllocated i b } ahead where
  totals := h.totals.congr rfl rfl fun _ _ _ => rfl
  own := h.own.congr rfl
  allocated := by
    intro i' c' hc'
    show Function.update s.connIndexAllocated i b i' = true
    by_cases hi' : i' = i
    · subst hi'
      rw [Function.update_self]
      exact hi.resolve_left fun hnone => by cases hnone.symm.trans hc'
    · rw [Function.update_of_ne hi']
      exact h.allocated i' c' hc'
  served := h.served

/-- A free index has no entry. -/
theorem free (h : s.Booked ahead) (hi : s.IndexFree i) : s.connInfo i = none := by
  cases hc : s.connInfo i with
  | none => rfl
  | some c => cases (h.allocated i c hc).symm.trans hi.2

end Nps.Booked

end Books

/-! ## The calls -/

/-- No server is found for an unbound connection, and none for the connection of a record that
is new here; no creation of an unbound connection fails; and where an unbound entry is deleted,
the address of its server is no index of a server. -/
def TotalsOk (e : DpEnv) : DpCall → Nps → Prop
  | .serverClassLookup .findServerIndex key, s =>
    e.fails = true ∨ s.serverClassification key = none
  | .serverClassLookup (.syncConn _) key, s =>
    e.fails = true ∨ ∀ j ∈ s.serverClassification key, s.serverInfo j = none
  | .allocIndex false, s => s.IndexFree e.value
  | .connClassAdd false _ _, _ => e.fails = false
  | .connInfoDelete _ i, s =>
    ∀ c ∈ s.connInfo i, c.bound = false → s.serverInfo c.serverIndex = none
  | _, _ => True

instance decidableTotalsOk (e : DpEnv) (op : DpCall) (s : Nps) : Decidable (TotalsOk e op s) := by
  -- not by an enumeration of 32-bit values
  have := @Option.decidableForallMem UInt32
  unfold TotalsOk
  split <;> infer_instance

/-- The specification of the calls that meet `TotalsOk`. -/
abbrev totalsSpec : Spec DpCall DpCall.Res Nps := Prog.envSpec dpHandle TotalsOk

/-- CONNECTION_TOTAL of each server is the number of the entries that are bound to it. -/
abbrev Nps.Balanced (s : Nps) : Prop := s.Booked fun _ => 0

section Jobs

variable {m : Cmem} {s : Nps} {i j : UInt32} {c : ConnInfoResult} {info : ServerInfoResult}

/-- Calls off the tables and totals leave the books. -/
theorem booked_off {α : Type} {ahead : UInt32 → Int} {x : Dp α} (hx : OffTotals x) :
    Triple totalsSpec (·.Booked ahead) x (·.Booked ahead) := by
  refine .of_only (fun s op h hop => ⟨trivial, ?_⟩) hx
  rintro r s' ⟨e, -, heq⟩
  obtain rfl : (dpHandle e op s).2 = s' := congrArg Prod.snd heq
  cases op <;> first | exact hop.elim | exact h | exact h.congr rfl rfl rfl rfl

/-! ### Changes of an entry -/

/-- A section that reads entry `i` under the lock. -/
theorem wp_balancedSection {β : Type} (site : ConnSite) {f : UInt32 → Bool → Dp β}
    {Q : β → Cmem → Nps → Prop} (habsent : ∀ hv, (f hv false).wp totalsSpec Q m s)
    (hfound : ∀ hv c, s.connInfo i = some c →
      (f hv true).wp totalsSpec Q { m with connInfoResult := c } s) :
    (do
      let hashValue ← alvsLockConnection
      let found ← alvsConnInfoLookup site i
      f hashValue found).wp totalsSpec Q m s := by
  refine wp_bind_of env_lock ?_
  rintro hv _ _ ⟨rfl, rfl⟩
  refine wp_bind_of (env_connInfoLookup_mem site i) ?_
  rintro found m₁ _ ⟨rfl, ⟨rfl, -, rfl⟩ | ⟨c, rfl, hc, rfl⟩⟩
  · exact habsent hv
  · exact hfound hv c hc

/-- A section ends, with a result. -/
theorem wp_balancedEnd {β : Type} (h : s.Balanced) (hv : UInt32) (b : β) :
    (do
      alvsUnlockConnection hv
      pure b).wp totalsSpec (fun _ _ s' => s'.Balanced) m s := by
  refine wp_bind_of (env_unlock_mem hv) ?_
  rintro _ _ _ ⟨-, rfl⟩
  exact h

/-- The entry that was read is modified, and the section ends. -/
theorem wp_balancedModify (h : s.Balanced) (hc : s.connInfo i = some c) {c' : ConnInfoResult}
    (hbound : c'.bound = c.bound) (hserver : c'.serverIndex = c.serverIndex) (hv : UInt32) :
    (do
      let rc ← alvsConnInfoModify i c'
      alvsUnlockConnection hv
      pure rc).wp totalsSpec (fun _ _ s' => s'.Balanced) m s := by
  refine wp_bind_of (env_connInfoModify hc) ?_
  rintro rc _ _ ⟨rfl, rfl, rfl⟩
  exact wp_balancedEnd (h.modify hc hbound hserver) hv _

theorem balanced_withStatistics (h : s.Balanced) (a b d : Int) :
    (s.withStatistics info a b d).Balanced := h.congr rfl rfl rfl rfl

theorem balanced_refresh (i : UInt32) :
    Triple totalsSpec Nps.Balanced (alvsConnRefresh i) Nps.Balanced := by
  intro m s h
  refine wp_balancedSection .refresh (fun hv => wp_balancedEnd h hv _) fun hv c hc => ?_
  rw [if_pos rfl, wp_bind, wp_get]
  refine wp_balancedModify h hc ?_ ?_ hv
  all_goals rfl

theorem balanced_ageOut (i : UInt32) (iter : UInt8) :
    Triple totalsSpec Nps.Balanced (alvsConnAgeOut i iter) Nps.Balanced := by
  intro m s h
  refine wp_balancedSection .ageOut (fun hv => wp_balancedEnd h hv _) fun hv c hc => ?_
  rw [if_pos rfl, wp_bind, wp_get]
  refine wp_balancedModify h hc ?_ ?_ hv
  all_goals rfl

theorem balanced_updateState (i : UInt32) (st : UInt8) :
    Triple totalsSpec Nps.Balanced (alvsConnUpdateState i st) Nps.Balanced := by
  intro m s h
  refine wp_balancedSection .updateState (fun hv => wp_balancedEnd h hv _) fun hv c hc => ?_
  rw [if_pos rfl, wp_bind, wp_get]
  refine (wp_ite _ _ _ _).mpr ⟨fun _ => wp_balancedEnd h hv _, fun _ => ?_⟩
  refine wp_bind_of (env_updateConnectionStatistics_eq _ _ _) ?_
  rintro _ _ _ ⟨rfl, rfl⟩
  refine wp_bind_of (env_connInfoModify hc) ?_
  rintro rc _ _ ⟨rfl, rfl, rfl⟩
  rw [wp_bind, wp_modify]
  refine wp_balancedEnd ((balanced_withStatistics h _ _ _).modify hc ?_ ?_) hv _
  all_goals rfl

theorem balanced_markToDelete (i : UInt32) (reset : Bool) :
    Triple totalsSpec Nps.Balanced (alvsConnMarkToDelete i reset) Nps.Balanced := by
  intro m s h
  refine wp_balancedSection (.markToDelete reset) (fun hv => wp_balancedEnd h hv _)
    fun hv c hc => ?_
  rw [if_pos rfl, wp_bind, wp_get]
  refine (wp_ite _ _ _ _).mpr ⟨fun _ => wp_balancedEnd h hv _, fun _ => ?_⟩
  rw [wp_bind]
  refine (wp_ite _ _ _ _).mpr ⟨fun _ => ?_, fun _ => ?_⟩
  · refine wp_mono (env_updateConnectionStatistics_eq _ _ _) ?_
    rintro _ _ _ ⟨rfl, rfl⟩
    refine wp_balancedModify (balanced_withStatistics h _ _ _) hc ?_ ?_ hv
    all_goals rfl
  · rw [wp_pure]
    refine wp_balancedModify h hc ?_ ?_ hv
    all_goals rfl

theorem findServer_none {e : DpEnv} {key : ServerClassificationKey}
    (he : TotalsOk e (.serverClassLookup .findServerIndex key) s) :
    (dpHandle e (.serverClassLookup .findServerIndex key) s).1 = none := by
  obtain hf | hnone := he
  · exact if_pos hf
  · simp only [dpHandle, hnone, ite_self]

/-- No server is found to bind an entry to. -/
theorem balanced_tryBind (i : UInt32) :
    Triple totalsSpec Nps.Balanced (alvsConnTryBind i) Nps.Balanced := by
  intro m s h
  rw [alvsConnTryBind, wp_bind, wp_get]
  refine (wp_ite _ _ _ _).mpr ⟨fun _ => ?_, fun _ => h⟩
  rw [wp_bind, alvsFindServerIndex, wp_call_env]
  intro e he
  rw [findServer_none he]
  exact h

/-! ### Deletion -/

/-- A deletion is counted off. -/
theorem Nps.Booked.afterRemoval (h : s.Booked (oneAhead j)) (hinfo : s.serverInfo j = some info) :
    (s.afterRemoval info).Balanced := by
  refine h.addTotal hinfo (-1) rfl rfl rfl rfl fun i => ?_
  rw [oneAhead]
  split <;> rfl

theorem wp_overloadOnDelete (h : s.Booked (oneAhead j)) (hinfo : s.serverInfo j = some info)
    (hm : m.serverInfoResult = info) (k : UInt16) :
    (alvsServerOverloadOnDeleteConn k).wp totalsSpec (fun _ _ s' => s'.Balanced ∧
      s'.connInfo = s.connInfo) m s := by
  refine wp_mono (env_overloadOnDelete_eq k) ?_
  rintro _ _ _ ⟨-, rfl⟩
  rw [hm]
  exact ⟨h.afterRemoval hinfo, rfl⟩

/-- The connection is counted off the server that it was bound to. -/
theorem wp_releaseBound (h : s.Booked (oneAhead c.serverIndex))
    (hinfo : s.serverInfo c.serverIndex = some info) :
    (alvsConnReleaseServer c).wp totalsSpec (fun _ _ s' => s'.Balanced ∧
      s'.connInfo = s.connInfo) m s := by
  refine wp_bind_of (env_serverInfoLookup_mem c.serverIndex) ?_
  rintro found m₁ s ⟨rfl, ⟨rfl, hnone, rfl⟩ | ⟨info', rfl, hinfo', rfl⟩⟩
  · cases hnone.symm.trans hinfo
  rw [if_pos rfl]
  have hstats (a b d : Int) : (alvsUpdateConnectionStatistics a b d).wp totalsSpec
      (fun _ m' s' => m' = { m with serverInfoResult := info' } ∧ s'.connInfo = s.connInfo ∧
        s'.serverInfo = s.serverInfo ∧ s'.Booked (oneAhead c.serverIndex))
      { m with serverInfoResult := info' } s := by
    refine wp_mono (env_updateConnectionStatistics_eq a b d) ?_
    rintro _ _ _ ⟨rfl, rfl⟩
    exact ⟨rfl, rfl, rfl, h.congr rfl rfl rfl rfl⟩
  refine wp_bind_of ((wp_ite _ _ _ _).mpr ⟨fun _ => hstats _ _ _, fun _ => hstats _ _ _⟩) ?_
  rintro _ _ s₁ ⟨rfl, hconn, hserver, h₁⟩
  refine wp_mono (wp_overloadOnDelete h₁ ((congrFun hserver _).trans hinfo') rfl _) ?_
  rintro _ _ _ ⟨h₂, hconn₂⟩
  exact ⟨h₂, hconn₂.trans hconn⟩

/-- The entry that is deleted is in `conn_info_result`. -/
theorem wp_deleteWithoutLock (site : DeleteSite) (h : s.Balanced)
    (hc : s.connInfo i = some m.connInfoResult) :
    (alvsConnDeleteWithoutLock site i).wp totalsSpec (fun _ _ s' => s'.Balanced) m s := by
  rw [alvsConnDeleteWithoutLock, wp_bind, wp_get, wp_bind, wp_call_env]
  intro e _
  by_cases hfails : e.fails = true ∨ s.connClassification m.connInfoResult.connClassKey = none
  · simp only [dpHandle, if_pos hfails, Bool.false_eq_true, if_false]
    exact h
  simp only [dpHandle, if_neg hfails, if_true, wp_bind, wp_call_env, hc, reduceCtorEq, if_false]
  intro e' hunbound
  have hunbound := hunbound _ hc
  have hremoved : Nps.Booked { s with
      connClassification :=
        Function.update s.connClassification m.connInfoResult.connClassKey none
      connInfo := Function.update s.connInfo i none }
      fun j => entryWeight (connectionTotal.counts j) (some m.connInfoResult) := by
    refine Nps.Booked.congr (h.setEntry (i := i) (fun hno => absurd rfl hno) (by simp) fun j => ?_)
      rfl rfl rfl rfl
    rw [hc, entryWeight_none]
    omega
  have hgone : Function.update s.connInfo i none i = none := Function.update_self ..
  cases hb : m.connInfoResult.bound with
  | true =>
    obtain ⟨info, hinfo⟩ := h.served i _ hc hb
    rw [weight_bound ⟨hb, rfl⟩] at hremoved
    refine wp_mono (wp_releaseBound hremoved hinfo) ?_
    rintro _ m' s' ⟨h', hconn⟩
    exact fun _ _ => h'.setAllocated (.inl ((congrFun hconn i).trans hgone))
  | false =>
    have hbalanced := hremoved
    simp only [weight_unbound hb] at hbalanced
    refine wp_bind_of (env_serverInfoLookup_mem _) ?_
    rintro found m' s' ⟨rfl, ⟨rfl, -, rfl⟩ | ⟨info, rfl, hinfo, -⟩⟩
    · exact fun _ _ => hbalanced.setAllocated (.inl hgone)
    · cases (hunbound hb).symm.trans hinfo

/-! ### Creation -/

theorem wp_balancedDiscard {β : Type} {Q : β → Cmem → Nps → Prop} (h : s.Balanced)
    (e : AlvsErrorStats) (b : β) (hQ : ∀ m' s', s'.Balanced → Q b m' s') :
    (do
      alvsDiscardAndStats e
      pure b).wp totalsSpec Q m s :=
  wp_bind_of (booked_off (quiet_alvsDiscardAndStats e).offTotals m s h) fun _ m' s' h' =>
    hQ m' s' h'

/-- The entry of a connection that has been counted is stored, or the connection is counted
off. -/
theorem wp_createBound (h : s.Booked (oneAhead j))
    (hinfo : s.serverInfo j = some m.serverInfoResult)
    (port st : UInt16) (flags : UInt32) (reset : Bool) :
    (alvsConnCreateNewEntry true j port st flags reset).wp totalsSpec
      (fun _ _ s' => s'.Balanced) m s := by
  rw [alvsConnCreateNewEntry, wp_bind, wp_call_env]
  intro e _
  by_cases hfree : s.IndexFree e.value
  · have hnone := h.free hfree
    simp only [dpHandle, if_pos hfree, wp_bind, wp_get, wp_modify, wp_call_env]
    intro _ _ e' _
    let c := newConnInfo m.connClassKey true j port st flags reset
    have hc : c.BoundTo j := ⟨rfl, rfl⟩
    let s₁ : Nps := { s with
      connIndexAllocated := Function.update s.connIndexAllocated e.value true
      connInfo := Function.update s.connInfo e.value (some c) }
    have hstored : s₁.Balanced := by
      refine (h.setAllocated (i := e.value) (.inr rfl)).setEntry
        (fun _ => Function.update_self ..) ?_ fun i => ?_
      · rintro _ ⟨⟩ _
        exact ⟨_, hinfo⟩
      · rw [show entryWeight (connectionTotal.counts i) (some c) = oneAhead j i from
          congrFun (weight_bound hc) i, hnone, entryWeight_none]
        omega
    by_cases hfails : e'.fails = true
    · simp only [if_pos hfails, Bool.false_eq_true, if_false, wp_bind, wp_call_env, dpHandle,
        Function.update_self, reduceCtorEq]
      intro _ _
      have hremoved : Nps.Booked { s₁ with connInfo := Function.update s₁.connInfo e.value none }
          (oneAhead j) := by
        refine hstored.setEntry (fun hno => absurd rfl hno) (by simp) fun i => ?_
        rw [show s₁.connInfo e.value = some c from Function.update_self .., entryWeight_none,
          show entryWeight (connectionTotal.counts i) (some c) = oneAhead j i from
            congrFun (weight_bound hc) i]
        omega
      refine wp_mono (wp_overloadOnDelete hremoved hinfo ?_ _) ?_
      · rfl
      rintro _ _ s₂ ⟨h₂, hconn⟩ _ _
      have hgone : s₂.connInfo e.value = none := (congrFun hconn _).trans (Function.update_self ..)
      exact (wp_bind _ _ _).mp
        (wp_balancedDiscard (h₂.setAllocated (.inl hgone)) _ _ fun _ _ h' => h')
    · simp only [if_neg hfails, if_true]
      have hstats : OffTotals (alvsConnCreateStatistics st) :=
        .ite (offTotals_updateConnectionStatistics _ _ _)
          (offTotals_updateConnectionStatistics _ _ _)
      exact wp_bind_of (booked_off hstats _ _ (hstored.congr rfl rfl rfl rfl)) fun _ _ _ h' => h'
  · simp only [dpHandle, if_neg hfree]
    refine wp_bind_of (wp_overloadOnDelete h hinfo rfl _) ?_
    rintro _ _ _ ⟨h', -⟩
    exact wp_balancedDiscard h' _ _ fun _ _ h' => h'

/-- The entry of an unbound connection is stored. -/
theorem wp_createUnbound (h : s.Balanced) (addr : UInt32) (port st : UInt16) (flags : UInt32)
    (reset : Bool) : (alvsConnCreateNewEntry false addr port st flags reset).wp totalsSpec
      (fun _ _ s' => s'.Balanced) m s := by
  rw [alvsConnCreateNewEntry, wp_bind, wp_call_env]
  intro e hfree
  have hfree : s.IndexFree e.value := hfree
  have hnone := h.free hfree
  simp only [dpHandle, if_pos hfree, wp_bind, wp_get, wp_modify, wp_call_env]
  intro _ _ e' hfails
  have hfails : e'.fails = false := hfails
  simp only [hfails, Bool.false_eq_true, if_false, if_true]
  let c := newConnInfo m.connClassKey false addr port st flags reset
  let s₁ : Nps := { s with
    connIndexAllocated := Function.update s.connIndexAllocated e.value true
    connInfo := Function.update s.connInfo e.value (some c) }
  have hstored : s₁.Balanced := by
    refine (h.setAllocated (i := e.value) (.inr rfl)).setEntry
      (fun _ => Function.update_self ..) ?_ fun j => ?_
    · rintro _ ⟨⟩ hb
      cases hb
    · rw [weight_unbound rfl, hnone, entryWeight_none]
      omega
  exact hstored.congr rfl rfl rfl rfl

/-! ### Scheduling -/

/-- A server that is found has been counted, and its information is in `server_info_result`. -/
def Placed (found : Prop) (m : Cmem) (s : Nps) : Prop :=
  (found → s.serverInfo m.schedServerIndex = some m.serverInfoResult ∧
    s.Booked (oneAhead m.schedServerIndex)) ∧ (¬ found → s.Balanced)

theorem Placed.of_balanced {found : Prop} (h : s.Balanced) (hf : ¬ found) : Placed found m s :=
  ⟨fun h => absurd h hf, fun _ => h⟩

theorem Placed.of_eq {α : Type} {a b : α} (h : Placed (a = b) m s) {found : Prop}
    (hiff : found ↔ a = b) : Placed found m s :=
  ⟨fun hf => h.1 (hiff.mp hf), fun hf => h.2 (mt hiff.mpr hf)⟩

/-- An attempt counts the connection that it admits. -/
theorem Nps.Booked.afterAttempt (h : s.Balanced) (hinfo : s.serverInfo j = some info) :
    (s.Admits info → (s.afterAttempt info).Booked (oneAhead j)) ∧
      (¬ s.Admits info → (s.afterAttempt info).Balanced) := by
  refine ⟨fun hadm => ?_, fun hno => ?_⟩
  · refine h.addTotal hinfo 1 rfl rfl rfl (if_pos hadm) fun i => ?_
    rw [oneAhead, Int.zero_add]
  · exact h.congr rfl rfl rfl (if_neg hno)

theorem wp_schedGetServerInfo (h : s.Balanced) (k : UInt16) :
    (alvsSchedGetServerInfo k).wp totalsSpec (fun r m' s' => Placed (r = .success) m' s') m s := by
  cases hsched : s.schedInfo k with
  | none =>
    simp only [alvsSchedGetServerInfo, alvsServerSchedLookup, wp_bind, wp_call_env, dpHandle,
      hsched]
    intro e _
    by_cases hfails : e.fails = true
    · simp only [if_pos hfails, wp_pure]
      exact wp_balancedDiscard h _ _ fun _ _ h' => .of_balanced h' (by simp)
    · simp only [if_neg hfails, wp_pure]
      exact .of_balanced h (by simp)
  | some j =>
    cases hinfo : s.serverInfo j with
    | none =>
      simp only [alvsSchedGetServerInfo, alvsServerSchedLookup, wp_bind, wp_call_env, dpHandle,
        hsched, wp_modify, wp_pure, wp_get, alvsServerInfoLookup, hinfo]
      intro _ _ _ _
      rw [if_neg Bool.false_ne_true]
      exact wp_balancedDiscard h _ _ fun _ _ h' => .of_balanced h' (by simp)
    | some info =>
      refine wp_mono (env_schedGetServerInfo hsched hinfo) ?_
      rintro r _ _ ⟨rfl, rfl, ⟨rfl, hadm⟩ | ⟨rfl, hno⟩⟩
      · exact ⟨fun _ => ⟨hinfo, (h.afterAttempt hinfo).1 hadm⟩, fun hno => absurd rfl hno⟩
      · exact .of_balanced ((h.afterAttempt hinfo).2 hno) (by simp)

theorem wp_shFallback (k : UInt8) (hash : UInt32) : ∀ (offsets : List Nat) {m : Cmem} {s : Nps},
    s.Balanced → (alvsSchedShFallback k hash offsets).wp totalsSpec
      (fun r m' s' => Placed (r = .success) m' s') m s
  | [], _, _, h => .of_balanced h nofun
  | _ :: offsets, _, _, h => by
    refine wp_bind_of (wp_schedGetServerInfo h _) fun r m' s' hplaced => ?_
    refine (wp_ite _ _ _ _).mpr ⟨fun hr => ?_, fun _ => hplaced⟩
    exact wp_shFallback k hash offsets (hplaced.2 fun heq => by cases hr.symm.trans heq)

/-- `alvs_sched_sh_schedule_connection` after its attempts. -/
def shResult : AlvsSchedServerResult → Dp Bool
  | .success => pure true
  | .unavailable => do
    alvsDiscardAndStats .serverIsUnavailable
    pure false
  | .empty => do
    alvsSchedHandleNoActiveServers
    pure false
  | .failed => pure false

theorem wp_shSchedule (h : s.Balanced) (k : UInt8) (sip : UInt32) (sport : UInt16) :
    (alvsSchedShScheduleConnection k sip sport).wp totalsSpec
      (fun found m' s' => Placed (found = true) m' s') m s := by
  rw [alvsSchedShScheduleConnection, wp_bind, wp_get]
  refine wp_bind_of (booked_off (quiet_alvsSchedShGetSchedulingIndex _ _).offTotals _ _ h) ?_
  intro hash m₁ s₁ h₁
  refine wp_bind_of (wp_schedGetServerInfo h₁ _) fun first m₂ s₂ hplaced => ?_
  rw [wp_bind]
  have hend : ∀ r m' s', Placed (r = AlvsSchedServerResult.success) m' s' →
      (shResult r).wp totalsSpec (fun found m'' s'' => Placed (found = true) m'' s'') m' s' := by
    intro r m' s' hr
    cases r with
    | success => exact hr.of_eq (iff_of_true rfl rfl)
    | failed => exact .of_balanced (hr.2 (by simp)) (by simp)
    | unavailable | empty =>
      exact wp_balancedDiscard (hr.2 (by simp)) _ _ fun _ _ h' => .of_balanced h' (by simp)
  refine (wp_ite _ _ _ _).mpr ⟨fun hfirst => ?_, fun _ => hend _ _ _ hplaced⟩
  refine wp_mono (wp_shFallback _ _ _ (hplaced.2 fun heq => ?_)) hend
  cases hfirst.1.symm.trans heq

theorem wp_rrLoop (k : UInt8) : ∀ (retries : Nat) (count : UInt32) {m : Cmem} {s : Nps},
    s.Balanced →
    (alvsSchedRrLoop k retries count).wp totalsSpec
      (fun r m' s' => Placed (r = some .success) m' s') m s
  | 0, _, _, _, h => .of_balanced h nofun
  | retries + 1, count, m, s, h => by
    rw [alvsSchedRrLoop, wp_bind, wp_get]
    refine wp_bind_of (wp_schedGetServerInfo h _) fun r m₁ s₁ hplaced => ?_
    refine (wp_ite _ _ _ _).mpr ⟨fun hr => ?_, fun _ => ?_⟩
    · have h₁ : s₁.Balanced := hplaced.2 fun heq => by cases hr.symm.trans heq
      refine wp_bind_of (booked_off (quiet_alvsServiceInfoLookup k).offTotals _ _ h₁) ?_
      intro found m₂ s₂ h₂
      refine (wp_ite _ _ _ _).mpr ⟨fun _ => ?_, fun _ => ?_⟩
      · refine wp_bind_of (booked_off quiet_alvsSchedCheckActiveServers.offTotals _ _ h₂) ?_
        intro active m₃ s₃ h₃
        exact (wp_ite _ _ _ _).mpr ⟨fun _ => wp_rrLoop k retries _ h₃,
          fun _ => .of_balanced h₃ nofun⟩
      · exact wp_balancedDiscard h₂ _ _ fun _ _ h' => .of_balanced h' nofun
    · exact hplaced.of_eq (Option.some_inj)

theorem wp_rrSchedule (h : s.Balanced) (k : UInt8) :
    (alvsSchedRrScheduleConnection k).wp totalsSpec
      (fun found m' s' => Placed (found = true) m' s') m s := by
  rw [alvsSchedRrScheduleConnection, wp_bind, wp_get, wp_bind, wp_call_env]
  intro e _
  refine wp_bind_of (wp_rrLoop k _ _ h) fun r m' s' hr => ?_
  cases r with
  | none => exact .of_balanced (hr.2 nofun) nofun
  | some r =>
    cases r with
    | success => exact hr.of_eq (iff_of_true rfl rfl)
    | failed => exact .of_balanced (hr.2 nofun) nofun
    | unavailable | empty =>
      exact wp_balancedDiscard (hr.2 nofun) _ _ fun _ _ h' => .of_balanced h' nofun

theorem wp_scheduleConnection (h : s.Balanced) (k : UInt8) (ip : IpHdr) (tcp : TcpHdr) :
    (alvsScheduleConnection k ip tcp).wp totalsSpec
      (fun found m' s' => Placed (found = true) m' s') m s := by
  rw [alvsScheduleConnection, wp_bind, wp_get]
  refine (wp_ite _ _ _ _).mpr ⟨fun _ => wp_shSchedule h _ _ _, fun _ => (wp_ite _ _ _ _).mpr
    ⟨fun _ => wp_rrSchedule h k, fun _ => (wp_ite _ _ _ _).mpr ⟨fun _ => wp_rrSchedule h k,
    fun _ => ?_⟩⟩⟩
  exact wp_balancedDiscard h _ _ fun _ _ h' => .of_balanced h' nofun

theorem balanced_scheduleLocked (k : UInt8) (ip : IpHdr) (tcp : TcpHdr) :
    Triple totalsSpec Nps.Balanced (alvsTcpScheduleLocked k ip tcp) Nps.Balanced := by
  intro m s h
  rw [alvsTcpScheduleLocked, wp_bind, wp_get, wp_bind, wp_call_env]
  intro e _
  have hlookup : (dpHandle e (.connClassLookup .schedule m.connClassKey) s).2 = s := rfl
  rw [hlookup]
  cases (dpHandle e (.connClassLookup .schedule m.connClassKey) s).1 with
  | found i => exact h
  | error => exact wp_balancedDiscard h _ _ fun _ _ h' => h'
  | notFound =>
    refine wp_bind_of (wp_scheduleConnection h k ip tcp) fun found m₁ s₁ hplaced => ?_
    refine (wp_ite _ _ _ _).mpr ⟨fun hf => ?_, fun hf => hplaced.2 hf⟩
    obtain ⟨hinfo, hbooked⟩ := hplaced.1 hf
    rw [alvsTcpCreateConnection, wp_bind, wp_get]
    exact wp_bind_of (wp_createBound hbooked hinfo _ _ _ _) fun _ _ _ h' => h'

theorem balanced_schedule (k : UInt8) (ip : IpHdr) (tcp : TcpHdr) :
    Triple totalsSpec Nps.Balanced (alvsTcpScheduleNewConnection k ip tcp) Nps.Balanced := by
  refine .bind (booked_off quiet_alvsSchedCheckActiveServers.offTotals) fun _ =>
    .ite ?_ (.of_pure _)
  intro m s h
  refine wp_bind_of env_lock ?_
  rintro hv _ _ ⟨rfl, rfl⟩
  refine wp_bind_of (balanced_scheduleLocked k ip tcp _ _ h) fun r m₁ s₁ h₁ => ?_
  exact wp_balancedEnd h₁ hv r

/-! ### Sync records -/

/-- A server that is looked up for a record is not found. -/
theorem balanced_stateSyncCreateConn (conn : StateSyncConn) (hv : UInt32) :
    Triple totalsSpec Nps.Balanced (alvsStateSyncCreateConn conn hv) Nps.Balanced := by
  intro m s h
  rw [alvsStateSyncCreateConn, wp_bind, wp_call_env]
  intro e he
  have hstate : (dpHandle e (.serverClassLookup (.syncConn conn) ⟨conn.serverAddr, conn.virtualAddr,
    conn.serverPort, conn.virtualPort, conn.protocol.toUInt16⟩) s).2 = s := rfl
  rw [hstate]
  cases hfound : (dpHandle e (.serverClassLookup (.syncConn conn) ⟨conn.serverAddr,
    conn.virtualAddr, conn.serverPort, conn.virtualPort, conn.protocol.toUInt16⟩) s).1 with
  | none =>
    refine wp_bind_of (wp_createUnbound h _ _ _ _ _) fun r m₁ s₁ h₁ => ?_
    exact wp_balancedEnd h₁ hv _
  | some j =>
    have hnone : s.serverInfo j = none := by
      obtain hf | hnone := he
      · cases hfound.symm.trans (if_pos hf)
      · refine hnone j ?_
        by_cases hf : e.fails = true
        · cases hfound.symm.trans (if_pos hf)
        · exact (if_neg hf).symm.trans hfound
    refine wp_bind_of (env_serverInfoLookup_mem j) ?_
    rintro found m₁ s ⟨rfl, ⟨rfl, -, rfl⟩ | ⟨info, -, hinfo, -⟩⟩
    · exact wp_balancedEnd h hv _
    · cases hnone.symm.trans hinfo

/-- No server is found to bind the entry of a record to. -/
theorem wp_stateSyncBindConn (conn : StateSyncConn) (c : ConnInfoResult) :
    (alvsStateSyncBindConn conn c).wp totalsSpec (fun c' m' s' => c' = c ∧ m' = m ∧ s' = s) m
      s := by
  rw [alvsStateSyncBindConn]
  refine (wp_ite _ _ _ _).mpr ⟨fun _ => ⟨rfl, rfl, rfl⟩, fun _ => ?_⟩
  rw [wp_bind, alvsFindServerIndex, wp_call_env]
  intro e he
  rw [findServer_none he]
  exact ⟨rfl, rfl, rfl⟩

theorem wp_stateSyncUpdateConn (conn : StateSyncConn) (h : s.Balanced)
    (hc : s.connInfo i = some m.connInfoResult) (hv : UInt32) :
    (alvsStateSyncUpdateConn conn i hv).wp totalsSpec (fun _ _ s' => s'.Balanced) m s := by
  have hstats : (alvsStateSyncUpdateStatistics conn m.connInfoResult).wp totalsSpec
      (fun _ _ s' => s'.Balanced ∧ s'.connInfo = s.connInfo) m s := by
    have hupdate (a b d : Int) : (alvsUpdateConnectionStatistics a b d).wp totalsSpec
        (fun _ _ s' => s'.Balanced ∧ s'.connInfo = s.connInfo) m s := by
      refine wp_mono (env_updateConnectionStatistics_eq a b d) ?_
      rintro _ _ _ ⟨-, rfl⟩
      exact ⟨balanced_withStatistics h _ _ _, rfl⟩
    exact (wp_ite _ _ _ _).mpr ⟨fun _ => (wp_ite _ _ _ _).mpr
      ⟨fun _ => hupdate _ _ _, fun _ => hupdate _ _ _⟩, fun _ => ⟨h, rfl⟩⟩
  rw [alvsStateSyncUpdateConn, wp_bind, wp_get]
  refine wp_bind_of hstats ?_
  rintro _ m₁ s₁ ⟨h₁, hconn⟩
  refine wp_bind_of (wp_stateSyncBindConn conn m.connInfoResult) ?_
  rintro _ m₂ s₂ ⟨rfl, rfl, rfl⟩
  have hc₂ : s₂.connInfo i = some m.connInfoResult := (congrFun hconn i).trans hc
  refine wp_bind_of (env_connInfoModify hc₂) ?_
  rintro _ _ _ ⟨-, -, rfl⟩
  refine wp_balancedEnd (h₁.modify hc₂ ?_ ?_) hv 0
  all_goals rfl

theorem balanced_stateSyncExistingConn (conn : StateSyncConn) (i hv : UInt32) :
    Triple totalsSpec Nps.Balanced (alvsStateSyncExistingConn conn i hv) Nps.Balanced := by
  intro m s h
  refine wp_bind_of (env_connInfoLookup_mem (.syncConn conn) i) ?_
  rintro found m₁ s ⟨rfl, ⟨rfl, -, rfl⟩ | ⟨c, rfl, hc, rfl⟩⟩
  · exact wp_balancedEnd h hv _
  rw [if_pos rfl, wp_bind, wp_get]
  have hserver : LProg.wp totalsSpec (if c.bound then alvsServerInfoLookup c.serverIndex
      else pure true) (fun _ m' s' => m'.connInfoResult = c ∧ s' = s)
      { m with connInfoResult := c } s := by
    refine (wp_ite _ _ _ _).mpr ⟨fun _ => wp_mono (env_serverInfoLookup_mem _) ?_,
      fun _ => ⟨rfl, rfl⟩⟩
    rintro _ _ _ ⟨rfl, ⟨-, -, rfl⟩ | ⟨info, -, -, rfl⟩⟩
    all_goals exact ⟨rfl, rfl⟩
  refine wp_bind_of hserver ?_
  rintro found m₂ s ⟨hm, rfl⟩
  have hc₂ : s.connInfo i = some m₂.connInfoResult := hc.trans (congrArg some hm.symm)
  refine (wp_ite _ _ _ _).mpr ⟨fun _ => ?_, fun _ => wp_balancedEnd h hv _⟩
  rw [wp_bind, wp_get]
  refine (wp_ite _ _ _ _).mpr ⟨fun _ => (wp_ite _ _ _ _).mpr ⟨fun _ => ?_,
    fun _ => wp_balancedEnd h hv _⟩, fun _ => wp_stateSyncUpdateConn conn h hc₂ hv⟩
  refine wp_bind_of (wp_deleteWithoutLock .syncConn h hc₂) fun _ m₃ s₃ h₃ => ?_
  exact balanced_stateSyncCreateConn conn hv m₃ s₃ h₃

theorem balanced_syncConn (conn : StateSyncConn) :
    Triple totalsSpec Nps.Balanced (alvsStateSyncProcessConn conn) Nps.Balanced := by
  refine .ite (.of_pure _) (.ite (.of_pure _) (.ite (.of_pure _) (.bind .of_modify fun _ => ?_)))
  intro m s h
  refine wp_bind_of env_lock ?_
  rintro hv m s ⟨rfl, rfl⟩
  rw [wp_bind, wp_call_env]
  intro e _
  have hstate : (dpHandle e (.connClassLookup .syncConn conn.classKey) s).2 = s := rfl
  rw [hstate]
  cases (dpHandle e (.connClassLookup .syncConn conn.classKey) s).1 with
  | found i => exact balanced_stateSyncExistingConn conn i hv _ _ h
  | notFound | error => exact balanced_stateSyncCreateConn conn hv _ _ h

/-! ### Jobs -/

theorem balanced_agingDelete (iter : UInt8) (h : s.Balanced)
    (hc : s.connInfo i = some m.connInfoResult) :
    (alvsAgingDelete iter i).wp totalsSpec (fun _ _ s' => s'.Balanced) m s := by
  rw [alvsAgingDelete, wp_bind, wp_modify, alvsConnDelete]
  refine wp_bind_of env_lock ?_
  rintro hv _ _ ⟨rfl, rfl⟩
  refine wp_bind_of (wp_deleteWithoutLock (.aging iter) h ?_) fun _ m₁ s₁ h₁ => ?_
  · exact hc
  · refine wp_mono (env_unlock_mem hv) ?_
    rintro _ _ _ ⟨-, rfl⟩
    exact h₁

theorem balanced_scanEntry (iter : UInt8) (ip : UInt32) (id : UInt8) (i : UInt32) :
    Triple totalsSpec Nps.Balanced (alvsAgingScanEntry iter ip id i) Nps.Balanced := by
  intro m s h
  refine wp_bind_of (env_connInfoLookup_mem .scan i) ?_
  rintro found m₁ s ⟨rfl, ⟨rfl, -, rfl⟩ | ⟨c, rfl, hc, rfl⟩⟩
  · exact h
  rw [if_pos rfl, wp_bind, wp_get]
  have hdelete : (alvsAgingDelete iter i).wp totalsSpec (fun _ _ s' => s'.Balanced)
      { m with connInfoResult := c } s := balanced_agingDelete iter h hc
  refine (wp_ite _ _ _ _).mpr ⟨fun _ => hdelete, fun _ => (wp_ite _ _ _ _).mpr ⟨fun _ => ?_,
    fun _ => (wp_ite _ _ _ _).mpr ⟨fun _ => hdelete, fun _ => h⟩⟩⟩
  rw [wp_bind, wp_modify]
  refine wp_bind_of (balanced_ageOut i iter _ _ h) fun aged m₂ s₂ h₂ => ?_
  refine (wp_ite _ _ _ _).mpr ⟨fun _ => ?_, fun _ => h₂⟩
  rw [wp_bind, wp_get]
  exact (wp_ite _ _ _ _).mpr ⟨fun _ => booked_off (offTotals_stateSyncAggr _ _) _ _ h₂,
    fun _ => h₂⟩

theorem pathwise_totals : Pathwise totalsSpec Nps.Balanced where
  off hx := booked_off hx
  dataPathLookup i := fun m s h => by
    refine wp_mono (env_connInfoLookup_mem .dataPath i) ?_
    rintro _ _ _ ⟨rfl, -⟩
    exact h
  updateState := balanced_updateState
  markToDelete := balanced_markToDelete
  refresh := balanced_refresh
  tryBind := balanced_tryBind

theorem jobwise_totals : Jobwise totalsSpec fun _ => Nps.Balanced where
  quiet hx := (booked_off hx.offTotals).keeps
  modify _ := Triple.of_modify.keeps
  classLookup _ := fun _ _ h => (wp_call_env _ _).mpr fun _ _ => h
  connDataPath tcp i := (pathwise_totals.connDataPath tcp i).keeps
  connDoRoute := (booked_off offTotals_connDoRoute).keeps
  schedule i ip tcp := (balanced_schedule i ip tcp).keeps
  syncConn conn := (balanced_syncConn conn).keeps
  scanEntry iter ip id i := (balanced_scanEntry iter ip id i).keeps

/-- A job that meets `TotalsOk` keeps the books. -/
theorem booked_job {s : Nps} (h : s.Balanced) (j : DpJob) (m : Cmem) (es : Nat → DpEnv)
    (hok : ((packetProcessing j).run m).CallsOk TotalsOk dpHandle es s) :
    (((packetProcessing j).run m).execEnv dpHandle es s).2.Balanced :=
  Prog.execEnv_of_wp _ (jobwise_totals.job j m s h) hok

end Jobs

end Alvs
