import Alvs.Dp.Replication

/-!
# Aging the map of connections

An event of the aging timer scans a range of connection indexes. `Nps.Scans` : the entries with
some of the indexes are scanned, each once, and the others stay.

`agingIteration_run` : events of one iteration, in any order and no event twice, scan the
connections in their ranges, each once, and all the events of an iteration scan every connection.
What a scan does goes by the entry alone (`ConnInfoResult.afterScan`).
-/

namespace Alvs

open ProgLogic LProg

/-- What a scan makes of an entry. -/
def ConnInfoResult.afterScan (c : ConnInfoResult) (iterationNum : UInt8) : Option ConnInfoResult :=
  if c.Expired iterationNum then none
  else if c.agingBit then some (c.aged iterationNum)
  else some c

/-- The entries with the indexes in `indexes` are scanned. -/
structure Nps.Scans (iterationNum : UInt8) (indexes : UInt32 → Prop) (s s' : Nps) : Prop where
  agree : TablesAgree s'
  servers : s.SameServerTables s'
  scanned : ∀ i, indexes i → s'.connInfo i = (s.connInfo i).bind (·.afterScan iterationNum)
  kept : ∀ i, ¬ indexes i → s'.connInfo i = s.connInfo i

section Scans

variable {iterationNum : UInt8} {P Q : UInt32 → Prop} {s s' s'' : Nps} {m : Cmem} {i : UInt32}

theorem Nps.Scans.refl (h : TablesAgree s) : s.Scans iterationNum (fun _ => False) s :=
  ⟨h, .refl s, fun _ => False.elim, fun _ _ => rfl⟩

/-- Scans of different entries, one after the other. -/
theorem Nps.Scans.trans (h : s.Scans iterationNum P s') (h' : s'.Scans iterationNum Q s'')
    (hdisjoint : ∀ i, P i → ¬ Q i) : s.Scans iterationNum (fun i => P i ∨ Q i) s'' := by
  refine ⟨h'.agree, h.servers.trans h'.servers, fun i hi => ?_, fun i hi => ?_⟩
  · rcases hi with hi | hi
    · rw [h'.kept i (hdisjoint i hi), h.scanned i hi]
    · rw [h'.scanned i hi, h.kept i fun hp => hdisjoint i hp hi]
  · rw [not_or] at hi
    rw [h'.kept i hi.2, h.kept i hi.1]

theorem Nps.Scans.congr (h : s.Scans iterationNum P s') (hiff : ∀ i, P i ↔ Q i) :
    s.Scans iterationNum Q s' :=
  ⟨h.agree, h.servers, fun i hi => h.scanned i ((hiff i).mpr hi),
    fun i hi => h.kept i fun hp => hi ((hiff i).mp hp)⟩

/-- What follows leaves the tables. -/
theorem Nps.Scans.of_same (h : s.Scans iterationNum P s') (hmaps : s'.Maps s'' s'.conns)
    (hsame : s'.SameTables s'') : s.Scans iterationNum P s'' :=
  ⟨hmaps.agree, h.servers.trans hmaps.servers,
    fun i hi => (congrFun hsame.info i).trans (h.scanned i hi),
    fun i hi => (congrFun hsame.info i).trans (h.kept i hi)⟩

/-- The scan leaves the key of an entry. -/
theorem afterScan_key {c c' : ConnInfoResult} (h : c.afterScan iterationNum = some c') :
    c'.connClassKey = c.connClassKey := by
  unfold ConnInfoResult.afterScan at h
  split at h
  · cases h
  · split at h <;> cases h <;> rfl

/-- What scans make of the connection with index `i`. -/
theorem Nps.Scans.conns_of_class (h : s.Scans iterationNum P s') (hagree : TablesAgree s)
    {key : ConnClassificationKey} (hclass : s.connClassification key = some i) :
    (P i → s'.conns key = (s.conns key).bind (·.afterScan iterationNum)) ∧
      (¬ P i → s'.conns key = s.conns key) := by
  obtain ⟨c, hinfo, rfl, hconns⟩ := hagree.info_of_class hclass
  have hinfo' : ∀ c', s'.connInfo i = some c' → c'.connClassKey = c.connClassKey →
      s'.conns c.connClassKey = some c' := fun c' hc' hkey => by
    rw [← hkey]
    exact h.agree.conns_of_info hc'
  refine ⟨fun hi => ?_, fun hi => ?_⟩
  · have hscanned := h.scanned i hi
    rw [hinfo, Option.bind_some] at hscanned
    rw [hconns, Option.bind_some]
    cases hafter : c.afterScan iterationNum with
    | some c' => exact hinfo' c' (hscanned.trans hafter) (afterScan_key hafter)
    | none =>
      rw [h.agree.conns_none]
      cases hclass' : s'.connClassification c.connClassKey with
      | none => rfl
      | some j =>
        -- an entry of the connection would come from one of `s` with the same key
        obtain ⟨c', hc', hkey, -⟩ := h.agree.info_of_class hclass'
        have hj : s.connClassification c.connClassKey = some j := by
          rw [hagree.class_iff]
          by_cases hp : P j
          · rw [h.scanned j hp] at hc'
            obtain ⟨c₀, hc₀, hafter'⟩ := Option.bind_eq_some_iff.mp hc'
            exact ⟨c₀, hc₀, (afterScan_key hafter').symm.trans hkey⟩
          · rw [h.kept j hp] at hc'
            exact ⟨c', hc', hkey⟩
        obtain rfl := Option.some.inj (hj.symm.trans hclass)
        rw [hscanned, hafter] at hc'
        cases hc'
  · rw [hconns]
    exact hinfo' c ((h.kept i hi).trans hinfo) rfl

/-- No connection is new after a scan. -/
theorem Nps.Scans.conns_none (h : s.Scans iterationNum P s') (hagree : TablesAgree s)
    {key : ConnClassificationKey} (hnone : s.conns key = none) : s'.conns key = none := by
  rw [h.agree.conns_none]
  cases hclass : s'.connClassification key with
  | none => rfl
  | some j =>
    obtain ⟨c', hc', rfl, -⟩ := h.agree.info_of_class hclass
    have hold : ∃ c, s.connInfo j = some c ∧ c.connClassKey = c'.connClassKey := by
      by_cases hp : P j
      · rw [h.scanned j hp] at hc'
        obtain ⟨c, hc, hafter⟩ := Option.bind_eq_some_iff.mp hc'
        exact ⟨c, hc, (afterScan_key hafter).symm⟩
      · rw [h.kept j hp] at hc'
        exact ⟨c', hc', rfl⟩
    obtain ⟨c, hc, hkey⟩ := hold
    have hconns := hagree.conns_of_info hc
    rw [hkey, hnone] at hconns
    cases hconns

end Scans

/-! ## The scan of an entry -/

section Entry

variable {iterationNum : UInt8} {s : Nps} {m : Cmem}

/-- The tables agree after the scan of an entry. -/
theorem agree_agingDelete (h : TablesAgree s) {i : UInt32} {c : ConnInfoResult}
    (hres : m.connInfoResult = c) (hinfo : s.connInfo i = some c) :
    (alvsAgingDelete iterationNum i).wp noFailureSpec
      (fun _ _ s' => TablesAgree s' ∧ s.SameServerTables s') m s := by
  subst hres
  unfold alvsAgingDelete alvsConnDelete
  refine (wp_bind _ _ _).mpr ((wp_modify _ _).mpr ?_)
  refine wp_bind_of env_lock ?_
  rintro hash _ _ ⟨rfl, rfl⟩
  refine wp_bind_of (maps_deleteWithoutLock h (.aging iterationNum) (by rfl) hinfo) ?_
  rintro _ _ s₁ ⟨-, hmaps⟩
  refine wp_mono (env_unlock hash) ?_
  rintro _ _ _ rfl
  exact ⟨hmaps.agree, hmaps.servers⟩

theorem agree_agingScanEntry (h : TablesAgree s) (ip : UInt32) (id : UInt8) (i : UInt32) :
    (alvsAgingScanEntry iterationNum ip id i).wp noFailureSpec
      (fun _ _ s' => TablesAgree s' ∧ s.SameServerTables s') m s := by
  unfold alvsAgingScanEntry
  refine wp_bind_of (env_connInfoLookup .scan i) ?_
  rintro found m₁ s₁ ⟨rfl, -, ⟨rfl, hnone⟩ | ⟨c, rfl, hinfo, hres⟩⟩
  · exact ⟨h, .refl _⟩
  · refine (wp_bind _ _ _).mpr ((wp_get _).mpr ?_)
    rw [hres]
    refine (wp_ite _ _ _ _).mpr ⟨fun _ => agree_agingDelete h hres hinfo,
      fun _ => (wp_ite _ _ _ _).mpr ⟨fun _ => ?_, fun _ => (wp_ite _ _ _ _).mpr
        ⟨fun _ => agree_agingDelete h hres hinfo, fun _ => ⟨h, .refl _⟩⟩⟩⟩
    refine (wp_bind _ _ _).mpr ((wp_modify _ _).mpr ?_)
    refine wp_bind_of (env_connAgeOut iterationNum hinfo) ?_
    rintro ok m₂ _ rfl
    have haged := @maps_setConn s₁ h i c (c.aged iterationNum) hinfo rfl s₁.posted
    have hdone : TablesAgree { s₁ with
        connInfo := Function.update s₁.connInfo i (some (c.aged iterationNum)) } := haged.agree
    refine (wp_ite _ _ _ _).mpr ⟨fun _ => ?_, fun _ => ⟨hdone, rfl, rfl⟩⟩
    refine (wp_bind _ _ _).mpr ((wp_get _).mpr ?_)
    refine (wp_ite _ _ _ _).mpr ⟨fun _ => ?_, fun _ => ⟨hdone, rfl, rfl⟩⟩
    refine wp_mono (OffConn.wp_maps (offConn_stateSyncAggr ip id) hdone) ?_
    rintro _ _ s' ⟨-, hmaps⟩
    exact ⟨hmaps.agree, hmaps.servers.classification, hmaps.servers.info⟩

/-- An entry is scanned. -/
theorem scans_agingScanEntry (h : TablesAgree s) (ip : UInt32) (id : UInt8) (i : UInt32) :
    (alvsAgingScanEntry iterationNum ip id i).wp noFailureSpec
      (fun _ _ s' => s.Scans iterationNum (· = i) s') m s := by
  refine Prog.wp_mono (Prog.wp_and (agree_agingScanEntry h ip id i)
    (env_agingScanEntry iterationNum ip id i)) ?_
  rintro _ s' ⟨⟨hagree, hservers⟩, hscan⟩
  -- the entry becomes `e`, and the others stay
  have hscans : ∀ e, s'.connInfo = Function.update s.connInfo i e →
      e = (s.connInfo i).bind (·.afterScan iterationNum) → s.Scans iterationNum (· = i) s' := by
    rintro e hinfo rfl
    refine ⟨hagree, hservers, fun j hj => ?_, fun j hj => ?_⟩
    · rw [hinfo, hj, Function.update_self]
    · rw [hinfo, Function.update_of_ne hj]
  cases hscan with
  | missing hnone hsame =>
    refine hscans none ?_ (by rw [hnone]; rfl)
    rw [hsame.info, ← hnone, Function.update_eq_self]
  | @unknown c hinfo hunknown =>
    rw [(h.class_iff _ i).mpr ⟨c, hinfo, rfl⟩] at hunknown
    cases hunknown
  | @kept c hinfo haging hkept hsame =>
    refine hscans (some c) ?_ ?_
    · rw [hsame.info, ← hinfo, Function.update_eq_self]
    · rw [hinfo, Option.bind_some, ConnInfoResult.afterScan, if_neg hkept,
        if_neg (by simp [haging])]
  | @aged c hinfo hdelete haging hsame =>
    refine hscans _ hsame.info ?_
    have hkept : ¬ c.Expired iterationNum := by
      rintro (hdel | ⟨hclear, -⟩)
      · rw [hdelete] at hdel
        cases hdel
      · rw [haging] at hclear
        cases hclear
    rw [hinfo, Option.bind_some, ConnInfoResult.afterScan, if_neg hkept, if_pos haging]
  | @deleted c hinfo hexpired _ hsame =>
    refine hscans none hsame.info ?_
    rw [hinfo, Option.bind_some, ConnInfoResult.afterScan, if_pos hexpired]

/-- The scan of a range. -/
theorem scans_agingScan (ip : UInt32) (id : UInt8) : ∀ (n : Nat) (i : UInt32) {s : Nps} {m : Cmem},
    TablesAgree s → i.toNat + n < 2 ^ 32 → (alvsAgingScan iterationNum ip id n i).wp noFailureSpec
      (fun _ _ s' => s.Scans iterationNum (fun j => i.toNat ≤ j.toNat ∧ j.toNat < i.toNat + n) s')
        m s
  | 0, i, s, m, h, _ => (Nps.Scans.refl h).congr fun j => ⟨False.elim, fun hj =>
      absurd hj (by omega)⟩
  | n + 1, i, s, m, h, hlt => by
    have hsucc := toNat_succ (i := i) (by omega)
    unfold alvsAgingScan
    refine wp_bind_of (scans_agingScanEntry h ip id i) ?_
    intro _ m₁ s₁ hfirst
    refine wp_mono (scans_agingScan ip id n (i + 1) hfirst.agree (by omega)) ?_
    intro _ _ s' hrest
    refine (hfirst.trans hrest ?_).congr fun j => ?_
    · rintro j rfl
      omega
    · rw [← UInt32.toNat_inj]
      omega

end Entry

/-! ## Events -/

/-- The first entry of an event, and its iteration. -/
theorem event_range {event : Nat} (hevent : event < 60 * alvsAgingTimerEventsPerIteration) :
    (event.toUInt32 / alvsAgingTimerEventsPerIteration.toUInt32).toUInt8 =
        (eventIteration event).toUInt8 ∧
      (event.toUInt32 % alvsAgingTimerEventsPerIteration.toUInt32 *
        alvsAgingTimerScanEntriesPerJob.toUInt32).toNat =
          event % alvsAgingTimerEventsPerIteration * 128 := by
  rw [eventsPerIteration_eq] at hevent
  have hnat : event.toUInt32.toNat = event := by
    simp only [Nat.toUInt32_eq, UInt32.toNat_ofNat']
    omega
  have hevents : alvsAgingTimerEventsPerIteration.toUInt32.toNat = 524288 := by decide
  constructor
  · apply UInt8.toNat_inj.mp
    rw [UInt32.toNat_toUInt8, UInt32.toNat_div, hnat, hevents, eventIteration,
      eventsPerIteration_eq]
    simp
  · rw [UInt32.toNat_mul, UInt32.toNat_mod, hnat, hevents, eventsPerIteration_eq,
      show alvsAgingTimerScanEntriesPerJob.toUInt32.toNat = 128 by decide]
    omega

/-- An event of the timer scans the entries in its range. -/
theorem scans_handleAgingEvent {event : Nat} {s : Nps} {m : Cmem}
    (hevent : event < 60 * alvsAgingTimerEventsPerIteration) (h : TablesAgree s) :
    (alvsHandleAgingEvent event.toUInt32).wp noFailureSpec (fun _ _ s' =>
      s.Scans (eventIteration event).toUInt8 (Visits event) s') m s := by
  obtain ⟨hiter, hstart⟩ := event_range hevent
  have hmod : event % alvsAgingTimerEventsPerIteration < 524288 :=
    Nat.mod_lt _ (by rw [eventsPerIteration_eq]; decide)
  have hjob : alvsAgingTimerScanEntriesPerJob = 128 := rfl
  unfold alvsHandleAgingEvent
  simp only [alvsDiscardFrame, wp_bind, wp_call_env, dpHandle, wp_modify, hiter]
  intro _ _ e _
  refine wp_mono (scans_agingScan _ _ _ _ h (by rw [hstart, hjob]; omega)) ?_
  intro _ m₁ s₁ hscans
  have hoff : OffConn (if 0 < m₁.connSyncState.amountBuffers then alvsStateSyncSendAggr
      else pure ()) := .ite quiet_alvsStateSyncSendAggr.offConn (.of_pure _)
  refine (wp_get _).mpr
    (Prog.wp_mono (Prog.wp_and (hoff.wp_maps hscans.agree) hoff.wp_sameTables) ?_)
  rintro _ s₂ ⟨⟨-, hmaps⟩, -, hsame⟩
  refine (hscans.of_same hmaps hsame).congr fun i => ?_
  rw [Visits, hstart, hjob]
  omega

/-! ## An iteration -/

/-- An event that a thread processes, with its memory and the environments of its calls. -/
structure AgingRun where
  event : Nat
  mem : Cmem
  env : Nat → DpEnv

/-- The chip after the event. -/
def AgingRun.exec (x : AgingRun) (s : Nps) : Nps :=
  (((alvsHandleAgingEvent x.event.toUInt32).run x.mem).execEnv dpHandle x.env s).2

/-- No call fails in the events, one after the other. -/
def EventsOk : List AgingRun → Nps → Prop
  | [], _ => True
  | x :: xs, s =>
    ((alvsHandleAgingEvent x.event.toUInt32).run x.mem).CallsOk noFailure dpHandle x.env s ∧
      EventsOk xs (x.exec s)

instance decidableEventsOk : (xs : List AgingRun) → (s : Nps) → Decidable (EventsOk xs s)
  | [], _ => .isTrue trivial
  | x :: xs, s => by
    have := decidableEventsOk xs (x.exec s)
    exact inferInstanceAs (Decidable (_ ∧ _))

/-- One of the events visits the entry. -/
def VisitedBy (xs : List AgingRun) (i : UInt32) : Prop := ∃ x ∈ xs, Visits x.event i

instance (xs : List AgingRun) (i : UInt32) : Decidable (VisitedBy xs i) :=
  inferInstanceAs (Decidable (∃ x ∈ xs, _))

section Iteration

variable {q : Nat} {s : Nps} {xs : List AgingRun}

/-- Two events of an iteration visit different entries. -/
theorem visits_disjoint {x y : AgingRun} (hx : eventIteration x.event = q)
    (hy : eventIteration y.event = q) (hne : x.event ≠ y.event) {i : UInt32}
    (hi : Visits x.event i) : ¬ Visits y.event i := by
  intro hi'
  unfold Visits at hi hi'
  unfold eventIteration at hx hy
  rw [eventsPerIteration_eq] at hi hi' hx hy
  omega

/-- Events of one iteration scan the entries that they visit. -/
theorem scans_events (hq : q < 60) : ∀ (xs : List AgingRun) {s : Nps}, TablesAgree s →
    (∀ x ∈ xs, eventIteration x.event = q) → (xs.map (·.event)).Nodup → EventsOk xs s →
    s.Scans q.toUInt8 (VisitedBy xs) (xs.foldl (fun s x => x.exec s) s)
  | [], s, h, _, _, _ => by
    refine (Nps.Scans.refl h).congr fun i => ⟨False.elim, ?_⟩
    rintro ⟨x, hx, -⟩
    exact absurd hx List.not_mem_nil
  | x :: xs, s, h, hiter, hdistinct, hok => by
    obtain ⟨hx, hxs⟩ := List.forall_mem_cons.mp hiter
    rw [List.map_cons, List.nodup_cons] at hdistinct
    have hlt : x.event < 60 * alvsAgingTimerEventsPerIteration := by
      rw [eventIteration] at hx
      rw [eventsPerIteration_eq] at hx ⊢
      omega
    have hfirst : s.Scans q.toUInt8 (Visits x.event) (x.exec s) :=
      hx ▸ Prog.execEnv_of_wp _ (scans_handleAgingEvent hlt h) hok.1
    have hrest := scans_events hq xs hfirst.agree hxs hdistinct.2 hok.2
    refine (hfirst.trans hrest ?_).congr fun i => ?_
    · rintro i hi ⟨y, hy, hi'⟩
      refine visits_disjoint hx (hxs y hy) (fun heq => ?_) hi hi'
      exact hdistinct.1 (heq ▸ List.mem_map_of_mem hy)
    · simp [VisitedBy]

/-- Aging is a map over the connections. Events of one iteration, in any order and no event twice,
scan the connections that they visit, each once, and leave all others; no connection is new. All
the events of an iteration scan every connection : one that is marked to be deleted, or whose
timeout has passed, is gone, and the others have their aging bits cleared. -/
theorem agingIteration_run (hq : q < 60) (xs : List AgingRun)
    (hiter : ∀ x ∈ xs, eventIteration x.event = q) (hdistinct : (xs.map (·.event)).Nodup)
    (h : TablesAgree s) (hok : EventsOk xs s) :
    let s' := xs.foldl (fun s x => x.exec s) s
    TablesAgree s' ∧ s.SameServerTables s' ∧
      (∀ key, s.conns key = none → s'.conns key = none) ∧
      (∀ key i, s.connClassification key = some i → s'.conns key =
        if VisitedBy xs i then (s.conns key).bind (·.afterScan q.toUInt8) else s.conns key) ∧
      ((∀ key, ∀ i ∈ s.connClassification key, i.toNat < alvsConnMaxEntries) →
        (∀ n < alvsAgingTimerEventsPerIteration,
          q * alvsAgingTimerEventsPerIteration + n ∈ xs.map (·.event)) →
        s'.conns = fun key => (s.conns key).bind (·.afterScan q.toUInt8)) := by
  intro s'
  have hscans : s.Scans q.toUInt8 (VisitedBy xs) s' := scans_events hq xs h hiter hdistinct hok
  refine ⟨hscans.agree, hscans.servers, fun key => hscans.conns_none h, fun key i hclass => ?_,
    fun hpool hall => ?_⟩
  · obtain ⟨hvisited, hkept⟩ := hscans.conns_of_class h hclass
    split
    next hi => exact hvisited hi
    next hi => exact hkept hi
  · funext key
    cases hclass : s.connClassification key with
    | none =>
      have hnone := h.conns_none.mpr hclass
      rw [hnone, hscans.conns_none h hnone, Option.bind_none]
    | some i =>
      have hlt := hpool key i hclass
      refine (hscans.conns_of_class h hclass).1 ?_
      have hmax : alvsConnMaxEntries = 67108864 := by decide
      have hjob : alvsAgingTimerScanEntriesPerJob = 128 := rfl
      have hn : i.toNat / alvsAgingTimerScanEntriesPerJob < alvsAgingTimerEventsPerIteration := by
        rw [eventsPerIteration_eq, hjob]
        omega
      obtain ⟨x, hx, hevent⟩ := List.mem_map.mp (hall _ hn)
      refine ⟨x, hx, ?_⟩
      rw [Visits, hevent, Nat.add_comm, Nat.add_mul_mod_self_right, Nat.mod_eq_of_lt hn]

/-- Two events of iteration 3, the later one first, on a chip with one connection that is marked
to be deleted. -/
def exampleAgingRuns : List AgingRun :=
  [⟨3 * 524288 + 1, .zero, fun _ => exampleEnv⟩, ⟨3 * 524288, .zero, fun _ => exampleEnv⟩]

def exampleAgingNps : Nps :=
  { Sys.init.nps with
    connInfo := Function.update Sys.init.nps.connInfo 0
      (some { exampleAgingEntry with deleteBit := true })
    connClassification :=
      Function.update Sys.init.nps.connClassification exampleAgingEntry.connClassKey (some 0)
    connIndexAllocated := Function.update Sys.init.nps.connIndexAllocated 0 true }

theorem agingIteration_run_example :
    (exampleAgingRuns.foldl (fun s x => x.exec s) exampleAgingNps).conns
      exampleAgingEntry.connClassKey = none := by
  have hwf := (tablesAgree_iff.mp tablesAgree_init).insert
    (k := exampleAgingEntry.connClassKey) (i := 0)
    (a := { exampleAgingEntry with deleteBit := true }) rfl rfl rfl
  have hagree : TablesAgree exampleAgingNps := tablesAgree_iff.mpr hwf
  obtain ⟨-, -, -, hentry, -⟩ := agingIteration_run (q := 3) (by decide) exampleAgingRuns
    (by decide) (by decide) hagree (by decide +kernel)
  rw [hentry exampleAgingEntry.connClassKey 0 (by decide +kernel)]
  decide +kernel

end Iteration

end Alvs
