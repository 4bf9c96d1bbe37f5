import Alvs.Dp.SyncTwice
import Alvs.Dp.WeightedRounds

/-!
# The aging timeout

The aging timer goes through all entries once in an iteration, 60 iterations and again from 0.
A scan clears the aging bit that a packet has set and stores the iteration, reduced by the
timeout of the state; a later scan deletes the entry where its own iteration is the same when
it is reduced. `Age.scan` counts the iterations instead.

`agingTimeout_run` : the entry is there as long as the count says so, for every sequence of
its packets and of events of the timer.
-/

namespace Alvs

open ProgLogic LProg

/-! ## Ages -/

/-- The state of a connection, and the number of iterations since the scan that cleared its
aging bit, if no packet has come since. -/
structure Age where
  state : UInt8
  idle : Option Nat
  deriving DecidableEq

namespace Age

/-- The timeout of the state. -/
def timeout (a : Age) : Nat := (alvsUtilGetConnIterations a.state).toNat

/-- A packet that is not a reset. -/
def packet (a : Age) (fin : Bool) : Age :=
  ⟨if a.state = ipVsTcpSEstablished ∧ fin = true then ipVsTcpSCloseWait else a.state, none⟩

/-- The scan of an iteration deletes the entry exactly when the timeout has passed. -/
def scan (a : Age) : Option Age :=
  match a.idle with
  | none => some { a with idle := some 0 }
  | some k => if k + 1 = a.timeout then none else some { a with idle := some (k + 1) }

end Age

/-! ## What the steps keep -/

/-- What a call keeps that does not touch the tables of connections. -/
structure Nps.SameTables (s s' : Nps) : Prop where
  info : s'.connInfo = s.connInfo
  classification : s'.connClassification = s.connClassification
  serverInfo : s'.serverInfo = s.serverInfo
  serverClass : s'.serverClassification = s.serverClassification

theorem Nps.SameTables.refl (s : Nps) : s.SameTables s := ⟨rfl, rfl, rfl, rfl⟩

theorem Nps.SameTables.trans {s s' s'' : Nps} (h : s.SameTables s') (h' : s'.SameTables s'') :
    s.SameTables s'' :=
  ⟨h'.info.trans h.info, h'.classification.trans h.classification,
    h'.serverInfo.trans h.serverInfo, h'.serverClass.trans h.serverClass⟩

/-- No other entry has the key. -/
def Nps.OnlyKey (s : Nps) (key : ConnClassificationKey) (idx : UInt32) : Prop :=
  ∀ i c, i ≠ idx → s.connInfo i = some c → c.connClassKey ≠ key

/-- What a step keeps that does not touch the entry `idx`. -/
structure Nps.KeepsEntry (key : ConnClassificationKey) (idx : UInt32) (s s' : Nps) : Prop where
  entry : s'.connInfo idx = s.connInfo idx
  known : s'.connClassification key = s.connClassification key
  serverInfo : s'.serverInfo = s.serverInfo
  serverClass : s'.serverClassification = s.serverClassification
  onlyKey : s.OnlyKey key idx → s'.OnlyKey key idx

section Keeps

variable {key : ConnClassificationKey} {idx : UInt32} {s s' s'' : Nps} {m : Cmem} {α : Type}

theorem Nps.KeepsEntry.trans (h : s.KeepsEntry key idx s') (h' : s'.KeepsEntry key idx s'') :
    s.KeepsEntry key idx s'' :=
  ⟨h'.entry.trans h.entry, h'.known.trans h.known, h'.serverInfo.trans h.serverInfo,
    h'.serverClass.trans h.serverClass, fun ho => h'.onlyKey (h.onlyKey ho)⟩

theorem Nps.SameTables.keepsEntry (h : s.SameTables s') : s.KeepsEntry key idx s' where
  entry := by rw [h.info]
  known := by rw [h.classification]
  serverInfo := h.serverInfo
  serverClass := h.serverClass
  onlyKey ho i c hi hc := ho i c hi (h.info ▸ hc)

/-- Programs that leave the tables of connections. -/
theorem OffConn.wp_sameTables {x : Dp α} (hx : OffConn x) :
    x.wp noFailureSpec (fun _ m' s' => m.SameConn m' ∧ s.SameTables s') m s := by
  refine Makes.wp_keeps ?_ hx m (.refl s)
  intro g op hg hop
  refine ⟨trivial, ?_⟩
  rintro r g' ⟨e, -, heq⟩
  obtain ⟨rfl, rfl⟩ := Prod.mk.inj heq
  refine hg.trans ?_
  cases op <;> first | exact hop.elim | exact ⟨rfl, rfl, rfl, rfl⟩

/-- The deletion of an entry whose classification is found. -/
theorem env_connDelete_found (site : UInt8) {i : UInt32} {c : ConnInfoResult}
    (hres : m.connInfoResult = c) (hinfo : s.connInfo i = some c)  :
    (alvsConnDelete site i).wp noFailureSpec (fun _ _ s' =>
      s.connClassification c.connClassKey = none ∧ s' = s ∨
      s.connClassification c.connClassKey ≠ none ∧
      s'.connClassification = Function.update s.connClassification c.connClassKey none ∧
      s'.connInfo = Function.update s.connInfo i none ∧
      s'.serverClassification = s.serverClassification ∧ s'.serverInfo = s.serverInfo) m s := by
  unfold alvsConnDelete
  refine wp_bind_of env_lock ?_
  rintro hash _ _ ⟨rfl, rfl⟩
  refine wp_bind_of (env_connDelete (.aging site) hres hinfo) ?_
  rintro _ m' s' ⟨-, hdel⟩
  refine wp_mono (env_unlock hash) ?_
  rintro _ _ _ rfl
  obtain hdel | ⟨hne, hclass, hinfo', hserver, hsinfo, -⟩ := hdel
  · exact .inl hdel
  · exact .inr ⟨hne, hclass, hinfo', hserver, hsinfo⟩

/-- The entry with its aging bit cleared in an iteration. -/
def ConnInfoResult.aged (c : ConnInfoResult) (iterationNum : UInt8) : ConnInfoResult :=
  { c with agingBit := false, ageIteration := connAgeIteration iterationNum c.connState }

theorem env_connAgeOut (iterationNum : UInt8) {i : UInt32} {c : ConnInfoResult}
    (hinfo : s.connInfo i = some c) :
    (alvsConnAgeOut i iterationNum).wp noFailureSpec (fun _ _ s' =>
      s' = { s with connInfo := Function.update s.connInfo i (some (c.aged iterationNum)) }) m
        s := by
  unfold alvsConnAgeOut
  refine wp_bind_of env_lock ?_
  rintro hash _ _ ⟨rfl, rfl⟩
  refine wp_bind_of (env_connInfoLookup .ageOut i) ?_
  rintro found m₁ s₁ ⟨rfl, -, ⟨-, hnone⟩ | ⟨c', rfl, hc', hres⟩⟩
  · rw [hinfo] at hnone
    cases hnone
  · obtain rfl := Option.some.inj (hinfo.symm.trans hc')
    simp only [wp_bind, wp_get, alvsConnInfoModify, wp_modify, wp_call_env, dpHandle, hinfo,
      if_true, reduceCtorEq, if_false]
    intro _ _
    refine wp_mono (env_unlock hash) ?_
    rintro _ _ _ rfl
    rw [hres]
    rfl

/-- What the scan of entry `i` in an iteration does to the tables of connections. -/
inductive EntryScanned (iterationNum : UInt8) (i : UInt32) (s s' : Nps) : Prop
  | missing (hnone : s.connInfo i = none) (hsame : s.SameTables s')
  | aged {c : ConnInfoResult} (hinfo : s.connInfo i = some c) (hdelete : c.deleteBit = false)
      (haging : c.agingBit = true)
      (hsame : Nps.SameTables { s with
        connInfo := Function.update s.connInfo i (some (c.aged iterationNum)) } s')
  | deleted {c : ConnInfoResult} (hinfo : s.connInfo i = some c) (hexpired : c.Expired iterationNum)
      (hknown : s.connClassification c.connClassKey ≠ none)
      (hsame : Nps.SameTables { s with
        connInfo := Function.update s.connInfo i none
        connClassification := Function.update s.connClassification c.connClassKey none } s')
  | unknown {c : ConnInfoResult} (hinfo : s.connInfo i = some c)
      (hunknown : s.connClassification c.connClassKey = none) (hsame : s.SameTables s')
  | kept {c : ConnInfoResult} (hinfo : s.connInfo i = some c) (haging : c.agingBit = false)
      (hkept : ¬ c.Expired iterationNum) (hsame : s.SameTables s')

theorem env_agingDelete (iterationNum : UInt8) {i : UInt32} {c : ConnInfoResult}
    (hres : m.connInfoResult = c) (hinfo : s.connInfo i = some c)
    (hexpired : c.Expired iterationNum) :
    (alvsAgingDelete iterationNum i).wp noFailureSpec
      (fun _ _ s' => EntryScanned iterationNum i s s') m s := by
  subst hres
  unfold alvsAgingDelete
  refine (wp_bind _ _ _).mpr ((wp_modify _ _).mpr ?_)
  refine wp_mono (env_connDelete_found iterationNum (by rfl) hinfo) ?_
  rintro _ _ s' (⟨hnone, rfl⟩ | ⟨hne, hclass, hinfo', hserver, hsinfo⟩)
  · exact .unknown hinfo hnone (.refl _)
  · exact .deleted hinfo hexpired hne ⟨hinfo', hclass, hsinfo, hserver⟩

theorem env_agingScanEntry (iterationNum : UInt8) (ip : UInt32) (id : UInt8) (i : UInt32) :
    (alvsAgingScanEntry iterationNum ip id i).wp noFailureSpec
      (fun _ _ s' => EntryScanned iterationNum i s s') m s := by
  unfold alvsAgingScanEntry
  refine wp_bind_of (env_connInfoLookup .scan i) ?_
  rintro found m₁ s₁ ⟨rfl, -, ⟨rfl, hnone⟩ | ⟨c, rfl, hinfo, hres⟩⟩
  · exact .missing hnone (.refl _)
  · refine (wp_bind _ _ _).mpr ((wp_get _).mpr ?_)
    rw [hres]
    refine (wp_ite _ _ _ _).mpr ⟨fun hdel => env_agingDelete _ hres hinfo (.inl hdel),
      fun hdel => (wp_ite _ _ _ _).mpr ⟨fun hage => ?_, fun hage =>
      (wp_ite _ _ _ _).mpr ⟨fun hit => ?_, fun hit => ?_⟩⟩⟩
    · refine (wp_bind _ _ _).mpr ((wp_modify _ _).mpr ?_)
      refine wp_bind_of (env_connAgeOut iterationNum hinfo) ?_
      rintro ok m₂ _ rfl
      have haged := @EntryScanned.aged iterationNum i s₁ _ _ hinfo (Bool.not_eq_true _ ▸ hdel) hage
        (.refl _)
      refine (wp_ite _ _ _ _).mpr ⟨fun _ => ?_, fun _ => haged⟩
      refine (wp_bind _ _ _).mpr ((wp_get _).mpr ?_)
      refine (wp_ite _ _ _ _).mpr ⟨fun _ => ?_, fun _ => haged⟩
      refine wp_mono (OffConn.wp_sameTables (offConn_stateSyncAggr ip id)) ?_
      rintro _ _ s' ⟨-, hsame⟩
      exact .aged hinfo (by simpa using hdel) hage hsame
    · exact env_agingDelete _ hres hinfo (.inr ⟨by simpa using hage, hit⟩)
    · refine .kept hinfo (by simpa using hage) ?_ (.refl _)
      rintro (h | ⟨-, h⟩)
      exacts [hdel h, hit h]

end Keeps

/-! ## The entry of one connection -/

/-- The server of the entry is available; where the entry is not bound, the server that a
packet would bind it to, if there is one. -/
structure Nps.ServerAvailable (s : Nps) (c : ConnInfoResult) : Prop where
  bound : c.bound = true → ∃ info, s.serverInfo c.serverIndex = some info ∧ info.available
  unbound : c.bound = false → ∀ j, s.serverClassification ⟨c.serverAddr, c.connClassKey.virtualIp,
    c.serverPort, c.connClassKey.virtualPort, c.connClassKey.protocol⟩ = some j →
    ∃ info, s.serverInfo j = some info ∧ info.available

/-- The entry is that of connection `key`, which is found by its key, is not marked to be
deleted and has an available server. -/
structure Nps.Sound (s : Nps) (key : ConnClassificationKey) (c : ConnInfoResult) : Prop where
  ofKey : c.connClassKey = key
  known : s.connClassification key ≠ none
  deleteBit : c.deleteBit = false
  resetBit : c.resetBit = false
  server : s.ServerAvailable c

/-- The entry `idx` is the only one of connection `key`, and sound while it is there. -/
structure Nps.Tracks (s : Nps) (key : ConnClassificationKey) (idx : UInt32) : Prop where
  onlyKey : s.OnlyKey key idx
  sound : ∀ c, s.connInfo idx = some c → s.Sound key c

/-- What a scan leaves of an entry that is not marked to be deleted. -/
def ConnInfoResult.scanned (c : ConnInfoResult) (iterationNum : UInt8) : Option ConnInfoResult :=
  if c.agingBit then some (c.aged iterationNum)
  else if c.ageIteration = connAgeIteration iterationNum c.connState then none
  else some c

/-- The chip after the scan of entry `idx` among others. -/
structure ConnScanned (key : ConnClassificationKey) (idx : UInt32) (iterationNum : UInt8)
    (s s' : Nps) : Prop where
  entry : s'.connInfo idx = (s.connInfo idx).bind (·.scanned iterationNum)
  known : s'.connInfo idx ≠ none → s'.connClassification key = s.connClassification key
  serverInfo : s'.serverInfo = s.serverInfo
  serverClass : s'.serverClassification = s.serverClassification
  onlyKey : s'.OnlyKey key idx

section Entry

variable {key : ConnClassificationKey} {idx i : UInt32} {s s' s'' : Nps} {m : Cmem}
  {iterationNum : UInt8}

theorem Nps.ServerAvailable.congr {c : ConnInfoResult} (h : s.ServerAvailable c)
    (hinfo : s'.serverInfo = s.serverInfo)
    (hclass : s'.serverClassification = s.serverClassification) : s'.ServerAvailable c :=
  ⟨hinfo ▸ h.bound, by rw [hinfo, hclass]; exact h.unbound⟩

theorem Nps.KeepsEntry.tracks (h : s.KeepsEntry key idx s') (ht : s.Tracks key idx) :
    s'.Tracks key idx := by
  refine ⟨h.onlyKey ht.onlyKey, fun c hc => ?_⟩
  rw [h.entry] at hc
  have hs := ht.sound c hc
  exact ⟨hs.ofKey, h.known ▸ hs.known, hs.deleteBit, hs.resetBit,
    hs.server.congr h.serverInfo h.serverClass⟩

theorem Nps.KeepsEntry.scanned (h : s.KeepsEntry key idx s')
    (hscan : ConnScanned key idx iterationNum s' s'') : ConnScanned key idx iterationNum s s'' where
  entry := by rw [hscan.entry, h.entry]
  known hne := (hscan.known hne).trans h.known
  serverInfo := hscan.serverInfo.trans h.serverInfo
  serverClass := hscan.serverClass.trans h.serverClass
  onlyKey := hscan.onlyKey

theorem ConnScanned.keepsEntry (hscan : ConnScanned key idx iterationNum s s')
    (h : s'.KeepsEntry key idx s'') : ConnScanned key idx iterationNum s s'' where
  entry := by rw [h.entry, hscan.entry]
  known hne := h.known.trans (hscan.known (h.entry ▸ hne))
  serverInfo := h.serverInfo.trans hscan.serverInfo
  serverClass := h.serverClass.trans hscan.serverClass
  onlyKey := h.onlyKey hscan.onlyKey

theorem Nps.OnlyKey.update (h : s.OnlyKey key idx) {c : Option ConnInfoResult}
    (hc : ∀ c' ∈ c, i ≠ idx → c'.connClassKey ≠ key)
    (hs' : s'.connInfo = Function.update s.connInfo i c) :
    s'.OnlyKey key idx := by
  intro j c' hj hc'
  rw [hs'] at hc'
  by_cases hji : j = i
  · subst hji
    rw [Function.update_self] at hc'
    exact hc c' hc' hj
  · rw [Function.update_of_ne hji] at hc'
    exact h j c' hj hc'

/-- The scan of another entry. -/
theorem EntryScanned.keepsEntry (h : EntryScanned iterationNum i s s') (hi : i ≠ idx)
    (ho : s.OnlyKey key idx) : s.KeepsEntry key idx s' := by
  cases h with
  | missing _ hsame => exact hsame.keepsEntry
  | unknown _ _ hsame => exact hsame.keepsEntry
  | kept _ _ _ hsame => exact hsame.keepsEntry
  | @aged c hinfo _ _ hsame =>
    refine ⟨?_, hsame.classification ▸ rfl, hsame.serverInfo, hsame.serverClass, fun h => ?_⟩
    · rw [hsame.info]
      exact Function.update_of_ne hi.symm _ _
    · refine h.update (c := some (c.aged iterationNum)) ?_ hsame.info
      rintro _ ⟨⟩ hne
      exact ho i c hne hinfo
  | @deleted c hinfo _ _ hsame =>
    refine ⟨?_, ?_, hsame.serverInfo, hsame.serverClass, fun h => ?_⟩
    · rw [hsame.info]
      exact Function.update_of_ne hi.symm _ _
    · rw [hsame.classification]
      exact Function.update_of_ne (ho i c hi hinfo).symm _ _
    · exact h.update (c := none) nofun hsame.info

/-- The scan of the entry. -/
theorem EntryScanned.connScanned (h : EntryScanned iterationNum idx s s') (ht : s.Tracks key idx) :
    ConnScanned key idx iterationNum s s' := by
  cases h with
  | missing hnone hsame =>
    refine ⟨?_, fun _ => by rw [hsame.classification], hsame.serverInfo, hsame.serverClass,
      (hsame.keepsEntry).onlyKey ht.onlyKey⟩
    rw [hsame.info, hnone]
    rfl
  | @unknown c hinfo hunknown _ =>
    have hs := ht.sound c hinfo
    exact absurd (hs.ofKey ▸ hunknown) hs.known
  | @kept c hinfo haging hkept hsame =>
    refine ⟨?_, fun _ => by rw [hsame.classification], hsame.serverInfo, hsame.serverClass,
      (hsame.keepsEntry).onlyKey ht.onlyKey⟩
    rw [hsame.info, hinfo, Option.bind_some, ConnInfoResult.scanned, if_neg (by simp [haging]),
      if_neg fun hit => hkept (.inr ⟨haging, hit⟩)]
  | @aged c hinfo _ haging hsame =>
    refine ⟨?_, fun _ => by rw [hsame.classification], hsame.serverInfo, hsame.serverClass,
      ht.onlyKey.update (fun _ _ hne => absurd rfl hne) hsame.info⟩
    rw [hsame.info, hinfo, Option.bind_some, ConnInfoResult.scanned, if_pos haging]
    exact Function.update_self ..
  | @deleted c hinfo hexpired _ hsame =>
    have hs := ht.sound c hinfo
    have hgone : s'.connInfo idx = none := by
      rw [hsame.info]
      exact Function.update_self ..
    refine ⟨?_, fun hne => absurd hgone hne, hsame.serverInfo, hsame.serverClass,
      ht.onlyKey.update (fun _ _ hne => absurd rfl hne) hsame.info⟩
    obtain hdel | ⟨haging, hit⟩ := hexpired
    · rw [hs.deleteBit] at hdel
      cases hdel
    · rw [hgone, hinfo, Option.bind_some, ConnInfoResult.scanned, if_neg (by simp [haging]),
        if_pos hit]

theorem toNat_succ {i : UInt32} (hi : i.toNat + 1 < 2 ^ 32) : (i + 1).toNat = i.toNat + 1 := by
  rw [UInt32.toNat_add]
  exact Nat.mod_eq_of_lt hi

/-- The scan of a range of other entries. -/
theorem env_agingScan_elsewhere (ip : UInt32) (id : UInt8) : ∀ (n : Nat) (i : UInt32) {s : Nps}
    {m : Cmem}, s.OnlyKey key idx → i.toNat + n < 2 ^ 32 →
    idx.toNat < i.toNat ∨ i.toNat + n ≤ idx.toNat →
    (alvsAgingScan iterationNum ip id n i).wp noFailureSpec (fun _ _ s' => s.KeepsEntry key idx s')
      m s
  | 0, _, _, _, _, _, _ => (Nps.SameTables.refl _).keepsEntry
  | n + 1, i, s, m, ho, hlt, hrange => by
    have hi : i ≠ idx := fun h => by
      subst h
      omega
    have hsucc := toNat_succ (i := i) (by omega)
    unfold alvsAgingScan
    refine wp_bind_of (env_agingScanEntry iterationNum ip id i) ?_
    intro _ m₁ s₁ hscan
    have hkeep := hscan.keepsEntry hi ho
    refine wp_mono (env_agingScan_elsewhere ip id n (i + 1) (hkeep.onlyKey ho) (by omega)
      (by omega)) ?_
    exact fun _ _ s' h => hkeep.trans h

/-- The scan of a range with the entry. -/
theorem env_agingScan_at (ip : UInt32) (id : UInt8) : ∀ (n : Nat) (i : UInt32) {s : Nps}
    {m : Cmem}, s.Tracks key idx → i.toNat + n < 2 ^ 32 → i.toNat ≤ idx.toNat →
    idx.toNat < i.toNat + n → (alvsAgingScan iterationNum ip id n i).wp noFailureSpec
      (fun _ _ s' => ConnScanned key idx iterationNum s s') m s
  | 0, _, _, _, _, _, hle, hlt => absurd hle (by omega)
  | n + 1, i, s, m, ht, hbound, hle, hlt => by
    have hsucc := toNat_succ (i := i) (by omega)
    unfold alvsAgingScan
    refine wp_bind_of (env_agingScanEntry iterationNum ip id i) ?_
    intro _ m₁ s₁ hscan
    by_cases hi : i = idx
    · subst hi
      have hscanned := hscan.connScanned ht
      refine wp_mono (env_agingScan_elsewhere ip id n (i + 1) hscanned.onlyKey (by omega)
        (by omega)) ?_
      exact fun _ _ s' h => hscanned.keepsEntry h
    · have hkeep := hscan.keepsEntry hi ht.onlyKey
      have hne : i.toNat ≠ idx.toNat := fun h => hi (UInt32.toNat_inj.mp h)
      refine wp_mono (env_agingScan_at ip id n (i + 1) (hkeep.tracks ht) (by omega) (by omega)
        (by omega)) ?_
      exact fun _ _ s' h => hkeep.scanned h

/-- The iteration of an event, and whether it scans the entry `idx`. -/
def eventIteration (event : Nat) : Nat := event / alvsAgingTimerEventsPerIteration

def Visits (event : Nat) (idx : UInt32) : Prop :=
  event % alvsAgingTimerEventsPerIteration = idx.toNat / alvsAgingTimerScanEntriesPerJob

instance (event : Nat) (idx : UInt32) : Decidable (Visits event idx) :=
  inferInstanceAs (Decidable (_ = _))

theorem eventsPerIteration_eq : alvsAgingTimerEventsPerIteration = 524288 := by decide

/-- An event of the timer scans the entry, or leaves it. -/
theorem env_handleAgingEvent {event : Nat} (hevent : event < 60 * alvsAgingTimerEventsPerIteration)
    (ht : s.Tracks key idx) :
    (alvsHandleAgingEvent event.toUInt32).wp noFailureSpec (fun _ _ s' =>
      if Visits event idx then ConnScanned key idx (eventIteration event).toUInt8 s s'
      else s.KeepsEntry key idx s') m s := by
  rw [eventsPerIteration_eq] at hevent
  have hnat : event.toUInt32.toNat = event := by
    simp only [Nat.toUInt32_eq, UInt32.toNat_ofNat']
    omega
  have hevents : alvsAgingTimerEventsPerIteration.toUInt32.toNat = 524288 := by decide
  have hiter : (event.toUInt32 / alvsAgingTimerEventsPerIteration.toUInt32).toUInt8 =
      (eventIteration event).toUInt8 := by
    apply UInt8.toNat_inj.mp
    rw [UInt32.toNat_toUInt8, UInt32.toNat_div, hnat, hevents, eventIteration,
      eventsPerIteration_eq]
    simp
  have hstart : (event.toUInt32 % alvsAgingTimerEventsPerIteration.toUInt32 *
      alvsAgingTimerScanEntriesPerJob.toUInt32).toNat = event % 524288 * 128 := by
    rw [UInt32.toNat_mul, UInt32.toNat_mod, hnat, hevents,
      show alvsAgingTimerScanEntriesPerJob.toUInt32.toNat = 128 by decide]
    omega
  have hscan (ip : UInt32) (id : UInt8) {m₁ : Cmem} :
      (alvsAgingScan (eventIteration event).toUInt8 ip id alvsAgingTimerScanEntriesPerJob
        (event.toUInt32 % alvsAgingTimerEventsPerIteration.toUInt32 *
          alvsAgingTimerScanEntriesPerJob.toUInt32)).wp noFailureSpec (fun _ _ s' =>
        if Visits event idx then ConnScanned key idx (eventIteration event).toUInt8 s s'
        else s.KeepsEntry key idx s') m₁ s := by
    have hjob : alvsAgingTimerScanEntriesPerJob = 128 := rfl
    by_cases hvisit : Visits event idx
    · simp only [if_pos hvisit]
      rw [Visits, eventsPerIteration_eq, hjob] at hvisit
      exact env_agingScan_at ip id _ _ ht (by omega) (by omega) (by omega)
    · simp only [if_neg hvisit]
      rw [Visits, eventsPerIteration_eq, hjob] at hvisit
      exact env_agingScan_elsewhere ip id _ _ ht.onlyKey (by omega) (by omega)
  unfold alvsHandleAgingEvent
  simp only [alvsDiscardFrame, wp_bind, wp_call_env, dpHandle, wp_modify, hiter]
  intro _ _ e _
  refine wp_mono (hscan _ _) ?_
  intro _ m₁ s₁ h
  have hoff : OffConn (if 0 < m₁.connSyncState.amountBuffers then alvsStateSyncSendAggr
      else pure ()) := .ite quiet_alvsStateSyncSendAggr.offConn (.of_pure _)
  refine (wp_get _).mpr (wp_mono hoff.wp_sameTables ?_)
  rintro _ _ s₂ ⟨-, hsame⟩
  by_cases hvisit : Visits event idx
  · rw [if_pos hvisit] at h ⊢
    exact h.keepsEntry hsame.keepsEntry
  · rw [if_neg hvisit] at h ⊢
    exact h.trans hsame.keepsEntry

/-! ## Packets -/

/-- What a packet makes of its entry `c`. -/
structure ConnPacket (key : ConnClassificationKey) (idx : UInt32) (fin : Bool) (c : ConnInfoResult)
    (s' : Nps) : Prop where
  tracks : s'.Tracks key idx
  entry : ∃ c', s'.connInfo idx = some c' ∧ c'.agingBit = true ∧ c'.connState =
    if c.connState = ipVsTcpSEstablished ∧ fin = true then ipVsTcpSCloseWait else c.connState

/-- The entry is the one that the thread has read. -/
structure ReadEntry (key : ConnClassificationKey) (idx : UInt32) (c : ConnInfoResult) (m : Cmem)
    (s : Nps) : Prop where
  tracks : s.Tracks key idx
  entry : s.connInfo idx = some c
  memKey : m.connClassKey = key
  memConn : m.connInfoResult = c

theorem Nps.Tracks.setConn (ht : s.Tracks key idx) {c : ConnInfoResult} (hc : s.Sound key c) :
    (s.setConn idx c).Tracks key idx := by
  refine ⟨ht.onlyKey.update (fun _ _ hne => absurd rfl hne) rfl, fun c' hc' => ?_⟩
  have heq : (s.setConn idx c).connInfo idx = some c := Function.update_self ..
  obtain rfl := Option.some.inj (heq.symm.trans hc')
  exact ⟨hc.ofKey, hc.known, hc.deleteBit, hc.resetBit, hc.server.bound, hc.server.unbound⟩

theorem ReadEntry.setConn {c c' : ConnInfoResult} (h : ReadEntry key idx c m s)
    (hc' : s.Sound key c') :
    ReadEntry key idx c' { m with connInfoResult := c' } (s.setConn idx c') :=
  ⟨h.tracks.setConn hc', Function.update_self .., h.memKey, rfl⟩

theorem ReadEntry.sound {c : ConnInfoResult} (h : ReadEntry key idx c m s) : s.Sound key c :=
  h.tracks.sound c h.entry

/-- Binding an entry to the server that is found for it. -/
theorem env_connBind {c : ConnInfoResult} {j : UInt32} (h : ReadEntry key idx c m s)
    (hbound : c.bound = false)
    (hj : s.serverClassification ⟨c.serverAddr, c.connClassKey.virtualIp,
      c.serverPort, c.connClassKey.virtualPort, c.connClassKey.protocol⟩ = some j) :
    (alvsConnBind idx j).wp noFailureSpec (fun _ m' s' =>
      ReadEntry key idx { c with serverIndex := j, bound := true } m' s') m s := by
  have hs := h.sound
  have hmem : { m with connInfoResult := c } = m := by rw [← h.memConn]
  have hsound : s.Sound key { c with serverIndex := j, bound := true } :=
    ⟨hs.ofKey, hs.known, hs.deleteBit, hs.resetBit,
      fun _ => hs.server.unbound hbound j hj, fun h => Bool.noConfusion h⟩
  unfold alvsConnBind
  refine wp_bind_of env_lock ?_
  rintro hash _ _ ⟨rfl, rfl⟩
  refine wp_bind_of (env_connInfoLookup_found .bind h.entry) ?_
  rintro _ _ _ ⟨rfl, rfl, rfl⟩
  refine (wp_ite _ _ _ _).mpr ⟨fun _ => ?_, fun hf => absurd rfl hf⟩
  refine (wp_bind _ _ _).mpr ((wp_get _).mpr ?_)
  refine (wp_ite _ _ _ _).mpr ⟨fun hb => ?_, fun _ => ?_⟩
  · rw [hbound] at hb
    cases hb
  · refine wp_bind_of (env_connInfoModify h.entry) ?_
    rintro rc _ _ ⟨-, rfl, rfl⟩
    refine wp_bind_of (env_unlock_mem hash) ?_
    rintro _ _ _ ⟨rfl, rfl⟩
    rw [hmem, h.memConn]
    exact (wp_pure _ _).mpr (h.setConn hsound)

/-- Binding leaves the state and the aging bit of the entry. -/
theorem env_connTryBind {c : ConnInfoResult} (h : ReadEntry key idx c m s) :
    (alvsConnTryBind idx).wp noFailureSpec (fun _ m' s' => ∃ c', ReadEntry key idx c' m' s' ∧
      c'.connState = c.connState ∧ c'.agingBit = c.agingBit) m s := by
  unfold alvsConnTryBind
  refine (wp_bind _ _ _).mpr ((wp_get _).mpr ?_)
  rw [h.memConn]
  refine (wp_ite _ _ _ _).mpr ⟨fun hbound => ?_, fun _ => ⟨c, h, rfl, rfl⟩⟩
  simp only [alvsFindServerIndex, wp_bind, wp_call_env, dpHandle]
  intro e he
  have hfails : e.fails = false := he
  simp only [hfails, Bool.false_eq_true, if_false]
  split
  next j hj =>
    refine (wp_map _ _ _).mpr (wp_mono (env_connBind h hbound (j := j) ?_) ?_)
    · rw [h.sound.ofKey, ← h.memKey]
      exact hj
    · exact fun _ _ _ h' => ⟨_, h', rfl, rfl⟩
  · exact ⟨c, h, rfl, rfl⟩

/-- The server of the entry is found and available. -/
theorem env_connCheckServer {c : ConnInfoResult} (h : ReadEntry key idx c m s) :
    (alvsConnCheckServer idx).wp noFailureSpec (fun ok m' s' =>
      ok = true ∧ ReadEntry key idx c m' s') m s := by
  unfold alvsConnCheckServer
  refine (wp_bind _ _ _).mpr ((wp_get _).mpr ?_)
  rw [h.memConn]
  refine (wp_ite _ _ _ _).mpr ⟨fun hbound => ?_, fun _ => ⟨rfl, h⟩⟩
  obtain ⟨info, hinfo, hav⟩ := h.sound.server.bound hbound
  simp only [alvsServerInfoLookup, wp_bind, wp_call_env, dpHandle]
  intro e _
  simp only [hinfo, wp_modify, wp_pure, if_true, wp_get, hav, wp_bind]
  exact ⟨trivial, h.tracks, h.entry, h.memKey, h.memConn⟩

/-- The change of the state at the end of the connection. -/
theorem env_connUpdateState {c : ConnInfoResult} (h : ReadEntry key idx c m s)
    (hstate : c.connState = ipVsTcpSEstablished) :
    (alvsConnUpdateState idx ipVsTcpSCloseWait).wp noFailureSpec (fun ok _ s' =>
      ok = true ∧ ConnPacket key idx true c s') m s := by
  have hs := h.sound
  have hkept : ¬ (c.connState = ipVsTcpSCloseWait ∨ c.deleteBit = true) := by
    rw [hstate, hs.deleteBit]
    decide
  unfold alvsConnUpdateState
  refine wp_bind_of env_lock ?_
  rintro hash _ _ ⟨rfl, rfl⟩
  refine wp_bind_of (env_connInfoLookup_found .updateState h.entry) ?_
  rintro _ _ _ ⟨rfl, rfl, rfl⟩
  refine (wp_ite _ _ _ _).mpr ⟨fun _ => ?_, fun hf => absurd rfl hf⟩
  refine (wp_bind _ _ _).mpr ((wp_get _).mpr ?_)
  refine (wp_ite _ _ _ _).mpr ⟨fun hskip => absurd hskip hkept, fun _ => ?_⟩
  refine wp_bind_of (OffConn.wp_sameTables (offConn_updateConnectionStatistics _ _ _)) ?_
  rintro _ m₁ s₁ ⟨-, hsame⟩
  have ht₁ : s₁.Tracks key idx := hsame.keepsEntry.tracks h.tracks
  have hentry₁ : s₁.connInfo idx = some c := by rw [hsame.info, h.entry]
  have hs₁ := ht₁.sound c hentry₁
  refine wp_bind_of (env_connInfoModify hentry₁) ?_
  rintro rc _ _ ⟨rfl, rfl, rfl⟩
  refine (wp_bind _ _ _).mpr ((wp_modify _ _).mpr ?_)
  refine wp_bind_of (env_unlock_mem hash) ?_
  rintro _ _ _ ⟨-, rfl⟩
  refine ⟨rfl, ht₁.setConn ⟨hs₁.ofKey, hs₁.known, rfl, hs₁.resetBit, hs₁.server.bound,
    hs₁.server.unbound⟩, _, Function.update_self .., rfl, ?_⟩
  rw [if_pos ⟨hstate, rfl⟩]
  rfl

/-- The refreshing of the entry. -/
theorem env_connRefresh {c : ConnInfoResult} (h : ReadEntry key idx c m s) :
    (alvsConnRefresh idx).wp noFailureSpec (fun ok _ s' => ok = true ∧ s'.Tracks key idx ∧
      s'.connInfo idx = some { c with agingBit := true, deleteBit := false }) m s := by
  have hs := h.sound
  unfold alvsConnRefresh
  refine wp_bind_of env_lock ?_
  rintro hash _ _ ⟨rfl, rfl⟩
  refine wp_bind_of (env_connInfoLookup_found .refresh h.entry) ?_
  rintro _ _ _ ⟨rfl, rfl, rfl⟩
  refine (wp_ite _ _ _ _).mpr ⟨fun _ => ?_, fun hf => absurd rfl hf⟩
  refine (wp_bind _ _ _).mpr ((wp_get _).mpr ?_)
  refine wp_bind_of (env_connInfoModify h.entry) ?_
  rintro rc _ _ ⟨rfl, rfl, rfl⟩
  refine wp_bind_of (env_unlock_mem hash) ?_
  rintro _ _ _ ⟨-, rfl⟩
  exact ⟨rfl, h.tracks.setConn ⟨hs.ofKey, hs.known, rfl, hs.resetBit, hs.server.bound,
    hs.server.unbound⟩, Function.update_self ..⟩

/-- A packet that is not a reset leaves the entry with its aging bit set. -/
theorem env_connCheckState {tcp : TcpHdr} {c : ConnInfoResult} (hrst : tcp.rst = false)
    (h : ReadEntry key idx c m s) :
    (alvsConnCheckState tcp idx).wp noFailureSpec (fun ok _ s' =>
      ok = true ∧ ConnPacket key idx tcp.fin c s') m s := by
  unfold alvsConnCheckState
  refine (wp_bind _ _ _).mpr ((wp_get _).mpr ?_)
  rw [h.memConn]
  refine (wp_ite _ _ _ _).mpr ⟨fun hr => ?_, fun _ =>
    (wp_ite _ _ _ _).mpr ⟨fun hfin => ?_, fun hfin =>
    (wp_ite _ _ _ _).mpr ⟨fun haging => ?_, fun haging => ?_⟩⟩⟩
  · rw [hrst] at hr
    cases hr
  · refine wp_bind_of (env_connUpdateState h hfin.1) ?_
    rintro _ m₁ s₁ ⟨rfl, hpacket⟩
    rw [hfin.2]
    exact ⟨rfl, hpacket⟩
  · refine wp_bind_of (env_connRefresh h) ?_
    rintro _ m₁ s₁ ⟨rfl, ht, hentry⟩
    exact ⟨rfl, ht, _, hentry, rfl, (if_neg hfin).symm⟩
  · exact ⟨rfl, h.tracks, c, h.entry, Bool.eq_true_of_not_eq_false haging, (if_neg hfin).symm⟩

/-- A packet of a connection that is there. -/
theorem env_connDataPath {tcp : TcpHdr} {c : ConnInfoResult} (hrst : tcp.rst = false)
    (ht : s.Tracks key idx) (hkey : m.connClassKey = key) (hinfo : s.connInfo idx = some c) :
    (alvsConnDataPath tcp idx).wp noFailureSpec
      (fun _ _ s' => ConnPacket key idx tcp.fin c s') m s := by
  unfold alvsConnDataPath
  refine wp_bind_of (env_connInfoLookup_found .dataPath hinfo) ?_
  rintro _ _ _ ⟨rfl, rfl, rfl⟩
  refine (wp_ite _ _ _ _).mpr ⟨fun _ => ?_, fun hf => absurd rfl hf⟩
  refine wp_bind_of (env_connTryBind ⟨ht, hinfo, hkey, rfl⟩) ?_
  rintro _ m₁ s₁ ⟨c₁, h₁, hstate, haging⟩
  refine (wp_bind _ _ _).mpr ((wp_get _).mpr ?_)
  rw [h₁.memConn]
  refine (wp_ite _ _ _ _).mpr ⟨fun hreset => ?_, fun _ => ?_⟩
  · rw [h₁.sound.resetBit] at hreset
    cases hreset
  · refine wp_bind_of (env_connCheckServer h₁) ?_
    rintro _ m₂ s₂ ⟨rfl, h₂⟩
    refine (wp_ite _ _ _ _).mpr ⟨fun _ => ?_, fun hf => absurd rfl hf⟩
    refine wp_bind_of (env_connCheckState hrst h₂) ?_
    rintro _ m₃ s₃ ⟨rfl, h₃⟩
    refine (wp_ite _ _ _ _).mpr ⟨fun _ => ?_, fun hf => absurd rfl hf⟩
    refine wp_mono offConn_connDoRoute.wp_sameTables ?_
    rintro _ _ s₄ ⟨-, hsame⟩
    obtain ⟨c₃, hentry, hset, hnew⟩ := h₃.entry
    refine ⟨hsame.keepsEntry.tracks h₃.tracks, c₃, by rw [hsame.info, hentry], hset, ?_⟩
    rw [hnew, hstate]

/-- A packet of a connection that is gone is dropped. -/
theorem env_connDataPath_gone {tcp : TcpHdr} (hinfo : s.connInfo idx = none) :
    (alvsConnDataPath tcp idx).wp noFailureSpec (fun _ _ s' => s.SameTables s') m s := by
  simp only [alvsConnDataPath, alvsConnInfoLookup, wp_bind, wp_call_env, dpHandle, hinfo,
    wp_pure, Bool.false_eq_true, if_false]
  intro _ _
  refine wp_mono (quiet_alvsDiscardAndStats _).offConn.wp_sameTables ?_
  exact fun _ _ _ h => h.2

end Entry

/-! ## Runs -/

/-- A packet of the connection or an event of the timer, with the memory of the thread and what
the calls leave open. -/
inductive AgeStep
  | packet (tcp : TcpHdr) (m : Cmem) (es : Nat → DpEnv)
  | timer (m : Cmem) (es : Nat → DpEnv)

/-- The chip and the number of events that the timer has raised. -/
structure AgeSystem where
  nps : Nps
  events : Nat

/-- The timer goes through the identifiers of the events of 60 iterations, and again from 0. -/
def AgeSystem.eventId (s : AgeSystem) : Nat :=
  s.events % (alvsTcpConnIterEstablished.toNat * alvsAgingTimerEventsPerIteration)

section Runs

variable (key : ConnClassificationKey) (idx : UInt32)

def AgeSystem.step (s : AgeSystem) : AgeStep → AgeSystem
  | .packet tcp m es =>
    { s with
      nps := (((alvsConnDataPath tcp idx).run { m with connClassKey := key }).execEnv
        dpHandle es s.nps).2 }
  | .timer m es =>
    ⟨(((alvsHandleAgingEvent s.eventId.toUInt32).run m).execEnv dpHandle es s.nps).2, s.events + 1⟩

/-- No call fails, and a packet is not a reset. -/
def AgeSystem.Ok (s : AgeSystem) : AgeStep → Prop
  | .packet tcp m es => tcp.rst = false ∧
    ((alvsConnDataPath tcp idx).run { m with connClassKey := key }).CallsOk noFailure dpHandle es
      s.nps
  | .timer m es =>
    ((alvsHandleAgingEvent s.eventId.toUInt32).run m).CallsOk noFailure dpHandle es s.nps

instance (s : AgeSystem) : (a : AgeStep) → Decidable (s.Ok key idx a)
  | .packet _ _ _ => inferInstanceAs (Decidable (_ ∧ _))
  | .timer _ _ => inferInstanceAs (Decidable (Prog.CallsOk _ _ _ _ _))

/-- The age of the entry, where it is there, and the number of events of the timer. -/
def ageNext (a : Option Age × Nat) : AgeStep → Option Age × Nat
  | .packet tcp _ _ => (a.1.map (·.packet tcp.fin), a.2)
  | .timer _ _ => (if Visits a.2 idx then a.1.bind (·.scan) else a.1, a.2 + 1)

/-- The number of scans of the entry. -/
def scansBefore (events : Nat) : Nat :=
  (events + (alvsAgingTimerEventsPerIteration - 1 - idx.toNat / alvsAgingTimerScanEntriesPerJob)) /
    alvsAgingTimerEventsPerIteration

/-- The entry has the age `a` after a number of scans. -/
structure ConnInfoResult.HasAge (scans : Nat) (c : ConnInfoResult) (a : Age) : Prop where
  state : c.connState = a.state
  fresh : a.idle = none → c.agingBit = true
  idle : ∀ k, a.idle = some k → c.agingBit = false ∧ k < a.timeout ∧
    ∃ q, q + k + 1 = scans ∧ c.ageIteration = connAgeIteration (q % 60).toUInt8 a.state

/-- The entry and its age, after the same events. -/
structure AgeSystem.HasAge (s : AgeSystem) (a : Option Age × Nat) : Prop where
  events : s.events = a.2
  tracks : s.nps.Tracks key idx
  ages : Option.Rel (ConnInfoResult.HasAge (scansBefore idx s.events)) (s.nps.connInfo idx) a.1

end Runs

section Counting

variable {idx : UInt32} {events : Nat}

theorem scansBefore_succ (hidx : idx.toNat < alvsConnMaxEntries) (events : Nat) :
    scansBefore idx (events + 1) =
      if Visits events idx then scansBefore idx events + 1 else scansBefore idx events := by
  have hmax : alvsConnMaxEntries = 67108864 := by decide
  have hjob : alvsAgingTimerScanEntriesPerJob = 128 := rfl
  simp only [scansBefore, Visits, eventsPerIteration_eq, hjob]
  split <;> omega

theorem scansBefore_of_visits (h : Visits events idx) :
    scansBefore idx events = events / alvsAgingTimerEventsPerIteration := by
  have hjob : alvsAgingTimerScanEntriesPerJob = 128 := rfl
  simp only [scansBefore, Visits, eventsPerIteration_eq, hjob] at h ⊢
  omega

theorem AgeSystem.eventId_lt (s : AgeSystem) :
    s.eventId < 60 * alvsAgingTimerEventsPerIteration :=
  Nat.mod_lt _ (by decide)

theorem AgeSystem.visits_eventId (s : AgeSystem) : Visits s.eventId idx ↔ Visits s.events idx := by
  rw [Visits, Visits, eventId, Nat.mod_mul_left_mod]

/-- The iteration of the events starts again from 0 after 60 iterations. -/
theorem AgeSystem.eventIteration_eventId (s : AgeSystem) :
    eventIteration s.eventId = s.events / alvsAgingTimerEventsPerIteration % 60 := by
  rw [eventIteration, eventId, eventsPerIteration_eq,
    show alvsTcpConnIterEstablished.toNat = 60 from rfl]
  omega

end Counting

/-! ## What an event makes of an age -/

theorem Age.timeout_cases (a : Age) : a.timeout = 60 ∨ a.timeout = 1 := by
  unfold timeout alvsUtilGetConnIterations
  split
  · exact .inl rfl
  · split <;> exact .inr rfl

theorem connAgeIteration_toNat (a : Age) (q : Nat) :
    (connAgeIteration (q % 60).toUInt8 a.state).toNat = q % 60 % a.timeout := by
  have hq : (q % 60).toUInt8.toNat = q % 60 := by
    simp only [Nat.toUInt8_eq, UInt8.toNat_ofNat']
    omega
  have hlt : q % 60 % 65536 % a.timeout < 256 :=
    (Nat.mod_le _ _).trans_lt (by omega)
  rw [connAgeIteration, UInt32.toNat_toUInt8, ezdpMod_toNat _ _ 0 (by decide),
    UInt8.toNat_toUInt32, UInt8.toNat_toUInt32, hq]
  change q % 60 / 1 % 65536 % a.timeout % 256 = q % 60 % a.timeout
  rw [Nat.div_one, Nat.mod_eq_of_lt hlt, Nat.mod_eq_of_lt (b := 65536) (by omega)]

/-- The iteration that is stored comes back when the timeout has passed, and not before. -/
theorem connAgeIteration_eq_iff (a : Age) {q k : Nat} (hk : k < a.timeout) :
    connAgeIteration (q % 60).toUInt8 a.state =
        connAgeIteration ((q + k + 1) % 60).toUInt8 a.state ↔ k + 1 = a.timeout := by
  rw [← UInt8.toNat_inj, connAgeIteration_toNat, connAgeIteration_toNat]
  obtain h | h := a.timeout_cases
  all_goals
    rw [h] at hk ⊢
    omega

section Ages

variable {c : ConnInfoResult} {a : Age} {scans : Nat}

/-- A scan of the entry is a scan of its age. -/
theorem ConnInfoResult.HasAge.scan (h : c.HasAge scans a) :
    Option.Rel (HasAge (scans + 1)) (c.scanned (scans % 60).toUInt8) a.scan := by
  obtain ⟨state, idle⟩ := a
  cases idle with
  | none =>
    rw [scanned, if_pos (h.fresh rfl)]
    refine .some ⟨h.state, nofun, ?_⟩
    rintro _ ⟨⟩
    have hpos : 0 < Age.timeout ⟨state, some 0⟩ := by
      obtain ht | ht := Age.timeout_cases ⟨state, some 0⟩ <;> omega
    exact ⟨rfl, hpos, scans, rfl, congrArg (connAgeIteration _) h.state⟩
  | some k =>
    obtain ⟨haging, hk, q, rfl, hiter⟩ := h.idle k rfl
    have hstate : c.connState = state := h.state
    have hback := connAgeIteration_eq_iff ⟨state, some k⟩ (q := q) hk
    rw [scanned, if_neg (by simp [haging]), Age.scan, hstate, hiter]
    by_cases hlast : k + 1 = Age.timeout ⟨state, some k⟩
    · rw [if_pos (hback.mpr hlast)]
      simp only [if_pos hlast]
      exact .none
    · rw [if_neg (mt hback.mp hlast)]
      simp only [if_neg hlast]
      refine .some ⟨h.state, nofun, ?_⟩
      rintro _ ⟨⟩
      exact ⟨haging, Nat.lt_of_le_of_ne hk hlast, q, rfl, hiter⟩

/-- A packet starts the age again. -/
theorem ConnInfoResult.HasAge.packet {c' : ConnInfoResult} {fin : Bool} (h : c.HasAge scans a)
    (haging : c'.agingBit = true) (hstate : c'.connState =
      if c.connState = ipVsTcpSEstablished ∧ fin = true then ipVsTcpSCloseWait else c.connState) :
    c'.HasAge scans (a.packet fin) := by
  refine ⟨?_, fun _ => haging, nofun⟩
  rw [hstate, h.state]
  rfl

end Ages

/-! ## Every run -/

section Runs

variable {key : ConnClassificationKey} {idx : UInt32} {s : AgeSystem} {a : Option Age × Nat}
  {m : Cmem} {es : Nat → DpEnv}

theorem hasAge_packet {tcp : TcpHdr} (h : s.HasAge key idx a)
    (hok : s.Ok key idx (.packet tcp m es)) :
    (s.step key idx (.packet tcp m es)).HasAge key idx (ageNext idx a (.packet tcp m es)) := by
  obtain ⟨a, n⟩ := a
  have hages := h.ages
  cases hinfo : s.nps.connInfo idx with
  | none =>
    rw [hinfo] at hages
    cases hages
    have hsame : s.nps.SameTables (s.step key idx (.packet tcp m es)).nps :=
      Prog.execEnv_of_wp _ (env_connDataPath_gone hinfo) hok.2
    refine ⟨h.events, hsame.keepsEntry.tracks h.tracks, ?_⟩
    rw [hsame.info, hinfo]
    exact .none
  | some c =>
    rw [hinfo] at hages
    cases hages with | some hage => ?_
    have hpacket : ConnPacket key idx tcp.fin c (s.step key idx (.packet tcp m es)).nps :=
      Prog.execEnv_of_wp _ (env_connDataPath hok.1 h.tracks (by rfl) hinfo) hok.2
    obtain ⟨c', hentry, haging, hstate⟩ := hpacket.entry
    refine ⟨h.events, hpacket.tracks, ?_⟩
    rw [hentry]
    exact .some (hage.packet haging hstate)

theorem ConnScanned.tracks {iterationNum : UInt8} {s s' : Nps}
    (h : ConnScanned key idx iterationNum s s') (ht : s.Tracks key idx) : s'.Tracks key idx := by
  refine ⟨h.onlyKey, fun c hc => ?_⟩
  have hentry := h.entry
  rw [hc] at hentry
  cases hinfo : s.connInfo idx with
  | none =>
    rw [hinfo] at hentry
    cases hentry
  | some c₀ =>
    have hs := ht.sound c₀ hinfo
    have hknown : s'.connClassification key ≠ none :=
      h.known (by rw [hc]; exact nofun) ▸ hs.known
    have hserver := hs.server.congr h.serverInfo h.serverClass
    rw [hinfo, Option.bind_some, ConnInfoResult.scanned] at hentry
    by_cases haging : c₀.agingBit = true
    · rw [if_pos haging] at hentry
      obtain rfl := Option.some.inj hentry
      exact ⟨hs.ofKey, hknown, hs.deleteBit, hs.resetBit, hserver.bound, hserver.unbound⟩
    · rw [if_neg haging] at hentry
      split at hentry
      · cases hentry
      · obtain rfl := Option.some.inj hentry
        exact ⟨hs.ofKey, hknown, hs.deleteBit, hs.resetBit, hserver⟩

theorem hasAge_timer (hidx : idx.toNat < alvsConnMaxEntries) (h : s.HasAge key idx a)
    (hok : s.Ok key idx (.timer m es)) :
    (s.step key idx (.timer m es)).HasAge key idx (ageNext idx a (.timer m es)) := by
  obtain ⟨a, n⟩ := a
  obtain rfl : s.events = n := h.events
  have hscan : if Visits s.eventId idx then ConnScanned key idx (eventIteration s.eventId).toUInt8
      s.nps (s.step key idx (.timer m es)).nps
      else s.nps.KeepsEntry key idx (s.step key idx (.timer m es)).nps :=
    Prog.execEnv_of_wp _ (env_handleAgingEvent s.eventId_lt h.tracks) hok
  rw [s.eventIteration_eventId] at hscan
  have hages := h.ages
  have hsucc := scansBefore_succ hidx s.events
  by_cases hvisit : Visits s.events idx
  · rw [if_pos (s.visits_eventId.mpr hvisit), ← scansBefore_of_visits hvisit] at hscan
    rw [if_pos hvisit] at hsucc
    refine ⟨rfl, hscan.tracks h.tracks, ?_⟩
    rw [hscan.entry]
    simp only [ageNext, if_pos hvisit]
    change Option.Rel (ConnInfoResult.HasAge (scansBefore idx (s.events + 1))) _ _
    rw [hsucc]
    generalize s.nps.connInfo idx = entry at hages ⊢
    cases hages with
    | none => exact .none
    | some hage => exact hage.scan
  · rw [if_neg (mt s.visits_eventId.mp hvisit)] at hscan
    rw [if_neg hvisit] at hsucc
    refine ⟨rfl, hscan.tracks h.tracks, ?_⟩
    rw [hscan.entry]
    simp only [ageNext, if_neg hvisit]
    change Option.Rel (ConnInfoResult.HasAge (scansBefore idx (s.events + 1))) _ _
    rw [hsucc]
    exact hages

theorem hasAge_run (hidx : idx.toNat < alvsConnMaxEntries) : ∀ (steps : List AgeStep)
    {s : AgeSystem} {a : Option Age × Nat}, s.HasAge key idx a →
    Always (AgeSystem.Ok key idx) (AgeSystem.step key idx) s steps →
    (steps.foldl (AgeSystem.step key idx) s).HasAge key idx (steps.foldl (ageNext idx) a)
  | [], _, _, h, _ => h
  | .packet _ _ _ :: steps, _, _, h, hok => hasAge_run hidx steps (hasAge_packet h hok.1) hok.2
  | .timer _ _ :: steps, _, _, h, hok => hasAge_run hidx steps (hasAge_timer hidx h hok.1) hok.2

theorem AgeSystem.HasAge.missing (h : s.HasAge key idx a) :
    s.nps.connInfo idx = none ↔ a.1 = none := by
  have hages := h.ages
  generalize s.nps.connInfo idx = entry, a.1 = age at hages ⊢
  cases hages <;> simp

theorem AgeSystem.HasAge.states (h : s.HasAge key idx a) :
    (s.nps.connInfo idx).map (·.connState) = a.1.map Age.state := by
  have hages := h.ages
  generalize s.nps.connInfo idx = entry, a.1 = age at hages ⊢
  cases hages with
  | none => rfl
  | some hage => exact congrArg some hage.state

theorem Age.scan_none {a : Age} : a.scan = none ↔ ∃ k, a.idle = some k ∧ k + 1 = a.timeout := by
  unfold scan
  split
  next hidle => simp [hidle]
  next k hidle =>
    simp only [hidle, Option.some.injEq, exists_eq_left']
    split <;> simp [*]

/-- An event ends an age. -/
theorem ageNext_timer_none : ¬ a.1 = none ∧ (ageNext idx a (.timer m es)).1 = none ↔
    Visits a.2 idx ∧ ∃ b k, a.1 = some b ∧ b.idle = some k ∧ k + 1 = b.timeout := by
  obtain ⟨_ | b, n⟩ := a
  · simp
  · by_cases hvisit : Visits n idx
    · simp [ageNext, hvisit, Age.scan_none]
    · simp [ageNext, hvisit]

/-- In a run of packets of the connection and events of the timer the entry is there as long
as its age is, and an event of the timer deletes it exactly where no packet has come since the
scan that cleared the aging bit and this is the scan of the iteration in which the timeout of
the state has passed since. -/
theorem agingTimeout_run (hidx : idx.toNat < alvsConnMaxEntries) {c : ConnInfoResult}
    (ht : s.nps.Tracks key idx) (hc : s.nps.connInfo idx = some c) (haging : c.agingBit = true)
    (steps : List AgeStep)
    (hok : Always (AgeSystem.Ok key idx) (AgeSystem.step key idx) s steps) :
    let s' := steps.foldl (AgeSystem.step key idx) s
    let age := (steps.foldl (ageNext idx) (some ⟨c.connState, none⟩, s.events)).1
    (s'.nps.connInfo idx).map (·.connState) = age.map Age.state ∧
      ∀ m es, s'.Ok key idx (.timer m es) →
        (s'.nps.connInfo idx ≠ none ∧
            (s'.step key idx (.timer m es)).nps.connInfo idx = none ↔
          Visits s'.events idx ∧ ∃ a k, age = some a ∧ a.idle = some k ∧ k + 1 = a.timeout) := by
  intro s' age
  have hinit : s.HasAge key idx (some ⟨c.connState, none⟩, s.events) :=
    ⟨rfl, ht, hc ▸ .some ⟨rfl, fun _ => haging, nofun⟩⟩
  have h : s'.HasAge key idx _ := hasAge_run hidx steps hinit hok
  refine ⟨h.states, fun m es htimer => ?_⟩
  rw [Ne, h.missing, (hasAge_timer hidx h htimer).missing]
  exact ageNext_timer_none.trans (and_congr_left' (by rw [h.events]))

end Runs

/-- An entry without a server, with its aging bit set. -/
def exampleAgingEntry : ConnInfoResult :=
  ⟨true, false, false, false, 0, 0, ⟨1, 2, 80, 40000, 6⟩, ipVsTcpSEstablished, 0, 0⟩

/-- A chip with that entry only. -/
def exampleAgeSystem : AgeSystem where
  nps :=
    { Sys.init.nps with
      connInfo := Function.update Sys.init.nps.connInfo 0 (some exampleAgingEntry)
      connClassification :=
        Function.update Sys.init.nps.connClassification exampleAgingEntry.connClassKey (some 0) }
  events := 0

/-- The last packet of the connection and the events of the next scan. -/
def exampleAgeSteps : List AgeStep :=
  [.packet ⟨40000, 80, true, false⟩ .zero (fun _ => exampleEnv), .timer .zero fun _ => exampleEnv]

theorem agingTimeout_run_example :
    let s' := exampleAgeSteps.foldl (AgeSystem.step exampleAgingEntry.connClassKey 0)
      exampleAgeSystem
    let age := (exampleAgeSteps.foldl (ageNext 0) (some ⟨ipVsTcpSEstablished, none⟩, 0)).1
    age = some ⟨ipVsTcpSCloseWait, some 0⟩ ∧
    (s'.nps.connInfo 0).map (·.connState) = age.map Age.state ∧
      ∀ m es, s'.Ok exampleAgingEntry.connClassKey 0 (.timer m es) →
        (s'.nps.connInfo 0 ≠ none ∧
            (s'.step exampleAgingEntry.connClassKey 0 (.timer m es)).nps.connInfo 0 = none ↔
          Visits s'.events 0 ∧ ∃ a k, age = some a ∧ a.idle = some k ∧ k + 1 = a.timeout) := by
  have htracks : exampleAgeSystem.nps.Tracks exampleAgingEntry.connClassKey 0 := by
    refine ⟨fun i c hi hc => ?_, fun c hc => ?_⟩
    · have hnone : exampleAgeSystem.nps.connInfo i = none := Function.update_of_ne hi _ _
      rw [hnone] at hc
      cases hc
    · obtain rfl : exampleAgingEntry = c := Option.some.inj hc
      exact ⟨rfl, by decide, rfl, rfl, nofun, fun _ j hj => by cases hj⟩
  exact ⟨by decide +kernel, @agingTimeout_run exampleAgingEntry.connClassKey 0 exampleAgeSystem
    (by decide) exampleAgingEntry htracks rfl rfl exampleAgeSteps (by decide +kernel)⟩

end Alvs
