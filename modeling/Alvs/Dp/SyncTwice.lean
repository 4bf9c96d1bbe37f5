import Alvs.Dp.Attempts
import Alvs.Dp.SyncDecode
import Mathlib.Data.Nat.Bitwise

/-!
# A sync record that is received twice

`alvs_state_sync_process_conn` of the same record again, without failing calls. `SyncEffect` is
what one processing does : nothing, a new entry, or an update of the entry it finds. A new
entry is INACTIVE or not by the state of the record, an update goes by the flag of the record,
so the second processing changes the entry of a record whose flag and state disagree.

`sync_twice_iff` : the second processing changes neither the tables of connections nor the
counters exactly where `SyncsOnce`. `sync_twice_fails` is a record for which it does.
-/

namespace Alvs

open ProgLogic LProg

/-! ## What one processing does -/

section Effect

/-- The address and the port of the server that a record names. -/
def StateSyncConn.server (r : StateSyncConn) : UInt32 × UInt16 := (r.serverAddr, r.serverPort)

/-- The key of that server for the service of the record. -/
def StateSyncConn.serverKey (r : StateSyncConn) : ServerClassificationKey :=
  r.classKey.serverKey r.server

def StateSyncConn.Inactive (r : StateSyncConn) : Prop := r.flags &&& ipVsConnFInactive ≠ 0

instance (r : StateSyncConn) : Decidable r.Inactive := inferInstanceAs (Decidable (_ ≠ _))

/-- The address and the port of a server. -/
def ServerInfoResult.server (info : ServerInfoResult) : UInt32 × UInt16 :=
  (info.serverIp, info.serverPort)

namespace Nps

variable (s : Nps) (r : StateSyncConn)

/-- The server of an entry; none if it is bound to a server without an info entry. -/
def connServer (c : ConnInfoResult) : Option (UInt32 × UInt16) :=
  if c.bound then (s.serverInfo c.serverIndex).map (·.server)
  else some (c.serverAddr, c.serverPort)

/-- The record is of a connection that is not known, or known with another server while the
record is not INACTIVE. -/
def NewHere : Prop :=
  match s.connClassification r.classKey with
  | none => True
  | some i => ∃ c ∈ s.connInfo i, ∃ a ∈ s.connServer c, a ≠ r.server ∧ ¬ r.Inactive

/-- The record makes a new entry, which needs the info of the server if it is found. -/
def MakesEntry : Prop :=
  s.NewHere r ∧ ∀ j ∈ s.serverClassification r.serverKey, s.serverInfo j ≠ none

/-- The record only deletes the entry of its connection : the server that is found has no info. -/
def Drops : Prop :=
  s.NewHere r ∧ (∃ j ∈ s.serverClassification r.serverKey, s.serverInfo j = none) ∧
    ∃ c, s.HasConn r.classKey c ∧ s.connClassification c.connClassKey ≠ none

/-- The record updates entry `c` at index `i`. -/
structure Updates (i : UInt32) (c : ConnInfoResult) : Prop where
  classification : s.connClassification r.classKey = some i
  info : s.connInfo i = some c
  server : s.connServer c = some r.server

/-- An entry after `alvsStateSyncBindConn`. -/
def rebound (c : ConnInfoResult) : ConnInfoResult :=
  if c.bound then c
  else match s.serverClassification r.serverKey with
    | some j => { c with serverIndex := j, bound := true }
    | none => c

end Nps

/-- What the processing of a record does. -/
inductive SyncEffect (s : Nps) (r : StateSyncConn) : Nps → Prop
  | ignored (hmakes : ¬ s.MakesEntry r) (hdrops : ¬ s.Drops r)
      (hupdates : ∀ i c, ¬ s.Updates r i c) : SyncEffect s r s
  | dropped {s' : Nps} (hdrops : s.Drops r) (hconn : ∀ c, ¬ s'.HasConn r.classKey c)
      (hclass : s'.serverClassification = s.serverClassification)
      (hinfo : s'.serverInfo = s.serverInfo) : SyncEffect s r s'
  | created {s' : Nps} {b : Bool} {server : UInt32} {port : UInt16} (hmakes : s.MakesEntry r)
      (hserver : ServerChosen s r.serverKey b server port)
      (hconn : s'.HasConn r.classKey
        (newConnInfo r.classKey b server port r.state r.backupFlags false))
      (hclass : s'.serverClassification = s.serverClassification)
      (hinfo : s'.serverInfo = s.serverInfo)
      (htotal : ∀ c info, s.HasConn r.classKey c → c.connClassKey = r.classKey →
        s.serverInfo c.serverIndex = some info →
        s'.onDemand info.connTotal = s.onDemand info.connTotal - 1) : SyncEffect s r s'
  | updated {i : UInt32} {c : ConnInfoResult} {posted : SumAddr → Int} (hupdates : s.Updates r i c)
      (hposted : (c.connFlags ^^^ r.backupFlags) &&& ipVsConnFInactive = 0 → posted = s.posted) :
      SyncEffect s r { s with
        connInfo := Function.update s.connInfo i (some ((s.rebound r c).synced r))
        posted := posted }

end Effect

/-- No call fails : the pool has the index, and no search meets an error. -/
def noFailure (e : DpEnv) : DpCall → Nps → Prop
  | .allocIndex _, s => s.IndexFree e.value
  | _, _ => e.fails = false

instance (e : DpEnv) : (op : DpCall) → (s : Nps) → Decidable (noFailure e op s)
  | op, s => by unfold noFailure; split <;> infer_instance

/-- Runs in which no call fails. -/
abbrev noFailureSpec : Spec DpCall DpCall.Res Nps := Prog.envSpec dpHandle noFailure

theorem noFailure_creates : CreatesEntry noFailure := ⟨id, id⟩

/-! ## The functions of a record -/

section Functions

variable {r : StateSyncConn} {m : Cmem} {s : Nps}

theorem env_connInfoLookup (site : ConnSite) (i : UInt32) :
    (alvsConnInfoLookup site i).wp noFailureSpec (fun found m' s' => s' = s ∧
      m'.connClassKey = m.connClassKey ∧
      (found = false ∧ s.connInfo i = none ∨
        ∃ c, found = true ∧ s.connInfo i = some c ∧ m'.connInfoResult = c)) m s := by
  refine wp_mono (env_connInfoLookup_mem site i) ?_
  rintro _ _ _ ⟨hs, ⟨hf, hnone, rfl⟩ | ⟨c, hf, hc, rfl⟩⟩
  · exact ⟨hs, rfl, .inl ⟨hf, hnone⟩⟩
  · exact ⟨hs, rfl, .inr ⟨c, hf, hc, rfl⟩⟩

theorem env_serverInfoLookup (j : UInt32) :
    (alvsServerInfoLookup j).wp noFailureSpec (fun found m' s' => s' = s ∧
      m'.connClassKey = m.connClassKey ∧ m'.connInfoResult = m.connInfoResult ∧
      (found = false ∧ s.serverInfo j = none ∨
        ∃ info, found = true ∧ s.serverInfo j = some info ∧ m'.serverInfoResult = info)) m s := by
  refine wp_mono (env_serverInfoLookup_mem j) ?_
  rintro _ _ _ ⟨hs, ⟨hf, hnone, rfl⟩ | ⟨info, hf, hinfo, rfl⟩⟩
  · exact ⟨hs, rfl, rfl, .inl ⟨hf, hnone⟩⟩
  · exact ⟨hs, rfl, rfl, .inr ⟨info, hf, hinfo, rfl⟩⟩

theorem env_unlock (h : UInt32) :
    (alvsUnlockConnection h).wp noFailureSpec (fun _ _ s' => s' = s) m s :=
  wp_mono (env_unlock_mem h) fun _ _ _ h => h.2

theorem env_overloadOnDelete (j : UInt16) :
    (alvsServerOverloadOnDeleteConn j).wp noFailureSpec (fun _ m' s' => m' = m ∧ ∃ words, s' =
      { s.addOnDemand m.serverInfoResult.connTotal (-1) with serverFlagsWord := words }) m s :=
  wp_mono (env_overloadOnDelete_eq j) fun _ _ _ h => ⟨h.1, _, h.2⟩

/-- The total of the server of a deleted entry goes down by one. -/
theorem env_connReleaseServer (c : ConnInfoResult) :
    (alvsConnReleaseServer c).wp noFailureSpec (fun _ m' s' => m'.connClassKey = m.connClassKey ∧
      ∃ posted onDemand words,
        s' = { s with posted := posted, onDemand := onDemand, serverFlagsWord := words } ∧
        ∀ info, s.serverInfo c.serverIndex = some info →
          onDemand info.connTotal = s.onDemand info.connTotal - 1) m s := by
  unfold alvsConnReleaseServer
  refine wp_bind_of (env_serverInfoLookup c.serverIndex) ?_
  rintro found m₁ s₁ ⟨rfl, hkey, -, ⟨rfl, hnone⟩ | ⟨info, rfl, hinfo, hres⟩⟩
  · refine ⟨hkey, _, _, _, rfl, fun info hinfo => ?_⟩
    rw [hnone] at hinfo
    cases hinfo
  · have hstats : (alvsConnDeleteStatistics c.connState).wp noFailureSpec
        (fun _ m' s' => m' = m₁ ∧ ∃ posted, s' = { s₁ with posted := posted }) m₁ s₁ := by
      unfold alvsConnDeleteStatistics
      split <;> exact env_updateConnectionStatistics
    refine wp_bind_of hstats ?_
    rintro _ _ _ ⟨rfl, posted, rfl⟩
    refine wp_mono (env_overloadOnDelete c.serverIndex.toUInt16) ?_
    rintro _ _ _ ⟨rfl, words, rfl⟩
    refine ⟨hkey, _, _, _, rfl, fun info' hinfo' => ?_⟩
    obtain rfl := Option.some.inj (hinfo'.symm.trans hinfo)
    rw [hres]
    exact Function.update_self _ _ _

/-- The deletion of entry `c` fails where it has no classification. -/
theorem env_connDelete (site : DeleteSite) {i : UInt32} {c : ConnInfoResult}
    (hres : m.connInfoResult = c) (hinfo : s.connInfo i = some c) :
    (alvsConnDeleteWithoutLock site i).wp noFailureSpec (fun _ m' s' =>
      m'.connClassKey = m.connClassKey ∧ (s.connClassification c.connClassKey = none ∧ s' = s ∨
      s.connClassification c.connClassKey ≠ none ∧
      s'.connClassification = Function.update s.connClassification c.connClassKey none ∧
      s'.connInfo = Function.update s.connInfo i none ∧
      s'.serverClassification = s.serverClassification ∧ s'.serverInfo = s.serverInfo ∧
      ∀ info, s.serverInfo c.serverIndex = some info →
        s'.onDemand info.connTotal = s.onDemand info.connTotal - 1)) m s := by
  subst hres
  simp only [alvsConnDeleteWithoutLock, wp_bind, wp_get, wp_call_env]
  intro e he
  have hfails : e.fails = false := he
  cases hclass : s.connClassification m.connInfoResult.connClassKey with
  | none =>
    simp only [dpHandle, hclass, or_true, if_true, Bool.false_eq_true, if_false, wp_pure]
    exact ⟨trivial, .inl ⟨trivial, trivial⟩⟩
  | some k =>
    simp only [dpHandle, hfails, hclass, reduceCtorEq, Bool.false_eq_true, or_self, if_false,
      if_true, wp_bind, wp_call_env, hinfo]
    intro _ _
    refine wp_mono (env_connReleaseServer m.connInfoResult) ?_
    rintro _ m₁ s₁ ⟨hkey, posted, onDemand, words, rfl, htotal⟩
    exact fun _ _ => ⟨hkey, .inr ⟨Option.some_ne_none k, rfl, rfl, rfl, rfl, htotal⟩⟩

/-- A new entry, unless the server that is found has no info. -/
theorem env_stateSyncCreateConn (hash : UInt32) (hkey : m.connClassKey = r.classKey) :
    (alvsStateSyncCreateConn r hash).wp noFailureSpec (fun _ _ s' =>
      (∃ j, s.serverClassification r.serverKey = some j ∧ s.serverInfo j = none) ∧ s' = s ∨
      (∀ j ∈ s.serverClassification r.serverKey, s.serverInfo j ≠ none) ∧ s.SameServers s' ∧
      ∃ b server port, ServerChosen s r.serverKey b server port ∧ s'.HasConn r.classKey
        (newConnInfo r.classKey b server port r.state r.backupFlags false)) m s := by
  have hserver : s.serverClassification ⟨r.serverAddr, r.virtualAddr, r.serverPort, r.virtualPort,
    r.protocol.toUInt16⟩ = s.serverClassification r.serverKey := rfl
  simp only [alvsStateSyncCreateConn, wp_bind, wp_call_env]
  intro e he
  have hfails : e.fails = false := he
  simp only [dpHandle, hfails, Bool.false_eq_true, if_false, hserver]
  cases hclass : s.serverClassification r.serverKey with
  | some j =>
    refine wp_bind_of (env_serverInfoLookup j) ?_
    rintro found m₁ s₁ ⟨rfl, hkey₁, -, ⟨rfl, hnone⟩ | ⟨info, rfl, hinfo, -⟩⟩
    · refine wp_bind_of (env_unlock hash) ?_
      rintro _ _ _ rfl
      exact .inl ⟨⟨j, rfl, hnone⟩, rfl⟩
    · refine wp_bind_of (wp_createNewEntry noFailure_creates) ?_
      rintro _ m₂ s₂ ⟨-, hconn, hservers⟩
      refine wp_bind_of (env_unlock hash) ?_
      rintro _ _ _ rfl
      rw [hkey₁, hkey] at hconn
      refine .inr ⟨fun j' hj' => ?_, hservers, true, j, 0, ⟨fun j' hj' => ?_, fun h => ?_⟩, hconn⟩
      · obtain rfl := Option.some.inj hj'
        rw [hinfo]
        exact Option.some_ne_none info
      · rw [hclass] at hj'
        exact ⟨rfl, Option.some.inj hj'⟩
      · rw [hclass] at h
        cases h
  | none =>
    refine wp_bind_of (wp_createNewEntry noFailure_creates) ?_
    rintro _ m₂ s₂ ⟨-, hconn, hservers⟩
    refine wp_bind_of (env_unlock hash) ?_
    rintro _ _ _ rfl
    rw [hkey] at hconn
    refine .inr ⟨by simp, hservers, false, r.serverAddr, r.serverPort, ⟨fun j hj => ?_, fun _ => ?_⟩,
      hconn⟩
    · rw [hclass] at hj
      cases hj
    · exact ⟨rfl, rfl, rfl⟩

/-- The server that the record is compared with. -/
theorem env_connServer (c : ConnInfoResult) :
    (if c.bound then alvsServerInfoLookup c.serverIndex else pure true : Dp Bool).wp noFailureSpec
      (fun found m' s' => s' = s ∧ m'.connClassKey = m.connClassKey ∧
        m'.connInfoResult = m.connInfoResult ∧
        (found = false ∧ s.connServer c = none ∨ found = true ∧ s.connServer c =
          some (if c.bound then m'.serverInfoResult.serverIp else c.serverAddr,
            if c.bound then m'.serverInfoResult.serverPort else c.serverPort))) m s := by
  unfold Nps.connServer
  cases c.bound with
  | false => exact ⟨rfl, rfl, rfl, .inr ⟨rfl, rfl⟩⟩
  | true =>
    refine wp_mono (env_serverInfoLookup c.serverIndex) ?_
    rintro found m₁ s₁ ⟨hs, hkey, hres, ⟨rfl, hnone⟩ | ⟨info, rfl, hinfo, hserver⟩⟩
    · refine ⟨hs, hkey, hres, .inl ⟨rfl, ?_⟩⟩
      rw [hnone]
      rfl
    · refine ⟨hs, hkey, hres, .inr ⟨rfl, ?_⟩⟩
      rw [hinfo, hserver]
      rfl

theorem env_stateSyncBindConn (c : ConnInfoResult) :
    (alvsStateSyncBindConn r c).wp noFailureSpec
      (fun c' m' s' => c' = s.rebound r c ∧ m' = m ∧ s' = s) m s := by
  unfold alvsStateSyncBindConn Nps.rebound
  refine (wp_ite _ _ _ _).mpr ⟨fun hb => ?_, fun hb => ?_⟩
  · rw [if_pos hb]
    exact ⟨rfl, rfl, rfl⟩
  · rw [if_neg hb]
    simp only [alvsFindServerIndex, wp_bind, wp_call_env]
    intro e he
    have hfails : e.fails = false := he
    have hserver : s.serverClassification ⟨r.serverAddr, r.virtualAddr, r.serverPort,
      r.virtualPort, r.protocol.toUInt16⟩ = s.serverClassification r.serverKey := rfl
    simp only [dpHandle, hfails, Bool.false_eq_true, if_false, hserver]
    cases s.serverClassification r.serverKey <;> exact ⟨rfl, rfl, rfl⟩

/-- The entry of the connection updated; the counters change where INACTIVE does. -/
theorem env_stateSyncUpdateConn {i : UInt32} {c : ConnInfoResult} (hash : UInt32)
    (hres : m.connInfoResult = c) (hinfo : s.connInfo i = some c) :
    (alvsStateSyncUpdateConn r i hash).wp noFailureSpec (fun _ _ s' => ∃ posted,
      ((c.connFlags ^^^ r.backupFlags) &&& ipVsConnFInactive = 0 → posted = s.posted) ∧
      s' = { s with
        connInfo := Function.update s.connInfo i (some ((s.rebound r c).synced r))
        posted := posted }) m s := by
  have hstats : (alvsStateSyncUpdateStatistics r c).wp noFailureSpec (fun _ m' s' => m' = m ∧
      ∃ posted, ((c.connFlags ^^^ r.backupFlags) &&& ipVsConnFInactive = 0 → posted = s.posted) ∧
        s' = { s with posted := posted }) m s := by
    unfold alvsStateSyncUpdateStatistics
    split
    next hdiff =>
      split
      all_goals
        refine wp_mono env_updateConnectionStatistics ?_
        rintro _ _ _ ⟨rfl, posted, rfl⟩
        exact ⟨rfl, posted, fun h => absurd h hdiff.1, rfl⟩
    next => exact ⟨rfl, s.posted, fun _ => rfl, rfl⟩
  unfold alvsStateSyncUpdateConn
  rw [wp_bind, wp_get, hres]
  refine wp_bind_of hstats ?_
  rintro _ _ _ ⟨rfl, posted, hposted, rfl⟩
  refine wp_bind_of (env_stateSyncBindConn c) ?_
  rintro c' _ _ ⟨rfl, rfl, rfl⟩
  simp only [alvsConnInfoModify, wp_bind, wp_modify, wp_call_env]
  intro e he
  simp only [dpHandle, hinfo, reduceCtorEq, if_false]
  refine wp_bind_of (env_unlock hash) ?_
  rintro _ _ _ rfl
  exact ⟨posted, hposted, rfl⟩

end Functions

/-! ## The processing of a record -/

section Record

variable {r : StateSyncConn} {m : Cmem} {s : Nps}

/-- The entry of a connection with another server is deleted, and a new one made. -/
theorem env_replaceConn {i : UInt32} {c : ConnInfoResult} (hash : UInt32)
    (hkey : m.connClassKey = r.classKey) (hres : m.connInfoResult = c)
    (hclass : s.connClassification r.classKey = some i) (hinfo : s.connInfo i = some c)
    (hnew : s.NewHere r) (hupdates : ∀ i c, ¬ s.Updates r i c) :
    (do alvsConnDeleteWithoutLock .syncConn i; alvsStateSyncCreateConn r hash : Dp Int).wp
      noFailureSpec (fun _ _ s' => SyncEffect s r s') m s := by
  have hentry : ∀ {c'}, s.HasConn r.classKey c' → c' = c := by
    rintro c' ⟨i', hi', hc'⟩
    obtain rfl := Option.some.inj (hi'.symm.trans hclass)
    exact Option.some.inj (hc'.symm.trans hinfo)
  refine wp_bind_of (env_connDelete .syncConn hres hinfo) ?_
  rintro _ m₁ s₁ ⟨hkey₁, ⟨hnone, rfl⟩ | ⟨hsome, hclass₁, hinfo₁, hserver₁, hservers₁, htotal₁⟩⟩
  · refine wp_mono (env_stateSyncCreateConn hash (hkey₁.trans hkey)) ?_
    rintro _ _ s₂ (⟨⟨j, hj, hnoInfo⟩, rfl⟩ | ⟨hmakes, hsame, b, server, port, hchosen, hconn⟩)
    · refine .ignored (fun h => h.2 j hj hnoInfo) ?_ hupdates
      rintro ⟨-, -, c', hc', hclass'⟩
      rw [hentry hc', hnone] at hclass'
      exact hclass' rfl
    · refine .created ⟨hnew, hmakes⟩ hchosen hconn hsame.classification hsame.info ?_
      intro c' info hc' hkey' _
      rw [← hentry hc', hkey', hclass] at hnone
      cases hnone
  · refine wp_mono (env_stateSyncCreateConn hash (hkey₁.trans hkey)) ?_
    rintro _ _ s₂ (⟨⟨j, hj, hnoInfo⟩, rfl⟩ | ⟨hmakes, hsame, b, server, port, hchosen, hconn⟩)
    · rw [hserver₁] at hj
      rw [hservers₁] at hnoInfo
      refine .dropped ⟨hnew, ⟨j, hj, hnoInfo⟩, c, ⟨i, hclass, hinfo⟩, hsome⟩ ?_ hserver₁ hservers₁
      rintro c' ⟨i', hi', hc'⟩
      rw [hclass₁, Function.update_apply] at hi'
      split at hi'
      · cases hi'
      · obtain rfl := Option.some.inj (hi'.symm.trans hclass)
        rw [hinfo₁, Function.update_self] at hc'
        cases hc'
    · rw [hserver₁] at hmakes
      rw [hservers₁] at hmakes
      refine .created ⟨hnew, hmakes⟩ ⟨?_, ?_⟩ hconn (hsame.classification.trans hserver₁)
        (hsame.info.trans hservers₁) ?_
      · exact fun j hj => hchosen.bound j (hserver₁ ▸ hj)
      · exact fun hnone => hchosen.unbound (hserver₁ ▸ hnone)
      · intro c' info hc' _ hserverInfo
        rw [hentry hc'] at hserverInfo
        rw [hsame.total]
        exact htotal₁ info hserverInfo

/-- The record of a connection that has an entry. -/
theorem env_stateSyncExistingConn {i : UInt32} (hash : UInt32) (hkey : m.connClassKey = r.classKey)
    (hclass : s.connClassification r.classKey = some i) :
    (alvsStateSyncExistingConn r i hash).wp noFailureSpec
      (fun _ _ s' => SyncEffect s r s') m s := by
  unfold alvsStateSyncExistingConn
  have hnew : s.NewHere r ↔
      ∃ c ∈ s.connInfo i, ∃ a ∈ s.connServer c, a ≠ r.server ∧ ¬ r.Inactive := by
    rw [Nps.NewHere, hclass]
  have hentry : ∀ {i' c}, s.Updates r i' c → s.connInfo i = some c := fun h => by
    obtain rfl := Option.some.inj (h.classification.symm.trans hclass)
    exact h.info
  -- a record that neither replaces nor updates the entry
  have hignored : ¬ s.NewHere r → (∀ c, s.connInfo i = some c → s.connServer c ≠ some r.server) →
      SyncEffect s r s := fun hold hother =>
    .ignored (fun h => hold h.1) (fun h => hold h.1) fun _ c h => hother c (hentry h) h.server
  refine wp_bind_of (env_connInfoLookup _ i) ?_
  rintro found m₁ s₁ ⟨rfl, hkey₁, ⟨rfl, hnone⟩ | ⟨c, rfl, hinfo, hres⟩⟩
  · refine wp_bind_of (env_unlock hash) ?_
    rintro _ _ _ rfl
    refine hignored (fun h => ?_) fun c hc => ?_
    · obtain ⟨c, hc, -⟩ := hnew.mp h
      rw [hnone] at hc
      cases hc
    · rw [hnone] at hc
      cases hc
  have hsame : ∀ {c'}, s₁.connInfo i = some c' → c' = c := fun h =>
    Option.some.inj (h.symm.trans hinfo)
  simp only [if_true, wp_bind, wp_get, hres]
  refine wp_mono (env_connServer c) ?_
  rintro found m₂ s₂ ⟨rfl, hkey₂, hres₂, ⟨rfl, hserver⟩ | ⟨rfl, hserver⟩⟩
  · refine wp_bind_of (env_unlock hash) ?_
    rintro _ _ _ rfl
    refine hignored (fun h => ?_) fun c' hc' => ?_
    · obtain ⟨c', hc', a, ha, -⟩ := hnew.mp h
      rw [hsame hc', hserver] at ha
      cases ha
    · rw [hsame hc', hserver]
      simp
  rw [if_pos rfl, wp_bind, wp_get]
  generalize (if c.bound then m₂.serverInfoResult.serverIp else c.serverAddr) = addr at hserver
  generalize (if c.bound then m₂.serverInfoResult.serverPort else c.serverPort) = port at hserver
  refine (wp_ite _ _ _ _).mpr ⟨fun hchanged => ?_, fun hsameServer => ?_⟩
  · have hne : (addr, port) ≠ r.server := fun heq =>
      hchanged.elim (fun h => h (congrArg Prod.snd heq).symm)
        fun h => h (congrArg Prod.fst heq).symm
    have hother : ∀ c', s₂.connInfo i = some c' → s₂.connServer c' ≠ some r.server := by
      intro c' hc' heq
      rw [hsame hc', hserver] at heq
      exact hne (Option.some.inj heq)
    refine (wp_ite _ _ _ _).mpr ⟨fun hactive => ?_, fun hinactive => ?_⟩
    · exact env_replaceConn hash ((hkey₂.trans hkey₁).trans hkey) (hres₂.trans hres) hclass hinfo
        (hnew.mpr ⟨c, hinfo, _, hserver, hne, fun h => h hactive⟩)
        fun _ c' h => hother c' (hentry h) h.server
    · refine wp_bind_of (env_unlock hash) ?_
      rintro _ _ _ rfl
      refine hignored (fun h => ?_) hother
      obtain ⟨_, _, _, _, _, hactive⟩ := hnew.mp h
      exact hactive hinactive
  · have hserver' : (addr, port) = r.server := by
      rw [not_or, not_not, not_not] at hsameServer
      exact Prod.ext hsameServer.2.symm hsameServer.1.symm
    refine wp_mono (env_stateSyncUpdateConn hash (hres₂.trans hres) hinfo) ?_
    rintro _ _ _ ⟨posted, hposted, rfl⟩
    exact .updated ⟨hclass, hinfo, hserver.trans (congrArg some hserver')⟩ hposted

/-- What the processing of a record does, if no call fails. -/
theorem env_stateSyncProcessConn (hr : r.Supported) :
    (alvsStateSyncProcessConn r).wp noFailureSpec (fun _ _ s' => SyncEffect s r s') m s := by
  rw [stateSyncProcessConn_eq hr]
  simp only [wp_bind, wp_modify, alvsLockConnection, wp_get, wp_call_env, dpHandle]
  intro _ _ e he
  have hfails : e.fails = false := he
  simp only [hfails, Bool.false_eq_true, if_false]
  cases hclass : s.connClassification r.classKey with
  | some i => exact env_stateSyncExistingConn _ rfl hclass
  | none =>
    have hnew : s.NewHere r := by
      rw [Nps.NewHere, hclass]
      trivial
    have hnoConn : ∀ c, ¬ s.HasConn r.classKey c := by
      rintro c ⟨i, hi, -⟩
      rw [hclass] at hi
      cases hi
    refine wp_mono (env_stateSyncCreateConn _ rfl) ?_
    rintro _ _ s' (⟨⟨j, hj, hnoInfo⟩, rfl⟩ | ⟨hmakes, hsame, b, server, port, hchosen, hconn⟩)
    · refine .ignored (fun h => h.2 j hj hnoInfo) (fun h => ?_) fun i c h => ?_
      · obtain ⟨-, -, c, hc, -⟩ := h
        exact hnoConn c hc
      · exact hnoConn c ⟨i, h.classification, h.info⟩
    · exact .created ⟨hnew, hmakes⟩ hchosen hconn hsame.classification hsame.info
        fun c _ hc => absurd hc (hnoConn c)

end Record

/-! ## The flags -/

section Flags

theorem xor_merge_and {u v : UInt32} (huv : v &&& u = v) (x f : UInt32) :
    (((x &&& u) ||| (f &&& ~~~u)) ^^^ x) &&& v = 0 := by
  rw [← huv]
  apply UInt32.toBitVec_inj.mp
  ext k hk
  simp only [UInt32.toBitVec_and, UInt32.toBitVec_or, UInt32.toBitVec_not, UInt32.toBitVec_xor,
    BitVec.getElem_and, BitVec.getElem_or, BitVec.getElem_not, BitVec.getElem_xor]
  cases (x.toBitVec[k]) <;> cases (u.toBitVec[k]) <;> simp

theorem merge_merge (x f u : UInt32) :
    (x &&& u) ||| (((x &&& u) ||| (f &&& ~~~u)) &&& ~~~u) = (x &&& u) ||| (f &&& ~~~u) := by
  apply UInt32.toBitVec_inj.mp
  ext k hk
  simp only [UInt32.toBitVec_and, UInt32.toBitVec_or, UInt32.toBitVec_not, BitVec.getElem_and,
    BitVec.getElem_or, BitVec.getElem_not]
  cases (x.toBitVec[k]) <;> cases (u.toBitVec[k]) <;> simp

theorem merge_and {u v : UInt32} (huv : v &&& u = v) (x f : UInt32) :
    ((x &&& u) ||| (f &&& ~~~u)) &&& v = x &&& v := by
  rw [← huv]
  apply UInt32.toBitVec_inj.mp
  ext k hk
  simp only [UInt32.toBitVec_and, UInt32.toBitVec_or, UInt32.toBitVec_not, BitVec.getElem_and,
    BitVec.getElem_or, BitVec.getElem_not]
  cases (x.toBitVec[k]) <;> cases (u.toBitVec[k]) <;> simp

theorem inactive_updMask : ipVsConnFInactive &&& ipVsConnFBackupUpdMask = ipVsConnFInactive := by
  decide

theorem masked_and {x mask y v : UInt32} (hmask : mask &&& v = v) (hy : y &&& v = 0) :
    (x &&& mask ||| y) &&& v = x &&& v := by
  apply UInt32.toBitVec_inj.mp
  ext k hk
  have hmaskBit := congrArg (·.toBitVec[k]) hmask
  have hyBit := congrArg (·.toBitVec[k]) hy
  simp only [UInt32.toBitVec_and, UInt32.toBitVec_or, BitVec.getElem_and, BitVec.getElem_or]
    at hmaskBit hyBit ⊢
  rw [Bool.and_or_distrib_right, hyBit, Bool.and_assoc, hmaskBit]
  simp

/-- The flags that are kept of a record have its INACTIVE flag. -/
theorem backupFlags_inactive (r : StateSyncConn) :
    r.backupFlags &&& ipVsConnFInactive = r.flags &&& ipVsConnFInactive :=
  masked_and (by decide) (by decide)

/-- INACTIVE is one bit. -/
theorem and_inactive (x : UInt32) :
    x &&& ipVsConnFInactive = 0 ∨ x &&& ipVsConnFInactive = ipVsConnFInactive := by
  have hbit : (x &&& ipVsConnFInactive).toNat = (x.toNat.testBit 8).toNat * 2 ^ 8 := by
    rw [UInt32.toNat_and, show ipVsConnFInactive.toNat = 2 ^ 8 from rfl, Nat.and_two_pow]
  cases hb : x.toNat.testBit 8 with
  | false => exact .inl (UInt32.toNat_inj.mp (by rw [hbit, hb]; rfl))
  | true => exact .inr (UInt32.toNat_inj.mp (by rw [hbit, hb]; rfl))

/-- A new entry is left by an update exactly if the INACTIVE flag of the record says what its
state does. -/
theorem synced_newConnInfo_iff (r : StateSyncConn) (b : Bool) (server : UInt32) (port : UInt16) :
    (newConnInfo r.classKey b server port r.state r.backupFlags false).synced r =
        newConnInfo r.classKey b server port r.state r.backupFlags false ↔
      (r.Inactive ↔ r.state ≠ ipVsTcpSEstablished.toUInt16) := by
  have hflags : (newConnInfo r.classKey b server port r.state r.backupFlags false).synced r =
        newConnInfo r.classKey b server port r.state r.backupFlags false ↔
      (r.backupFlags &&& ipVsConnFBackupUpdMask) |||
        ((newConnInfo r.classKey b server port r.state r.backupFlags false).connFlags &&&
          ~~~ipVsConnFBackupUpdMask) =
        (newConnInfo r.classKey b server port r.state r.backupFlags false).connFlags := by
    constructor
    · exact congrArg ConnInfoResult.connFlags
    · intro h
      unfold ConnInfoResult.synced
      rw [h]
      rfl
  rw [hflags, StateSyncConn.Inactive, ← backupFlags_inactive]
  generalize r.backupFlags = x
  constructor
  · intro h
    have hx := congrArg (· &&& ipVsConnFInactive) h
    rw [merge_and inactive_updMask] at hx
    simp only [newConnInfo] at hx
    split at hx
    next hest =>
      rw [hx, Word.and_not_and]
      simp [hest]
    next hest =>
      rw [hx, Word.or_and_self]
      exact ⟨fun _ => hest, fun _ => by decide⟩
  · intro h
    simp only [newConnInfo]
    split
    next hest =>
      have hx : x &&& ipVsConnFInactive = 0 := by
        by_contra hne
        exact h.mp hne hest
      rw [Word.and_not_of_and_eq_zero hx, Word.merge_self]
    next hest =>
      have hx : x &&& ipVsConnFInactive = ipVsConnFInactive :=
        (and_inactive x).resolve_left (h.mpr hest)
      rw [Word.or_of_and_eq hx, Word.merge_self]

theorem synced_synced (c : ConnInfoResult) (r : StateSyncConn) :
    (c.synced r).synced r = c.synced r := by
  unfold ConnInfoResult.synced
  dsimp only
  rw [merge_merge]

end Flags

/-! ## The second processing -/

/-- The tables of connections are the same, and for every server the counters of active, of
inactive and of all connections. -/
structure Nps.SameConnState (s s' : Nps) : Prop where
  classification : s'.connClassification = s.connClassification
  info : s'.connInfo = s.connInfo
  active : ∀ j info, s.serverInfo j = some info →
    s'.posted (info.serverStatsBase.add alvsServerStatsActiveConnOffset) =
      s.posted (info.serverStatsBase.add alvsServerStatsActiveConnOffset)
  inactive : ∀ j info, s.serverInfo j = some info →
    s'.posted (info.serverStatsBase.add alvsServerStatsInactiveConnOffset) =
      s.posted (info.serverStatsBase.add alvsServerStatsInactiveConnOffset)
  total : ∀ j info, s.serverInfo j = some info →
    s'.onDemand info.connTotal = s.onDemand info.connTotal

/-- The server that is found for the record has another address or port in its info entry. -/
def Nps.Elsewhere (s : Nps) (r : StateSyncConn) : Prop :=
  ∃ j ∈ s.serverClassification r.serverKey, ∃ info ∈ s.serverInfo j, info.server ≠ r.server

/-- The record binds an entry that is not bound. -/
def Nps.Binds (s : Nps) (r : StateSyncConn) : Prop :=
  ∃ i ∈ s.connClassification r.classKey, ∃ c ∈ s.connInfo i,
    c.bound = false ∧ s.connServer c = some r.server

/-- The condition : where the record makes an entry, its INACTIVE flag says what its state
does. Where the server that is found is another one, so that the entry that is made or bound
is not of the server of the record, the record is INACTIVE. -/
structure Nps.SyncsOnce (s : Nps) (r : StateSyncConn) : Prop where
  state : s.MakesEntry r → ¬ s.Elsewhere r → (r.Inactive ↔ r.state ≠ ipVsTcpSEstablished.toUInt16)
  server : s.Elsewhere r → s.MakesEntry r ∨ s.Binds r → r.Inactive

section Second

variable {s s' : Nps} {r : StateSyncConn}

theorem Nps.SameConnState.refl (s : Nps) : s.SameConnState s :=
  ⟨rfl, rfl, fun _ _ _ => rfl, fun _ _ _ => rfl, fun _ _ _ => rfl⟩

theorem Nps.Updates.not_newHere {i : UInt32} {c : ConnInfoResult} (h : s.Updates r i c) :
    ¬ s.NewHere r := by
  rw [Nps.NewHere, h.classification]
  rintro ⟨c', hc', a, ha, hne, -⟩
  obtain rfl := Option.some.inj (hc'.symm.trans h.info)
  exact hne (Option.some.inj (ha.symm.trans h.server))

/-- A record of an entry that it updates leaves everything exactly if it leaves the entry. -/
theorem sameConnState_of_updates {i : UInt32} {c : ConnInfoResult} (h : s.Updates r i c)
    (he : SyncEffect s r s') : s.SameConnState s' ↔ (s.rebound r c).synced r = c := by
  cases he with
  | ignored _ _ hupdates => exact absurd h (hupdates i c)
  | dropped hdrops => exact absurd hdrops.1 h.not_newHere
  | created hmakes => exact absurd hmakes.1 h.not_newHere
  | @updated i' c' posted h' hposted =>
    obtain rfl := Option.some.inj (h'.classification.symm.trans h.classification)
    obtain rfl := Option.some.inj (h'.info.symm.trans h.info)
    constructor
    · intro hsame
      have hentry := congrFun hsame.info i'
      rw [h.info] at hentry
      exact Option.some.inj ((Function.update_self i' _ s.connInfo).symm.trans hentry)
    · intro hkept
      have hflags : c'.connFlags = (r.backupFlags &&& ipVsConnFBackupUpdMask) |||
          ((s.rebound r c').connFlags &&& ~~~ipVsConnFBackupUpdMask) :=
        (congrArg ConnInfoResult.connFlags hkept).symm
      have hposted' := hposted (by rw [hflags]; exact xor_merge_and inactive_updMask _ _)
      have hinfo :
          Function.update s.connInfo i' (some ((s.rebound r c').synced r)) = s.connInfo := by
        rw [hkept, ← h.info, Function.update_eq_self]
      rw [hposted', hinfo]
      exact .refl s

/-- A record that finds nothing to do leaves everything. -/
theorem sameConnState_of_idle (hmakes : ¬ s.MakesEntry r) (hdrops : ¬ s.Drops r)
    (hupdates : ∀ i c, ¬ s.Updates r i c) (he : SyncEffect s r s') : s.SameConnState s' := by
  cases he with
  | ignored => exact .refl s
  | dropped h => exact absurd h hdrops
  | created h => exact absurd h hmakes
  | updated h => exact absurd h (hupdates _ _)

/-- A record that replaces an entry of a known server does not. -/
theorem not_sameConnState_of_replaces {c : ConnInfoResult} {info : ServerInfoResult}
    (hmakes : s.MakesEntry r) (hconn : s.HasConn r.classKey c)
    (hinfo : s.serverInfo c.serverIndex = some info) (he : SyncEffect s r s') :
    ¬ s.SameConnState s' := by
  intro hsame
  cases he with
  | ignored h => exact h hmakes
  | dropped h => exact hmakes.2 _ h.2.1.choose_spec.1 h.2.1.choose_spec.2
  | updated h => exact h.not_newHere hmakes.1
  | created _ _ hnew _ _ htotal =>
    obtain ⟨i, hi, hc⟩ := hconn
    obtain ⟨i', hi', hc'⟩ := hnew
    rw [hsame.classification] at hi'
    rw [hsame.info] at hc'
    obtain rfl := Option.some.inj (hi'.symm.trans hi)
    obtain rfl := Option.some.inj (hc'.symm.trans hc)
    have hless := htotal _ info ⟨i', hi, hc⟩ rfl hinfo
    rw [hsame.total _ info hinfo] at hless
    omega

/-- The server of an entry goes by the info entries alone. -/
theorem connServer_congr (h : s'.serverInfo = s.serverInfo) (c : ConnInfoResult) :
    s'.connServer c = s.connServer c := by
  rw [Nps.connServer, h, Nps.connServer]

theorem connServer_bound {c : ConnInfoResult} {info : ServerInfoResult} (hb : c.bound = true)
    (hinfo : s.serverInfo c.serverIndex = some info) : s.connServer c = some info.server := by
  rw [Nps.connServer, if_pos hb, hinfo]
  rfl

/-- A record of an entry of another server, the one that is found for the record. -/
theorem sameConnState_of_elsewhere {i : UInt32} {c : ConnInfoResult} {info : ServerInfoResult}
    (hi : s.connClassification r.classKey = some i) (hc : s.connInfo i = some c)
    (hb : c.bound = true) (hj : s.serverClassification r.serverKey = some c.serverIndex)
    (hinfo : s.serverInfo c.serverIndex = some info) (hne : info.server ≠ r.server)
    (he : SyncEffect s r s') : s.SameConnState s' ↔ r.Inactive := by
  have hserver := connServer_bound hb hinfo
  have hnew : s.NewHere r ↔ ¬ r.Inactive := by
    rw [Nps.NewHere, hi]
    constructor
    · rintro ⟨_, _, _, _, _, h⟩
      exact h
    · exact fun h => ⟨c, hc, _, hserver, hne, h⟩
  by_cases hinactive : r.Inactive
  · have hold : ¬ s.NewHere r := fun h => hnew.mp h hinactive
    refine iff_of_true (sameConnState_of_idle (fun h => hold h.1) (fun h => hold h.1) ?_ he)
      hinactive
    intro i' c' h
    obtain rfl := Option.some.inj (h.classification.symm.trans hi)
    obtain rfl := Option.some.inj (h.info.symm.trans hc)
    exact hne (Option.some.inj (hserver.symm.trans h.server))
  · refine iff_of_false (not_sameConnState_of_replaces ⟨hnew.mpr hinactive, ?_⟩ ⟨i, hi, hc⟩ hinfo
      he)
      hinactive
    intro j hj'
    obtain rfl := Option.some.inj (hj'.symm.trans hj)
    rw [hinfo]
    exact Option.some_ne_none info

/-- After a new entry was made. -/
theorem sameConnState_of_created {s₁ : Nps} {b : Bool} {server : UInt32} {port : UInt16}
    (hmakes : s.MakesEntry r) (hserver : ServerChosen s r.serverKey b server port)
    (hconn : s₁.HasConn r.classKey
      (newConnInfo r.classKey b server port r.state r.backupFlags false))
    (hclass : s₁.serverClassification = s.serverClassification)
    (hinfo : s₁.serverInfo = s.serverInfo) (he : SyncEffect s₁ r s') :
    s₁.SameConnState s' ↔ s.SyncsOnce r := by
  obtain ⟨i, hi, hc⟩ := hconn
  -- the entry is of the server of the record
  have hsame : ¬ s.Elsewhere r →
      s₁.connServer (newConnInfo r.classKey b server port r.state r.backupFlags false) =
        some r.server →
      s₁.rebound r (newConnInfo r.classKey b server port r.state r.backupFlags false) =
        newConnInfo r.classKey b server port r.state r.backupFlags false →
      (s₁.SameConnState s' ↔ s.SyncsOnce r) := fun hhere hserver hrebound => by
    rw [sameConnState_of_updates ⟨hi, hc, hserver⟩ he, hrebound, synced_newConnInfo_iff]
    exact ⟨fun h => ⟨fun _ _ => h, fun h' => absurd h' hhere⟩, fun h => h.state hmakes hhere⟩
  cases hj : s.serverClassification r.serverKey with
  | none =>
    obtain ⟨rfl, rfl, rfl⟩ := hserver.unbound hj
    refine hsame ?_ rfl ?_
    · rintro ⟨j, hj', -⟩
      rw [hj] at hj'
      cases hj'
    · rw [Nps.rebound, hclass, hj]
      rfl
  | some j =>
    obtain ⟨rfl, rfl⟩ := hserver.bound j hj
    obtain ⟨info, hsome⟩ := Option.ne_none_iff_exists'.mp (hmakes.2 server hj)
    have hentryServer : s₁.connServer
        (newConnInfo r.classKey true server port r.state r.backupFlags false) =
          some info.server := connServer_bound rfl (hinfo ▸ hsome)
    by_cases hother : info.server = r.server
    · refine hsame ?_ (hentryServer.trans (congrArg some hother)) rfl
      rintro ⟨j', hj', info', hinfo', hne⟩
      obtain rfl := Option.some.inj (hj'.symm.trans hj)
      obtain rfl := Option.some.inj (hinfo'.symm.trans hsome)
      exact hne hother
    · have helse : s.Elsewhere r := ⟨server, hj, info, hsome, hother⟩
      rw [sameConnState_of_elsewhere hi hc rfl (hclass ▸ hj) (hinfo ▸ hsome) hother he]
      exact ⟨fun h => ⟨fun _ h' => absurd helse h', fun _ _ => h⟩,
        fun h => h.server helse (.inl hmakes)⟩

/-- After an entry was updated. -/
theorem sameConnState_of_updated {i : UInt32} {c : ConnInfoResult} {posted : SumAddr → Int}
    (hupdates : s.Updates r i c) (he : SyncEffect { s with
      connInfo := Function.update s.connInfo i (some ((s.rebound r c).synced r))
      posted := posted } r s') :
    Nps.SameConnState { s with
      connInfo := Function.update s.connInfo i (some ((s.rebound r c).synced r))
      posted := posted } s' ↔ s.SyncsOnce r := by
  set s₁ : Nps := { s with
    connInfo := Function.update s.connInfo i (some ((s.rebound r c).synced r))
    posted := posted } with hs₁
  have hold : ¬ s.MakesEntry r := fun h => hupdates.not_newHere h.1
  have hi : s₁.connClassification r.classKey = some i := hupdates.classification
  have hc : s₁.connInfo i = some ((s.rebound r c).synced r) := Function.update_self _ _ _
  have hservers : s₁.serverInfo = s.serverInfo := rfl
  have hbinds : ∀ {c'},
      (∃ i ∈ s.connClassification r.classKey, s.connInfo i = some c') → c' = c := by
    rintro c' ⟨i', hi', hc'⟩
    obtain rfl := Option.some.inj (hi'.symm.trans hi)
    exact Option.some.inj (hc'.symm.trans hupdates.info)
  have honce : (s.Elsewhere r → s.Binds r → r.Inactive) → s.SyncsOnce r := fun h =>
    ⟨fun h' => absurd h' hold, fun h' h'' => h h' (h''.resolve_left hold)⟩
  -- the entry is still of the server of the record
  have hsame : s₁.connServer ((s.rebound r c).synced r) = some r.server →
      s₁.rebound r ((s.rebound r c).synced r) = (s.rebound r c).synced r →
      (s.Elsewhere r → s.Binds r → r.Inactive) → (s₁.SameConnState s' ↔ s.SyncsOnce r) :=
    fun hserver hrebound helse => by
      refine iff_of_true ((sameConnState_of_updates ⟨hi, hc, hserver⟩ he).mpr ?_) (honce helse)
      rw [hrebound, synced_synced]
  cases hb : c.bound with
  | true =>
    have hrebound : s.rebound r c = c := by rw [Nps.rebound, if_pos hb]
    rw [hrebound] at hsame
    refine hsame hupdates.server ?_ ?_
    · have hb₁ : (c.synced r).bound = true := hb
      rw [Nps.rebound, if_pos hb₁]
    · rintro - ⟨i', hi', c', hc', hb', -⟩
      rw [hbinds ⟨i', hi', hc'⟩, hb] at hb'
      cases hb'
  | false =>
    cases hj : s.serverClassification r.serverKey with
    | none =>
      have hrebound : s.rebound r c = c := by
        rw [Nps.rebound, hb, hj]
        rfl
      rw [hrebound] at hsame
      refine hsame hupdates.server ?_ ?_
      · have hj₁ : s₁.serverClassification r.serverKey = none := hj
        have hb₁ : (c.synced r).bound = false := hb
        rw [Nps.rebound, hb₁, hj₁]
        rfl
      · rintro ⟨j, hj', -⟩
        rw [hj] at hj'
        cases hj'
    | some j =>
      have hrebound : s.rebound r c = { c with serverIndex := j, bound := true } := by
        rw [Nps.rebound, hb, hj]
        rfl
      rw [hrebound] at hsame hc
      cases hinfo : s.serverInfo j with
      | none =>
        have hserver : s₁.connServer
            (ConnInfoResult.synced { c with serverIndex := j, bound := true } r) = none := by
          rw [connServer_congr hservers, Nps.connServer]
          exact congrArg (Option.map _) hinfo
        have hold₁ : ¬ s₁.NewHere r := by
          rw [Nps.NewHere, hi]
          rintro ⟨c', hc', a, ha, -⟩
          obtain rfl := Option.some.inj (hc'.symm.trans hc)
          rw [hserver] at ha
          cases ha
        refine iff_of_true (sameConnState_of_idle (fun h => hold₁ h.1) (fun h => hold₁ h.1) ?_ he)
          (honce ?_)
        · intro i' c' h
          obtain rfl := Option.some.inj (h.classification.symm.trans hi)
          obtain rfl := Option.some.inj (h.info.symm.trans hc)
          exact absurd (hserver.symm.trans h.server) nofun
        · rintro ⟨j', hj', info', hinfo', -⟩
          obtain rfl := Option.some.inj (hj'.symm.trans hj)
          exact absurd (hinfo.symm.trans hinfo') nofun
      | some info =>
        have hserver : s₁.connServer
            (ConnInfoResult.synced { c with serverIndex := j, bound := true } r) =
              some info.server := connServer_bound rfl hinfo
        by_cases hother : info.server = r.server
        · refine hsame (hserver.trans (congrArg some hother)) rfl ?_
          rintro ⟨j', hj', info', hinfo', hne⟩
          obtain rfl := Option.some.inj (hj'.symm.trans hj)
          obtain rfl := Option.some.inj (hinfo'.symm.trans hinfo)
          exact absurd hother hne
        · have helse : s.Elsewhere r := ⟨j, hj, info, hinfo, hother⟩
          have hbind : s.Binds r := ⟨i, hi, c, hupdates.info, hb, hupdates.server⟩
          rw [sameConnState_of_elsewhere hi hc rfl hj hinfo hother he]
          exact ⟨fun h => honce fun _ _ => h, fun h => h.server helse (.inr hbind)⟩

/-- The second of two processings changes something exactly where the condition fails. -/
theorem sameConnState_iff {s₁ s₂ : Nps} (h₁ : SyncEffect s r s₁) (h₂ : SyncEffect s₁ r s₂) :
    s₁.SameConnState s₂ ↔ s.SyncsOnce r := by
  have hidle : ¬ s.MakesEntry r → (∀ i c, ¬ s.Updates r i c) → s.SyncsOnce r := by
    intro hmakes hupdates
    refine ⟨fun h => absurd h hmakes, fun _ h => h.elim (fun h => absurd h hmakes) ?_⟩
    rintro ⟨i, hi, c, hc, -, hserver⟩
    exact absurd ⟨hi, hc, hserver⟩ (hupdates i c)
  cases h₁ with
  | ignored hmakes hdrops hupdates =>
    exact iff_of_true (sameConnState_of_idle hmakes hdrops hupdates h₂) (hidle hmakes hupdates)
  | dropped hdrops hconn hclass hinfo =>
    obtain ⟨hnew, ⟨j, hj, hnoInfo⟩, -⟩ := hdrops
    refine iff_of_true (sameConnState_of_idle ?_ ?_ ?_ h₂) (hidle ?_ fun i c h =>
      h.not_newHere hnew)
    · rintro ⟨-, hmakes⟩
      rw [hclass, hinfo] at hmakes
      exact hmakes j hj hnoInfo
    · rintro ⟨-, -, c, hc, -⟩
      exact hconn c hc
    · exact fun i c h => hconn c ⟨i, h.classification, h.info⟩
    · exact fun h => h.2 j hj hnoInfo
  | created hmakes hserver hconn hclass hinfo =>
    exact sameConnState_of_created hmakes hserver hconn hclass hinfo h₂
  | updated hupdates => exact sameConnState_of_updated hupdates h₂

/-- A record that does not pass the checks is not processed. -/
theorem processConn_of_unsupported (hr : ¬ r.Supported) (m : Cmem) (es : Nat → DpEnv) :
    (((alvsStateSyncProcessConn r).run m).execEnv dpHandle es s).2 = s := by
  unfold alvsStateSyncProcessConn
  split
  next => rfl
  next hversion =>
    split
    next => rfl
    next htype =>
      split
      next => rfl
      next hproto =>
        rw [not_and_or, not_not, not_not] at hproto
        exact absurd ⟨not_not.mp hversion, not_not.mp htype, hproto⟩ hr

/-- A record is received twice, with no failing call, and the service and server tables are the
same. -/
theorem sync_twice_iff (r : StateSyncConn) (s : Nps) (m m' : Cmem) (es es' : Nat → DpEnv) :
    let s₁ := (((alvsStateSyncProcessConn r).run m).execEnv dpHandle es s).2
    let s₂ := (((alvsStateSyncProcessConn r).run m').execEnv dpHandle es' s₁).2
    ((alvsStateSyncProcessConn r).run m).CallsOk noFailure dpHandle es s →
    ((alvsStateSyncProcessConn r).run m').CallsOk noFailure dpHandle es' s₁ →
    (s₁.SameConnState s₂ ↔ (r.Supported → s.SyncsOnce r)) := by
  intro s₁ s₂ hok hok'
  by_cases hr : r.Supported
  · have h₁ : SyncEffect s r s₁ := Prog.execEnv_of_wp _ (env_stateSyncProcessConn hr) hok
    have h₂ : SyncEffect s₁ r s₂ := Prog.execEnv_of_wp _ (env_stateSyncProcessConn hr) hok'
    rw [sameConnState_iff h₁ h₂]
    exact ⟨fun h _ => h, fun h => h hr⟩
  · have hkept : s₂ = s₁ := processConn_of_unsupported hr m' es'
    rw [hkept]
    exact iff_of_true (.refl s₁) fun h => absurd h hr

/-- The record of an established connection that is not known, and not INACTIVE. -/
theorem sync_twice_established :
    let r := exampleRecord ipVsConnFDroute ipVsTcpSEstablished.toUInt16 0x0a000002 80
    let s₁ := (((alvsStateSyncProcessConn r).run .zero).execEnv dpHandle (fun _ => exampleEnv)
      Sys.init.nps).2
    let s₂ := (((alvsStateSyncProcessConn r).run .zero).execEnv dpHandle (fun _ => exampleEnv) s₁).2
    (s₁.connInfo 0).isSome = true ∧ s₁.SameConnState s₂ :=
  ⟨by decide +kernel,
    (sync_twice_iff _ _ .zero .zero (fun _ => exampleEnv) (fun _ => exampleEnv)
      (by decide +kernel) (by decide +kernel)).mpr
      fun _ => ⟨fun _ _ => by decide, fun h => absurd h (by rintro ⟨_, h, _⟩; cases h)⟩⟩

/-- The record of a connection that is being closed, with its INACTIVE flag clear, makes an
INACTIVE entry, and makes the entry active when it is received again. -/
theorem sync_twice_fails :
    ¬ ∀ (r : StateSyncConn) (s : Nps) (m m' : Cmem) (es es' : Nat → DpEnv),
      let s₁ := (((alvsStateSyncProcessConn r).run m).execEnv dpHandle es s).2
      let s₂ := (((alvsStateSyncProcessConn r).run m').execEnv dpHandle es' s₁).2
      ((alvsStateSyncProcessConn r).run m).CallsOk noFailure dpHandle es s →
      ((alvsStateSyncProcessConn r).run m').CallsOk noFailure dpHandle es' s₁ →
      s₁.SameConnState s₂ := by
  intro h
  have hsame := h (exampleRecord ipVsConnFDroute ipVsTcpSCloseWait.toUInt16 0x0a000002 80)
    Sys.init.nps .zero .zero (fun _ => exampleEnv) (fun _ => exampleEnv)
    (by decide +kernel) (by decide +kernel)
  exact absurd (congrFun hsame.info 0) (by decide +kernel)

end Second

end Alvs
