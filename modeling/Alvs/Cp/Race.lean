import Alvs.Cp.Inv
import Alvs.Lib.Runs

/-!
# The aging thread against the main thread

The aging thread and the main thread take turns at any call, each call fails or succeeds
as the environment says, and the data plane may change the counters before any call. The
calls of the aging thread are recorded with the state they are made in.

`AgingSafe` : the aging thread deletes rows that are inactive at that moment, and releases
an index only after a read of that index's connection count that succeeded and returned
0. It holds where no read fails while the value of the last
one is 0, and where no row is activated once the aging thread is bound to delete it
(`agingSafe_run`). `agingSafe_fails` has a run for each of the two that breaks it.
-/

namespace Alvs

open ProgLogic

/-! ## The two threads -/

inductive CpTid
  | main
  | aging
  deriving DecidableEq

/-- A call of the aging thread, its result, and the state it was made in. -/
structure AgingStep where
  before : Sys
  op : CpCall
  res : op.Res

/-- The state with the calls of the aging thread, the last one first. -/
structure Watched where
  sys : Sys
  log : List AgingStep

/-- What a call leaves open, and the counters as the data plane has left them. -/
structure RaceEnv extends CpEnv where
  counters : SumAddr → Int

/-- The state in which a call is made. -/
def Watched.current (w : Watched) (e : RaceEnv) : Sys :=
  { w.sys with nps := { w.sys.nps with onDemand := e.counters } }

def raceHandle (e : RaceEnv) (t : CpTid) (op : CpCall) (w : Watched) :
    Option (op.Res × Watched) :=
  let (r, s) := cpHandle e.toCpEnv op (w.current e)
  some (r, { sys := s, log := if t = .aging then ⟨w.current e, op, r⟩ :: w.log else w.log })

def raceJob (t : CpTid) (op : CpOp) (l : AgingLocal) : CpProg AgingLocal :=
  match t with
  | .main => (fun _ => l) <$> adminProgram op
  | .aging => serverDbAging l

def raceMachine : Machine CpTid Watched CpCall CpCall.Res AgingLocal CpOp RaceEnv where
  handle := raceHandle
  job := raceJob

/-- Both threads idle; `v₀` is what the variable `value` of the aging thread holds before
it is set. -/
def racePool (s : Sys) (v₀ : UInt64) : Pool CpTid Watched CpCall CpCall.Res AgingLocal where
  shared := ⟨s, []⟩
  thread _ := .ret ⟨v₀, false⟩

/-! ## What the aging thread has done -/

/-- The counter of the connections of the server with index `i`. -/
def connTotalAddr (i : UInt32) : SumAddr :=
  (serverOnDemandStatsBase i).add alvsServerStatsConnectionTotalOffset

/-- The value of the last read of a counter that succeeded. -/
def lastRead (v₀ : UInt64) : List AgingStep → UInt64
  | [] => v₀
  | ⟨_, .infraGetLongCounter _, r⟩ :: log => r.getD (lastRead v₀ log)
  | _ :: log => lastRead v₀ log

/-- The row that the aging thread has selected and not deleted. -/
def pendingRow : List AgingStep → Option ServerRow
  | [] => none
  | ⟨_, .stepInactiveServers, r⟩ :: _ => r.join
  | ⟨_, .internalDbDeleteServer _ _ _, _⟩ :: _ => none
  | _ :: log => pendingRow log

/-- The row that the aging thread has selected and whose counter it has just read as 0. -/
def condemnedRow : List AgingStep → Option ServerRow
  | ⟨_, .infraGetLongCounter _, some v⟩ :: log =>
    if v = (0 : UInt64) then pendingRow log else none
  | _ => none

/-- Since it last selected a row, the aging thread has read the connection count of index
`i` as 0. -/
def readZero (i : UInt32) : List AgingStep → Bool
  | [] => false
  | ⟨_, .stepInactiveServers, _⟩ :: _ => false
  | ⟨_, .infraGetLongCounter a, some v⟩ :: log =>
    decide (a = connTotalAddr i ∧ v = (0 : UInt64)) || readZero i log
  | _ :: log => readZero i log

/-- An active row has the key. -/
def Sys.ActiveKey (s : Sys) (k : ServiceTuple × UInt32 × UInt16) : Prop :=
  ∃ r ∈ s.cp.servers, r.key = k ∧ r.server.active = true

instance (s : Sys) (k : ServiceTuple × UInt32 × UInt16) : Decidable (s.ActiveKey k) :=
  inferInstanceAs (Decidable (∃ r ∈ s.cp.servers, r.key = k ∧ r.server.active = true))

/-- A row that the call deletes is not active. -/
def AgingStep.DeletesInactive : AgingStep → Prop
  | ⟨s, .internalDbDeleteServer t ip port, _⟩ => ¬ s.ActiveKey (t, ip, port)
  | _ => True

/-- An index that the call releases was read as 0 before. -/
def AgingStep.ReleasesRead (log : List AgingStep) : AgingStep → Prop
  | ⟨_, .serverIndexPoolRelease i, _⟩ => readZero i log = true
  | _ => True

instance (x : AgingStep) : Decidable x.DeletesInactive := by
  unfold AgingStep.DeletesInactive
  split <;> infer_instance

instance (log : List AgingStep) (x : AgingStep) : Decidable (x.ReleasesRead log) := by
  unfold AgingStep.ReleasesRead
  split <;> infer_instance

/-- The aging thread never deletes an active row, nor releases an index without having read
its connection count as 0. -/
def AgingSafe : List AgingStep → Prop
  | [] => True
  | x :: log => x.DeletesInactive ∧ x.ReleasesRead log ∧ AgingSafe log

instance AgingSafe.decidable : (log : List AgingStep) → Decidable (AgingSafe log)
  | [] => .isTrue trivial
  | x :: log =>
    have := AgingSafe.decidable log
    inferInstanceAs (Decidable (x.DeletesInactive ∧ x.ReleasesRead log ∧ AgingSafe log))

/-- The condition on a call : a read of a counter that fails does not leave the value 0,
and one that returns 0 finds the selected row inactive; no row is activated between that
read and its deletion. -/
def RaceOk (v₀ : UInt64) (e : RaceEnv) : CpTid → CpCall → Watched → Prop
  | .aging, .infraGetLongCounter a, w =>
    if e.fails then lastRead v₀ w.log ≠ 0
    else counterValue (e.counters a) = 0 →
      ∀ r ∈ pendingRow w.log, ¬ (w.current e).ActiveKey r.key
  | .main, .internalDbActivateServer t v, w =>
    e.fails = true ∨ ∀ r ∈ condemnedRow w.log, r.key ≠ (t, v.ip, v.port)
  | _, _, _ => True

instance (v₀ : UInt64) (e : RaceEnv) (t : CpTid) (op : CpCall) (w : Watched) :
    Decidable (RaceOk v₀ e t op w) := by
  unfold RaceOk
  split <;> infer_instance

/-! ## The main thread keeps the rows -/

/-- A call that deletes no row of `servers`. -/
def KeepsRows : CpCall → Prop
  | .internalDbDeleteServer _ _ _ => False
  | _ => True

theorem only_populateSchedInfo (npsIndex : UInt32) (buckets : List DbServer) :
    ∀ (inds : List Nat) (count : UInt16),
    (populateSchedInfo npsIndex buckets inds count).Only KeepsRows
  | [], _ => trivial
  | ind :: inds, count => by
    unfold populateSchedInfo
    split
    · refine .bind (.perform trivial) fun _ => ?_
      split
      exacts [only_populateSchedInfo npsIndex buckets inds _, trivial]
    · refine .bind (.perform trivial) fun _ => ?_
      split
      exacts [only_populateSchedInfo npsIndex buckets inds _, trivial]

theorem only_recalculate (v : DbService) :
    (alvsDbRecalculateSchedulingInfo v).Only KeepsRows := by
  unfold alvsDbRecalculateSchedulingInfo
  refine .bind (.perform trivial) fun _ => ?_
  split
  · refine .bind (.perform trivial) fun _ => ?_
    split
    · split
      · exact (only_populateSchedInfo _ _ _ _).bind fun _ => trivial
      · trivial
    · trivial
  · trivial

theorem only_deactivateServers (l : List DbServer) :
    ∀ n, (deactivateServers l n).Only KeepsRows
  | 0 => trivial
  | n + 1 => by
    unfold deactivateServers
    split
    · exact only_deactivateServers l n
    · refine .bind (.perform trivial) fun _ => ?_
      split
      exacts [trivial, only_deactivateServers l n]

theorem only_deleteServiceClassifications (l : List DbService) :
    ∀ inds, (deleteServiceClassifications l inds).Only KeepsRows
  | [] => trivial
  | ind :: inds => by
    unfold deleteServiceClassifications
    split
    · exact only_deleteServiceClassifications l inds
    · refine .bind (.perform trivial) fun _ => ?_
      split
      exacts [trivial, only_deleteServiceClassifications l inds]

theorem only_recalculateAndModifyServiceInfo (v : DbService) (modifyDb : Bool) :
    (recalculateAndModifyServiceInfo v modifyDb).Only KeepsRows := by
  unfold recalculateAndModifyServiceInfo
  refine (only_recalculate v).bind fun _ => ?_
  repeat' first
    | exact .pure _
    | refine .ite ?_ ?_
    | refine .bind (.perform trivial) fun _ => ?_

/-- No operation of the administrator deletes a row of `servers`. -/
theorem only_adminProgram (op : CpOp) : (adminProgram op).Only KeepsRows := by
  cases op <;> simp only [adminProgram, alvsDbAddService, alvsDbModifyService,
    alvsDbDeleteService, alvsDbAddServer, addServerRow, alvsDbModifyServer, alvsDbDeleteServer,
    alvsDbClear, alvsDbCleanServiceStats, alvsDbCleanServerStats, alvsClearOverloadedFlagOfServer]
  all_goals
    repeat' first
      | exact .pure _
      | exact only_recalculate _
      | refine .ite ?_ ?_
      | refine .bind (.perform trivial) fun _ => ?_
      | refine (only_recalculate _).bind fun _ => ?_
      | refine (only_recalculateAndModifyServiceInfo _ _).bind fun _ => ?_
      | refine (only_deactivateServers _ _).bind fun _ => ?_
      | refine (only_deleteServiceClassifications _ _).bind fun _ => ?_
      | refine .bind ?_ fun _ => ?_
      | split

theorem attempt_servers (e : CpEnv) {s s' : Sys} (h : s'.cp.servers = s.cp.servers) :
    (s.attempt e s').2.cp.servers = s.cp.servers := by
  unfold Sys.attempt
  split
  · rfl
  · exact h

/-- A change of rows in place that keeps keys and activates only what `act` allows. -/
def InPlace (act : ServerRow → Prop) (f : ServerRow → ServerRow) : Prop :=
  ∀ r, (f r).key = r.key ∧ ((f r).server.active = true → r.server.active = true ∨ act r)

theorem attempt_map {e : CpEnv} {s s' : Sys} {act : ServerRow → Prop} {f : ServerRow → ServerRow}
    (h : s'.cp.servers = s.cp.servers.map f) (hf : e.fails = false → InPlace act f) :
    ∃ g, (s.attempt e s').2.cp.servers = s.cp.servers.map g ∧ InPlace act g := by
  unfold Sys.attempt
  split
  next => exact ⟨id, by simp, fun r => ⟨rfl, .inl⟩⟩
  next hfails => exact ⟨f, h, hf (by simpa using hfails)⟩

/-- The row that a call activates. -/
def Activated (e : CpEnv) (op : CpCall) (r : ServerRow) : Prop :=
  ∃ t v, op = .internalDbActivateServer t v ∧ e.fails = false ∧ r.key = (t, v.ip, v.port)

/-- What a call that deletes no row does to the rows : it adds a row with a new key, or
changes rows in place, and only `internal_db_activate_server` activates one. -/
theorem cpHandle_servers (e : CpEnv) {op : CpCall} (hop : KeepsRows op) (s : Sys) :
    (∃ r, (∀ r' ∈ s.cp.servers, r'.key ≠ r.key) ∧
      (cpHandle e op s).2.cp.servers = s.cp.servers ++ [r]) ∨
    ∃ f, (cpHandle e op s).2.cp.servers = s.cp.servers.map f ∧ InPlace (Activated e op) f := by
  have hsame : (cpHandle e op s).2.cp.servers = s.cp.servers →
      ∃ f, (cpHandle e op s).2.cp.servers = s.cp.servers.map f ∧ InPlace (Activated e op) f :=
    fun h => ⟨id, by simp [h], fun r => ⟨rfl, .inl⟩⟩
  cases op with
  | internalDbDeleteServer => exact hop.elim
  | internalDbAddServer t v =>
    by_cases hf : s.cp.findServer t v.ip v.port = none
    · by_cases hfails : e.fails = true
      · exact .inr (hsame (by simp [cpHandle, hf, Sys.attempt, hfails]))
      · refine .inl ⟨⟨t, v⟩, fun r' hr' => Cp.Inv.server_ne_of_find_none hf hr', ?_⟩
        simp [cpHandle, hf, Sys.attempt, hfails]
    · exact .inr (hsame (by simp [cpHandle, Option.isSome_iff_ne_none.mpr hf]))
  | internalDbAddService v =>
    refine .inr (hsame ?_)
    by_cases hf : (s.cp.findService v.tuple).isSome = true
    · simp [cpHandle, hf]
    · simp only [cpHandle, hf]
      exact attempt_servers e rfl
  | internalDbAddApplicationInfo v =>
    refine .inr (hsame ?_)
    by_cases hf : (s.cp.applicationInfo v.applicationIndex).isSome = true
    · simp [cpHandle, hf]
    · simp only [cpHandle, hf]
      exact attempt_servers e rfl
  | internalDbDeleteService t =>
    refine .inr (attempt_map rfl fun _ r => ?_)
    split
    · exact ⟨rfl, fun h => Bool.noConfusion h⟩
    · exact ⟨rfl, .inl⟩
  | internalDbClearAll => exact .inr (attempt_map rfl fun _ r => ⟨rfl, fun h => Bool.noConfusion h⟩)
  | internalDbModifyServer t v =>
    refine .inr (attempt_map rfl fun _ r => ?_)
    split
    · exact ⟨rfl, .inl⟩
    · exact ⟨rfl, .inl⟩
  | internalDbDeactivateServer t ip port =>
    refine .inr (attempt_map rfl fun _ r => ?_)
    split
    · exact ⟨rfl, fun h => Bool.noConfusion h⟩
    · exact ⟨rfl, .inl⟩
  | internalDbActivateServer t v =>
    refine .inr (attempt_map rfl fun hfails r => ?_)
    split
    next hk => exact ⟨rfl, fun _ => .inr ⟨t, v, rfl, hfails, hk⟩⟩
    next => exact ⟨rfl, .inl⟩
  | serviceIndexPoolAlloc =>
    refine .inr (hsame ?_)
    cases h : s.cp.serviceIndexPool.alloc <;> simp [cpHandle, h]
  | serverIndexPoolAlloc =>
    refine .inr (hsame ?_)
    cases h : s.cp.serverIndexPool.alloc <;> simp [cpHandle, h]
  | _ =>
    refine .inr (hsame ?_)
    first
      | exact attempt_servers e rfl
      | rfl

/-- The row of the key of `r` stays a row. -/
theorem cpHandle_key {e : CpEnv} {op : CpCall} (hop : KeepsRows op) {s : Sys}
    {k : ServiceTuple × UInt32 × UInt16} (hk : ∃ r ∈ s.cp.servers, r.key = k) :
    ∃ r ∈ (cpHandle e op s).2.cp.servers, r.key = k := by
  obtain ⟨r, hr, rfl⟩ := hk
  obtain ⟨r', -, h⟩ | ⟨f, h, hf⟩ := cpHandle_servers e hop s
  · exact ⟨r, by simp [h, hr], rfl⟩
  · exact ⟨f r, by rw [h]; exact List.mem_map_of_mem hr, (hf r).1⟩

/-- A row that is inactive stays inactive unless it is activated. -/
theorem cpHandle_inactive {e : CpEnv} {op : CpCall} (hop : KeepsRows op) {s : Sys}
    {k : ServiceTuple × UInt32 × UInt16} (hk : ∃ r ∈ s.cp.servers, r.key = k)
    (hina : ¬ s.ActiveKey k)
    (hact : ∀ t v, op = .internalDbActivateServer t v → e.fails = false → k ≠ (t, v.ip, v.port)) :
    ¬ (cpHandle e op s).2.ActiveKey k := by
  rintro ⟨r', hr', rfl, hactive⟩
  obtain ⟨r₀, hr₀, hr₀k⟩ := hk
  obtain ⟨r, hnew, h⟩ | ⟨f, h, hf⟩ := cpHandle_servers e hop s
  · rw [h] at hr'
    obtain hr' | rfl := by simpa using hr'
    · exact hina ⟨r', hr', rfl, hactive⟩
    · exact hnew r₀ hr₀ hr₀k
  · rw [h] at hr'
    obtain ⟨r, hr, rfl⟩ := List.mem_map.mp hr'
    obtain hra | ⟨t, v, hop, hfails, hk⟩ := (hf r).2 hactive
    · exact hina ⟨r, hr, (hf r).1.symm, hra⟩
    · exact hact t v hop hfails ((hf r).1.trans hk)

/-! ## What each thread guarantees -/

/-- What the aging thread guarantees, in terms of what it has done : it deletes the row it
has just read as 0 and releases an index that it has read as 0. A read that fails leaves
a value that is not 0. -/
def agingSpec (v₀ : UInt64) : Spec CpCall CpCall.Res (List AgingStep) where
  pre log op :=
    match op with
    | .stepInactiveServers | .infraGetLongCounter _ | .infraDeleteEntry _ => True
    | .internalDbDeleteServer t ip port => ∃ r ∈ condemnedRow log, r.key = (t, ip, port)
    | .serverIndexPoolRelease i => readZero i log = true
    | _ => False
  post log op res log' :=
    (∃ s, log' = ⟨s, op, res⟩ :: log) ∧
      match op, res with
      | .infraGetLongCounter _, none => lastRead v₀ log ≠ 0
      | _, _ => True

def mainSpec : Spec CpCall CpCall.Res (List AgingStep) where
  pre _ op := KeepsRows op
  post _ _ _ _ := True

def raceSpec (v₀ : UInt64) : CpTid → Spec CpCall CpCall.Res (List AgingStep)
  | .main => mainSpec
  | .aging => agingSpec v₀

/-- Between two rows, the variable `value` of the aging thread is what it read last. -/
def raceIdle (v₀ : UInt64) : CpTid → AgingLocal → List AgingStep → Prop
  | .main, _, _ => True
  | .aging, l, log => l.exited = true ∨ l.value = lastRead v₀ log

theorem serverDbAging_wp {v₀ : UInt64} {l : AgingLocal} {log : List AgingStep}
    (hl : raceIdle v₀ .aging l log) :
    (serverDbAging l).wp (agingSpec v₀) (raceIdle v₀ .aging) log := by
  unfold serverDbAging
  split
  next hexit => exact .inl hexit
  next hexit =>
  have hvalue := hl.resolve_left hexit
  refine ⟨trivial, ?_⟩
  rintro (_ | _ | row) _ ⟨⟨s, rfl⟩, -⟩
  · exact .inl rfl
  · exact .inr hvalue
  refine ⟨trivial, ?_⟩
  rintro (_ | v) _ ⟨⟨s', rfl⟩, hread⟩
  · -- the read failed, and the value of the last one is not 0
    have hne : l.value ≠ 0 := by
      rw [hvalue]
      exact hread
    change (if l.value ≠ 0 then pure ⟨l.value, l.exited⟩ else _ : CpProg AgingLocal).wp _ _ _
    rw [if_pos hne]
    exact .inr hvalue
  by_cases hv : v = 0
  · subst hv
    refine ⟨⟨row, rfl, rfl⟩, ?_⟩
    rintro (_ | _) _ ⟨⟨s₂, rfl⟩, -⟩
    · exact .inl rfl
    refine ⟨trivial, ?_⟩
    rintro (_ | _) _ ⟨⟨s₃, rfl⟩, -⟩
    · exact .inl rfl
    refine ⟨by simp [agingSpec, readZero, connTotalAddr], ?_⟩
    rintro _ _ ⟨⟨s₄, rfl⟩, -⟩
    exact .inr rfl
  · change (if v ≠ 0 then pure ⟨v, l.exited⟩ else _ : CpProg AgingLocal).wp _ _ _
    rw [if_pos hv]
    exact .inr rfl

/-! ## The invariant of the runs -/

/-- The log shows no wrong deletion or release; the row that is pending is a row, and the
one that is about to be deleted is inactive. -/
structure RaceInv (w : Watched) (Γ : CpTid → List AgingStep) : Prop where
  log : w.log = Γ .aging
  safe : AgingSafe w.log
  pending : ∀ r ∈ pendingRow w.log, ∃ r' ∈ w.sys.cp.servers, r'.key = r.key
  condemned : ∀ r ∈ condemnedRow w.log, ¬ w.sys.ActiveKey r.key

theorem condemnedRow_pending {log : List AgingStep} {r : ServerRow}
    (h : r ∈ condemnedRow log) : r ∈ pendingRow log := by
  unfold condemnedRow at h
  split at h
  · split at h
    · exact h
    · cases h
  · cases h

/-- A call of the main thread. -/
theorem RaceInv.main {v₀ : UInt64} {e : RaceEnv} {op : CpCall} {w : Watched}
    {Γ : CpTid → List AgingStep} (h : RaceInv w Γ) (hop : KeepsRows op)
    (hok : RaceOk v₀ e .main op w) :
    RaceInv ⟨(cpHandle e.toCpEnv op (w.current e)).2, w.log⟩ Γ := by
  refine ⟨h.log, h.safe, fun r hr => cpHandle_key hop (h.pending r hr),
    fun r hr => cpHandle_inactive hop (h.pending r (condemnedRow_pending hr)) (h.condemned r hr) ?_⟩
  rintro t v rfl hfails
  exact (hok.resolve_left (by simp [hfails])) r hr

/-- A call of the aging thread. -/
theorem RaceInv.aging {v₀ : UInt64} {e : RaceEnv} {op : CpCall} {w : Watched}
    {Γ : CpTid → List AgingStep} (h : RaceInv w Γ) (hop : (agingSpec v₀).pre w.log op)
    (hok : RaceOk v₀ e .aging op w) :
    let r := cpHandle e.toCpEnv op (w.current e)
    let log := ⟨w.current e, op, r.1⟩ :: w.log
    (agingSpec v₀).post w.log op r.1 log ∧ RaceInv ⟨r.2, log⟩ (Function.update Γ .aging log) := by
  intro r log
  have hlog : log = Function.update Γ .aging log .aging := by simp
  cases op with
  | stepInactiveServers =>
    refine ⟨⟨⟨_, rfl⟩, trivial⟩, hlog, ⟨trivial, trivial, h.safe⟩, ?_,
      by simp [log, condemnedRow]⟩
    intro row hrow
    by_cases hfails : e.fails = true
    · simp [log, r, pendingRow, cpHandle, Sys.answer, hfails] at hrow
    · have hrow : ((w.current e).cp.servers.filter fun r => !r.server.active)[e.pick]? =
        some row := by
        simpa [log, r, pendingRow, cpHandle, Sys.answer, hfails] using hrow
      exact ⟨row, List.mem_of_mem_filter (List.mem_of_getElem? hrow), rfl⟩
  | infraGetLongCounter a =>
    have hr : r = (if e.fails then none else some (counterValue (e.counters a)), w.current e) := rfl
    refine ⟨⟨⟨_, rfl⟩, ?_⟩, hlog, ⟨trivial, trivial, h.safe⟩, h.pending, ?_⟩
    · by_cases hfails : e.fails = true
      · simpa [hr, RaceOk, hfails] using hok
      · simp [hr, hfails]
    · intro row hrow
      by_cases hfails : e.fails = true
      · simp [log, hr, hfails, condemnedRow] at hrow
      · simp only [RaceOk, hfails] at hok
        by_cases hzero : counterValue (e.counters a) = 0
        · refine hok hzero row ?_
          simpa [log, hr, hfails, hzero, condemnedRow] using hrow
        · simp [log, hr, hfails, condemnedRow, hzero] at hrow
  | internalDbDeleteServer t ip port =>
    obtain ⟨row, hrow, hk⟩ := hop
    refine ⟨⟨⟨_, rfl⟩, trivial⟩, hlog, ⟨?_, trivial, h.safe⟩, by simp [log, pendingRow],
      by simp [log, condemnedRow]⟩
    rw [AgingStep.DeletesInactive, ← hk]
    exact h.condemned row hrow
  | infraDeleteEntry k =>
    refine ⟨⟨⟨_, rfl⟩, trivial⟩, hlog, ⟨trivial, trivial, h.safe⟩, ?_,
      by simp [log, condemnedRow]⟩
    exact fun row hrow =>
      @cpHandle_key e.toCpEnv (.infraDeleteEntry k) trivial _ _ (h.pending row hrow)
  | serverIndexPoolRelease i =>
    refine ⟨⟨⟨_, rfl⟩, trivial⟩, hlog, ⟨trivial, hop, h.safe⟩, ?_,
      by simp [log, condemnedRow]⟩
    exact fun row hrow =>
      @cpHandle_key e.toCpEnv (.serverIndexPoolRelease i) trivial _ _ (h.pending row hrow)
  | _ => exact hop.elim

theorem raceJob_wp {v₀ : UInt64} (t : CpTid) (op : CpOp) (l : AgingLocal) (log : List AgingStep)
    (hl : raceIdle v₀ t l log) : (raceJob t op l).wp (raceSpec v₀ t) (raceIdle v₀ t) log := by
  cases t with
  | main => exact ((only_adminProgram op).map _).wp (fun _ _ => id) log
  | aging => exact serverDbAging_wp hl

theorem raceInv_handle {v₀ : UInt64} (e : RaceEnv) (t : CpTid) (op : CpCall) (w : Watched)
    (Γ : CpTid → List AgingStep) (r : op.Res) (w' : Watched) (hΓ : RaceInv w Γ)
    (hpre : (raceSpec v₀ t).pre (Γ t) op) (hok : RaceOk v₀ e t op w)
    (hr : raceHandle e t op w = some (r, w')) :
    ∃ log, (raceSpec v₀ t).post (Γ t) op r log ∧ RaceInv w' (Function.update Γ t log) := by
  obtain ⟨rfl, rfl⟩ := Prod.mk.inj (Option.some.inj hr)
  cases t with
  | main =>
    refine ⟨Γ .main, trivial, ?_⟩
    rw [Function.update_eq_self]
    exact hΓ.main hpre hok
  | aging =>
    have hpre : (agingSpec v₀).pre w.log op := by
      rw [hΓ.log]
      exact hpre
    obtain ⟨hpost, hinv⟩ := hΓ.aging hpre hok
    refine ⟨_, ?_, hinv⟩
    rw [raceSpec, ← hΓ.log]
    exact hpost

theorem raceInv_init (s : Sys) (v₀ : UInt64) :
    Machine.Inv (raceSpec v₀) (raceIdle v₀) RaceInv (racePool s v₀) := by
  refine ⟨fun _ => [], ⟨rfl, trivial, (fun r hr => nomatch hr), fun r hr => nomatch hr⟩,
    fun t => ?_⟩
  cases t
  exacts [trivial, .inr rfl]

/-- Where no read that fails leaves the value 0, and the selected row is inactive when it is
read as 0 and not activated before its deletion, the aging thread deletes inactive rows
only and releases an index only after it has read its count as 0. -/
theorem agingSafe_run (s : Sys) (v₀ : UInt64) (as : List (PoolAct CpTid CpOp RaceEnv))
    (has : Always (Machine.ActOk (RaceOk v₀)) raceMachine.act (racePool s v₀) as) :
    AgingSafe (as.foldl raceMachine.act (racePool s v₀)).shared.log := by
  obtain ⟨Γ, hΓ, -⟩ := Machine.inv_run raceJob_wp raceInv_handle (raceInv_init s v₀) has
  exact hΓ.safe

/-! ## Runs -/

section Examples

/-- `n` calls of a thread that all succeed, the counters being 0. -/
def callsOk (t : CpTid) (n : Nat) : List (PoolAct CpTid CpOp RaceEnv) :=
  List.replicate n (.step t ⟨⟨false, 0⟩, fun _ => 0⟩)

/-- An operation of the administrator all of whose calls succeed. -/
def adminOk (op : CpOp) : List (PoolAct CpTid CpOp RaceEnv) :=
  .start .main op :: callsOk .main 16

/-- The service with an inactive server of weight 0. -/
def inactiveServer : List (PoolAct CpTid CpOp RaceEnv) :=
  adminOk (.addService exampleService) ++ adminOk (.addServer exampleService (exampleServer 0 0)) ++
    adminOk (.deleteServer exampleService (exampleServer 0 0))

/-- The aging thread reclaims the server; nothing interferes. -/
def reclaimedServer : List (PoolAct CpTid CpOp RaceEnv) :=
  inactiveServer ++ .start .aging .clear :: callsOk .aging 5

theorem agingSafe_run_reclaim :
    AgingSafe (reclaimedServer.foldl raceMachine.act (racePool .init 0)).shared.log :=
  agingSafe_run .init 0 reclaimedServer (by decide +kernel)

/-- The server is added again between the read of its count and its deletion. -/
def readdedServer : List (PoolAct CpTid CpOp RaceEnv) :=
  inactiveServer ++ .start .aging .clear :: callsOk .aging 2 ++
    adminOk (.addServer exampleService (exampleServer 0 0)) ++ callsOk .aging 1

/-- The server is reclaimed, and for the next inactive server the read of its count, which
is 1, fails. -/
def failedRead : List (PoolAct CpTid CpOp RaceEnv) :=
  inactiveServer ++ .start .aging .clear :: callsOk .aging 5 ++ inactiveServer ++
    .start .aging .clear :: callsOk .aging 1 ++ .step .aging ⟨⟨true, 0⟩, fun _ => 1⟩ ::
    callsOk .aging 3

/-- In the first run the aging thread deletes an active row. In the second it releases an
index whose count it has not read. -/
theorem agingSafe_fails :
    ¬ AgingSafe (readdedServer.foldl raceMachine.act (racePool .init 0)).shared.log ∧
      ¬ AgingSafe (failedRead.foldl raceMachine.act (racePool .init 0)).shared.log := by
  decide +kernel

end Examples

end Alvs
