import Alvs.Cp.Messages
import Alvs.Cp.ShownStats

/-!
# Every message is served as its request

A message is one request on the table of virtual servers, or none (`IpvsMsg.request`). Where every
call succeeds, serving it leaves the table of the request, and the application runs on unless the
message lacks an attribute that is read (`IpvsMsg.Crashes`), asks for the statistics of a service
that is not there, or commands a daemon though no row of daemons was made (`IpvsMsg.Ends`)
(`done_msgParser`).
-/

namespace Alvs

open ProgLogic

/-! ## The request of a message -/

/-- The address of the service, if it is an IPv4 one. -/
def SvcAttrs.names (a : SvcAttrs) : Option IpVsServiceEntry :=
  if a.af = some afInet then alvsGenlParseIdentity a else none

/-- The algorithm and flags of the service, if all other attributes are there. -/
def SvcAttrs.config (a : SvcAttrs) : Option (AlvsSchedulerType × IpVsFlags) :=
  match a.flags, a.schedName, a.timeout, a.netmask with
  | some flags, some schedName, some _, some _ =>
    some (getSchedAlg (cString (memcpyZero 16 schedName.payload)), flags)
  | _, _, _, _ => none

def Nested.get? {α : Type} : Nested α → Option α
  | .parsed a => some a
  | _ => none

def Parsed.get? {α : Type} : Parsed α → Option α
  | .ok a => some a
  | _ => none

namespace IpvsMsg

/-- The service that a message names. -/
def named (m : IpvsMsg) : Option IpVsServiceEntry := m.service.get?.bind SvcAttrs.names

def config (m : IpvsMsg) : Option (AlvsSchedulerType × IpVsFlags) :=
  m.service.get?.bind SvcAttrs.config

/-- The destination that a message names. -/
def namedDest (m : IpvsMsg) (needFullDest : Bool) : Option IpVsDestUser :=
  m.dest.get?.bind fun a => (alvsGenlParseDest a needFullDest).get?

/-- The request on the table that a message makes. -/
def request (m : IpvsMsg) : Option VsRequest :=
  match m.cmd with
  | .newService => m.named.bind fun svc => m.config.map fun c => .newService svc.tuple c.1 c.2
  | .setService => m.named.bind fun svc => m.config.map fun c => .setService svc.tuple c.1 c.2
  | .delService => m.named.map fun svc => .delService svc.tuple
  | .newDest => m.named.bind fun svc => (m.namedDest true).map fun d =>
    .newDest (serverKey svc.toIpVsServiceUser d) d.vs
  | .setDest => m.named.bind fun svc => (m.namedDest true).map fun d =>
    .setDest (serverKey svc.toIpVsServiceUser d) d.vs
  | .delDest => m.named.bind fun svc => (m.namedDest false).map fun d =>
    .delDest (serverKey svc.toIpVsServiceUser d)
  | .flush => some .flush
  | _ => none

/-- An attribute that is read is not there. -/
def Crashes (m : IpvsMsg) : Prop :=
  match m.cmd with
  | .newService | .setService => m.named ≠ none ∧ m.config = none
  | .newDest | .setDest =>
    m.named ≠ none ∧ ∃ a, m.dest = .parsed a ∧ alvsGenlParseDest a true = .fault
  | .newDaemon | .delDaemon => m.daemon = .absent
  | _ => False

/-- The statistics of a service that is not there are asked for, or a daemon is commanded though no
row of daemons was made at the start. -/
def Ends (e : MsgEnv) (T : VsTable) (hasRow : Prop) (m : IpvsMsg) : Prop :=
  match m.cmd with
  | .newDaemon | .delDaemon =>
    ¬ hasRow ∧ ∃ daemons, alvsGenlParseDaemonFromMsghdr m.daemon (.zero, .zero) = .ok daemons
  | .getDest =>
    e.printStatsEnabled = true ∧ ∃ svc, m.named = some svc ∧ T.service svc.tuple = none
  | _ => False

end IpvsMsg

/-- The table once a message is served. -/
noncomputable def VsTable.serve (T : VsTable) (req : Option VsRequest) : VsTable :=
  req.elim T T.handle

/-! ## Programs among the statistics functions -/

section Parts

variable {α : Type} {s : Sys}

theorem runStats_statsOf (p : CpProg α) : s.runStats (statsOf p) = s.runCp 0 p :=
  Prog.exec_embed (fun _ _ => rfl) p s

@[simp] theorem runStats_map {β : Type} (f : α → β) (p : StatsProg α) :
    s.runStats (f <$> p) = (f (s.runStats p).1, (s.runStats p).2) :=
  Prog.exec_map _ s f p

/-! ### The parser of services -/

variable {a : SvcAttrs} {entry : IpVsServiceEntry} {full : Bool}

theorem names_eq_some : a.names = some entry ↔
    a.af = some afInet ∧ alvsGenlParseIdentity a = some entry := by
  unfold SvcAttrs.names
  split
  next h => simp [h]
  next h => simp [h]

theorem identity_flags (h : alvsGenlParseIdentity a = some entry) : entry.flags = 0 := by
  unfold alvsGenlParseIdentity at h
  split at h
  · cases h
    rfl
  · cases h
    rfl
  · cases h

theorem parse_unnamed (h : a.names = none) :
    s.runCp 0 (alvsGenlParseService a full) = (.error, s) := by
  unfold alvsGenlParseService
  split
  next af entry haf hentry =>
    have hinet : af ≠ afInet := by
      rintro rfl
      rw [names_eq_some.mpr ⟨haf, hentry⟩] at h
      cases h
    rw [runCp_ite, if_pos hinet]
    rfl
  next => rfl

theorem parse_short (h : a.names = some entry) :
    s.runCp 0 (alvsGenlParseService a false) = (.ok entry, s) := by
  obtain ⟨haf, hentry⟩ := names_eq_some.mp h
  unfold alvsGenlParseService
  rw [haf, hentry]
  rfl

theorem runCp_serviceFlags (u : IpVsServiceUser) :
    s.runCp 0 (alvsDbGetServiceFlags u) =
      (((s.cp.findService u.tuple).map (·.flags)).getD u.flags, s) := by
  unfold alvsDbGetServiceFlags
  simp only [runCp_bind, runCp_internalDbGetService]
  cases s.cp.findService u.tuple <;> rfl

theorem parse_incomplete (h : a.names = some entry) (hconfig : a.config = none) :
    s.runCp 0 (alvsGenlParseService a true) = (.fault, s) := by
  obtain ⟨haf, hentry⟩ := names_eq_some.mp h
  unfold alvsGenlParseService
  rw [haf, hentry]
  simp only [ne_eq, not_true_eq_false, if_false, if_true, runCp_bind, runCp_serviceFlags]
  unfold SvcAttrs.config at hconfig
  split
  next hflags hname htimeout hnetmask =>
    rw [hflags, hname, htimeout, hnetmask] at hconfig
    cases hconfig
  next => rfl

theorem parse_full (h : a.names = some entry) {alg : AlvsSchedulerType} {flags : IpVsFlags}
    (hconfig : a.config = some (alg, flags)) :
    ∃ svc : IpVsServiceEntry, s.runCp 0 (alvsGenlParseService a true) = (.ok svc, s) ∧
      svc.tuple = entry.tuple ∧ getSchedAlg svc.schedName = alg ∧
      svc.flags = flags.applied (((s.cp.findService entry.tuple).map (·.flags)).getD 0) := by
  obtain ⟨haf, hentry⟩ := names_eq_some.mp h
  unfold SvcAttrs.config at hconfig
  split at hconfig
  next flags' name timeout netmask hflags hname htimeout hnetmask =>
    obtain ⟨halg, rfl⟩ := Prod.mk.inj (Option.some.inj hconfig)
    unfold alvsGenlParseService
    rw [haf, hentry, hflags, hname, htimeout, hnetmask]
    simp only [ne_eq, not_true_eq_false, if_false, if_true, runCp_bind, runCp_serviceFlags,
      runCp_pure]
    refine ⟨_, rfl, rfl, halg, ?_⟩
    rw [identity_flags hentry]
    rfl
  next => cases hconfig

/-! ### What is done with what is parsed -/

variable {m : IpvsMsg} {f : IpVsServiceUser → StatsProg MsgResult}
  {f' : IpVsDestUser → StatsProg MsgResult}

theorem run_parsed_short :
    m.named = none ∧ s.runStats (withParsedService m.service false f) = (.nlSkip, s) ∨
      ∃ entry, m.named = some entry ∧ s.runStats (withParsedService m.service false f) =
        s.runStats (f entry.toIpVsServiceUser) := by
  cases hservice : m.service with
  | absent | malformed => exact .inl ⟨by simp [IpvsMsg.named, hservice, Nested.get?], rfl⟩
  | parsed a =>
    have hnamed : m.named = a.names := by simp [IpvsMsg.named, hservice, Nested.get?]
    simp only [withParsedService, runStats_bind, runStats_statsOf, hnamed]
    cases h : a.names with
    | none =>
      rw [parse_unnamed h]
      exact .inl ⟨rfl, rfl⟩
    | some entry =>
      rw [parse_short h]
      exact .inr ⟨entry, rfl, rfl⟩

theorem run_parsed_full :
    m.named = none ∧ s.runStats (withParsedService m.service true f) = (.nlSkip, s) ∨
    (m.named ≠ none ∧ m.config = none ∧
      s.runStats (withParsedService m.service true f) = (.fault, s)) ∨
    ∃ entry alg flags, ∃ svc : IpVsServiceEntry, m.named = some entry ∧
      m.config = some (alg, flags) ∧ svc.tuple = entry.tuple ∧ getSchedAlg svc.schedName = alg ∧
      svc.flags = flags.applied (((s.cp.findService entry.tuple).map (·.flags)).getD 0) ∧
      s.runStats (withParsedService m.service true f) = s.runStats (f svc.toIpVsServiceUser) := by
  cases hservice : m.service with
  | absent | malformed => exact .inl ⟨by simp [IpvsMsg.named, hservice, Nested.get?], rfl⟩
  | parsed a =>
    have hnamed : m.named = a.names := by simp [IpvsMsg.named, hservice, Nested.get?]
    have hconfig : m.config = a.config := by simp [IpvsMsg.config, hservice, Nested.get?]
    simp only [withParsedService, runStats_bind, runStats_statsOf, hnamed, hconfig]
    cases h : a.names with
    | none =>
      rw [parse_unnamed h]
      exact .inl ⟨rfl, rfl⟩
    | some entry =>
      right
      cases hc : a.config with
      | none =>
        rw [parse_incomplete h hc]
        exact .inl ⟨Option.some_ne_none _, rfl, rfl⟩
      | some c =>
        obtain ⟨svc, hrun, htuple, halg, hflags⟩ := parse_full (s := s) h hc
        rw [hrun]
        exact .inr ⟨entry, c.1, c.2, svc, rfl, rfl, htuple, halg, hflags, rfl⟩

theorem run_parsed_dest (full : Bool) :
    (m.namedDest full = none ∧ (¬ ∃ a, m.dest = .parsed a ∧ alvsGenlParseDest a full = .fault) ∧
      s.runStats (withParsedDest m.dest full f') = (.nlSkip, s)) ∨
    (m.namedDest full = none ∧ (∃ a, m.dest = .parsed a ∧ alvsGenlParseDest a full = .fault) ∧
      s.runStats (withParsedDest m.dest full f') = (.fault, s)) ∨
    ∃ d, m.namedDest full = some d ∧
      (¬ ∃ a, m.dest = .parsed a ∧ alvsGenlParseDest a full = .fault) ∧
      s.runStats (withParsedDest m.dest full f') = s.runStats (f' d) := by
  cases hdest : m.dest with
  | absent | malformed => exact .inl ⟨by simp [IpvsMsg.namedDest, hdest, Nested.get?], by simp, rfl⟩
  | parsed a =>
    have hnamed : m.namedDest full = (alvsGenlParseDest a full).get? := by
      simp [IpvsMsg.namedDest, hdest, Nested.get?]
    simp only [withParsedDest, hnamed]
    cases h : alvsGenlParseDest a full with
    | error => exact .inl ⟨rfl, by simp [h], rfl⟩
    | fault => exact .inr (.inl ⟨rfl, ⟨a, rfl, h⟩, rfl⟩)
    | ok d => exact .inr (.inr ⟨d, rfl, by simp [h], rfl⟩)

/-- The identifying attributes are all that is read. -/
theorem parseDest_short (d : DestAttrs) : alvsGenlParseDest d false ≠ .fault := by
  unfold alvsGenlParseDest
  split
  · simp
  · simp

end Parts

/-! ## A message -/

/-- The invariants of the database. -/
def Cp.Sound (cp : Cp) : Prop := cp.Inv ∧ cp.Held

/-- The row of the daemons is there. -/
def Cp.HasRow (cp : Cp) : Prop := cp.applicationInfo alvsApplicationInfoIndex ≠ none

/-- The operations leave the row of the daemons. -/
theorem rowAdded_applicationInfo {cp cp' : Cp} {service : DbService} {d : IpVsDestUser}
    {v : DbServer} (h : cp.RowAdded service d v cp') :
    cp'.applicationInfo = cp.applicationInfo := by
  obtain ⟨-, -, -, -, rfl⟩ | ⟨-, -, -, -, -, rfl⟩ := h <;> rfl

theorem effect_applicationInfo {cp cp' : Cp} {op : CpOp} (h : cp.Effect op cp') :
    cp'.applicationInfo = cp.applicationInfo := by
  cases h with
  | addServer hadded => exact rowAdded_applicationInfo hadded
  | addServerCount hadded _ =>
    have hrow := rowAdded_applicationInfo hadded
    exact hrow
  | _ => rfl

/-- What an operation keeps. -/
theorem sound_cpStep {s : Sys} (h : s.cp.Sound) (op : CpOp) : (s.cpStep op).cp.Sound ∧
    (s.cpStep op).cp.applicationInfo = s.cp.applicationInfo := by
  refine ⟨⟨inv_cpStep h.1 op, ?_⟩, ?_⟩
  · obtain heq | heffect := cpStep_cases h.1.algs op
    · rw [heq]
      exact h.2
    · exact h.2.cpEffect h.1 (heffect.cp h.1.algs)
  · obtain heq | heffect := cpStep_cases h.1.algs op
    · rw [heq]
    · exact effect_applicationInfo (heffect.cp h.1.algs)

/-- What the manager has done with a message. -/
structure Done (s : Sys) (e : MsgEnv) (m : IpvsMsg) (out : MsgResult × Sys) : Prop where
  sound : out.2.cp.Sound
  table : out.2.cp.table = s.cp.table.serve m.request
  row : out.2.cp.HasRow ↔ s.cp.HasRow
  ends : out.1.status = .running ↔ ¬ m.Crashes ∧ ¬ m.Ends e s.cp.table s.cp.HasRow

namespace Done

variable {s : Sys} {e : MsgEnv} {m : IpvsMsg} {req : VsRequest}

theorem of_unchanged (h : s.cp.Sound) {res : MsgResult} (hreq : m.request = none)
    (hres : res.status = .running ↔ ¬ m.Crashes ∧ ¬ m.Ends e s.cp.table s.cp.HasRow) :
    Done s e m (res, s) :=
  ⟨h, by rw [hreq]; rfl, Iff.rfl, hres⟩

theorem of_crash (h : s.cp.Sound) (hreq : m.request = none) (hcrash : m.Crashes) :
    Done s e m (.fault, s) :=
  of_unchanged h hreq (iff_of_false (by decide) fun hnot => hnot.1 hcrash)

theorem of_skip (h : s.cp.Sound) {res : MsgResult} (hreq : m.request = none)
    (hres : res.status = .running) (hcrash : ¬ m.Crashes)
    (hends : ¬ m.Ends e s.cp.table s.cp.HasRow) :
    Done s e m (res, s) :=
  of_unchanged h hreq (iff_of_true hres ⟨hcrash, hends⟩)

/-- A message that is served by an operation on the table. -/
theorem of_op (h : s.cp.Sound) (op : CpOp) {p : CpProg AlvsDbRc}
    (hp : s.runCp 0 p = s.cpRun op) (hreq : m.request = some req) (hcrash : ¬ m.Crashes)
    (hends : ¬ m.Ends e s.cp.table s.cp.HasRow)
    (hserved : Served s req (s.cpRun op)) :
    Done s e m (s.runStats (MsgResult.of <$> statsOf p)) := by
  have hrc : (MsgResult.of (s.cpRun op).1).status = .running := by
    by_cases hadmits : s.cp.table.Admits req
    · rw [(hserved.admitted hadmits).1]
      rfl
    · obtain hrc | hrc := (hserved.refused hadmits).1 <;>
      · rw [hrc]
        rfl
  rw [runStats_map, runStats_statsOf, hp]
  obtain ⟨hsound, hrow⟩ := sound_cpStep h op
  refine ⟨hsound, ?_, ?_, iff_of_true hrc ⟨hcrash, hends⟩⟩
  · rw [hreq]
    exact hserved.handle
  · exact not_congr (iff_of_eq (congrArg (fun row => row alvsApplicationInfoIndex = none) hrow))

/-- A message that changes neither the services and servers nor the row of the daemons. -/
theorem of_tables {res : MsgResult} {s' : Sys} (hsound : s'.cp.Sound)
    (htable : s'.cp.table = s.cp.table) (hreq : m.request = none)
    (hrow : s'.cp.HasRow ↔ s.cp.HasRow)
    (hres : res.status = .running ↔ ¬ m.Crashes ∧ ¬ m.Ends e s.cp.table s.cp.HasRow) :
    Done s e m (res, s') :=
  ⟨hsound, by rw [hreq]; exact htable, hrow, hres⟩

end Done

section Messages

variable {s : Sys} {e : MsgEnv} {m : IpvsMsg}

/-- A message that names a service with all its values. -/
theorem done_full (h : s.cp.Sound) (mk : ServiceTuple → AlvsSchedulerType → IpVsFlags → VsRequest)
    (op : IpVsServiceUser → CpOp) {p : IpVsServiceUser → CpProg AlvsDbRc}
    (hreq : m.request = m.named.bind fun svc => m.config.map fun c => mk svc.tuple c.1 c.2)
    (hcrash : m.Crashes ↔ m.named ≠ none ∧ m.config = none)
    (hends : ¬ m.Ends e s.cp.table s.cp.HasRow)
    (hp : ∀ u, s.runCp 0 (p u) = s.cpRun (op u))
    (hserved : ∀ (u : IpVsServiceUser) (f : IpVsFlags),
      u.flags = f.applied (((s.cp.findService u.tuple).map (·.flags)).getD 0) →
      Served s (mk u.tuple (getSchedAlg u.schedName) f) (s.cpRun (op u))) :
    Done s e m (s.runStats (withParsedService m.service true fun svc =>
      MsgResult.of <$> statsOf (p svc))) := by
  obtain ⟨hnamed, hrun⟩ | ⟨hnamed, hconfig, hrun⟩ |
    ⟨entry, alg, flags, svc, hnamed, hconfig, htuple, halg, hflags, hrun⟩ :=
    @run_parsed_full s m fun svc => MsgResult.of <$> statsOf (p svc)
  · rw [hrun]
    exact .of_skip h (by rw [hreq, hnamed]; rfl) rfl (fun hc => (hcrash.mp hc).1 hnamed) hends
  · rw [hrun]
    refine .of_crash h ?_ (hcrash.mpr ⟨hnamed, hconfig⟩)
    rw [hreq, hconfig]
    cases m.named <;> rfl
  · rw [hrun]
    have hreq : m.request = some (mk svc.tuple (getSchedAlg svc.schedName) flags) := by
      rw [hreq, hnamed, hconfig, htuple, halg]
      rfl
    have hnot : ¬ m.Crashes := fun hc =>
      Option.some_ne_none _ (hconfig.symm.trans (hcrash.mp hc).2)
    refine .of_op h _ (hp svc.toIpVsServiceUser) hreq hnot hends (hserved _ flags ?_)
    rw [htuple]
    exact hflags

/-- A message that names a service and a destination. -/
theorem done_dest (h : s.cp.Sound) (full : Bool)
    (mk : IpVsServiceUser → IpVsDestUser → VsRequest)
    (op : IpVsServiceUser → IpVsDestUser → CpOp)
    {p : IpVsServiceUser → IpVsDestUser → CpProg AlvsDbRc}
    (hreq : m.request = m.named.bind fun svc => (m.namedDest full).map fun d =>
      mk svc.toIpVsServiceUser d)
    (hcrash : m.Crashes ↔ m.named ≠ none ∧
      ∃ a, m.dest = .parsed a ∧ alvsGenlParseDest a full = .fault)
    (hends : ¬ m.Ends e s.cp.table s.cp.HasRow)
    (hp : ∀ u d, s.runCp 0 (p u d) = s.cpRun (op u d))
    (hserved : ∀ u d, Served s (mk u d) (s.cpRun (op u d))) :
    Done s e m (s.runStats (withParsedService m.service false fun svc =>
      withParsedDest m.dest full fun dest => MsgResult.of <$> statsOf (p svc dest))) := by
  obtain ⟨hnamed, hrun⟩ | ⟨entry, hnamed, hrun⟩ := @run_parsed_short s m fun svc =>
    withParsedDest m.dest full fun dest => MsgResult.of <$> statsOf (p svc dest)
  · rw [hrun]
    exact .of_skip h (by rw [hreq, hnamed]; rfl) rfl (fun hc => (hcrash.mp hc).1 hnamed) hends
  rw [hrun]
  obtain ⟨hdest, hnot, hrun⟩ | ⟨hdest, hfault, hrun⟩ | ⟨d, hdest, hnot, hrun⟩ :=
    @run_parsed_dest s m
      (fun dest => MsgResult.of <$> statsOf (p entry.toIpVsServiceUser dest)) full
  · rw [hrun]
    exact .of_skip h (by rw [hreq, hnamed, hdest]; rfl) rfl (fun hc => hnot (hcrash.mp hc).2) hends
  · rw [hrun]
    refine .of_crash h (by rw [hreq, hnamed, hdest]; rfl) (hcrash.mpr ⟨?_, hfault⟩)
    rw [hnamed]
    exact Option.some_ne_none _
  · rw [hrun]
    have hreq : m.request = some (mk entry.toIpVsServiceUser d) := by
      rw [hreq, hnamed, hdest]
      rfl
    exact .of_op h _ (hp _ _) hreq (fun hc => hnot (hcrash.mp hc).2) hends (hserved _ _)

theorem done_delService (h : s.cp.Sound) (hcmd : m.cmd = .delService) :
    Done s e m (s.runStats (withParsedService m.service false fun svc =>
      MsgResult.of <$> statsOf (alvsDbDeleteService svc e.uninit))) := by
  have hcrash : ¬ m.Crashes := by simp [IpvsMsg.Crashes, hcmd]
  have hends : ¬ m.Ends e s.cp.table s.cp.HasRow := by simp [IpvsMsg.Ends, hcmd]
  obtain ⟨hnamed, hrun⟩ | ⟨entry, hnamed, hrun⟩ := @run_parsed_short s m fun svc =>
    MsgResult.of <$> statsOf (alvsDbDeleteService svc e.uninit)
  · rw [hrun]
    exact .of_skip h (by simp [IpvsMsg.request, hcmd, hnamed]) rfl hcrash hends
  · rw [hrun]
    have hreq : m.request = some (.delService entry.tuple) := by
      simp [IpvsMsg.request, hcmd, hnamed]
    exact .of_op h (.deleteService entry.toIpVsServiceUser e.uninit) rfl hreq hcrash hends
      (served_deleteService h.1.algs)

/-! ### Daemons and statistics -/

theorem table_applicationInfo {cp : Cp} (h : cp.Sound) {row : UInt8 → Option DbApplicationInfo} :
    Cp.Sound { cp with applicationInfo := row } :=
  ⟨⟨h.1.algs, h.1.services_distinct, h.1.services_index, h.1.servers_distinct, h.1.servers_index,
    h.1.servers_ok⟩, h.2.services, h.2.servers⟩

/-- A row is changed, none is made or removed. -/
theorem modifyApplicationInfo_hasRow {cp : Cp} {v : DbApplicationInfo} :
    (cp.modifyApplicationInfo v).HasRow ↔ cp.HasRow := by
  by_cases hi : alvsApplicationInfoIndex = v.applicationIndex
  · simp [Cp.HasRow, Cp.modifyApplicationInfo, hi]
  · simp [Cp.HasRow, Cp.modifyApplicationInfo, hi]

theorem status_internalError : (MsgResult.of .internalError).status ≠ .running := by decide

/-- What a command on a daemon does. -/
def DaemonDone (s : Sys) (out : AlvsDbRc × Sys) : Prop :=
  ¬ s.cp.HasRow ∧ out = (.internalError, s) ∨
  s.cp.HasRow ∧ (out.1 = .ok ∨ out.1 = .failure) ∧
    ∃ row, out.2.cp = { s.cp with applicationInfo := row } ∧ (out.2.cp.HasRow ↔ s.cp.HasRow)

theorem daemonDone_modify (hrow : s.cp.HasRow) (v : DbApplicationInfo) :
    DaemonDone s (s.runCp 0 (modifyApplicationInfo v)) :=
  .inr ⟨hrow, .inl rfl, (s.cp.modifyApplicationInfo v).applicationInfo, rfl,
    modifyApplicationInfo_hasRow⟩

theorem daemonDone_failure (hrow : s.cp.HasRow) : DaemonDone s (.failure, s) :=
  .inr ⟨hrow, .inr rfl, s.cp.applicationInfo, rfl, Iff.rfl⟩

theorem startDaemon_done (ifaddr : Option (List IfAddr)) (d : IpVsDaemonUser) :
    DaemonDone s (s.runCp 0 (alvsDbStartDaemon ifaddr d)) := by
  unfold alvsDbStartDaemon
  simp only [runCp_bind, runCp_internalDbGetApplicationInfo]
  cases hrow : s.cp.applicationInfo alvsApplicationInfoIndex with
  | none => exact .inl ⟨not_not_intro hrow, rfl⟩
  | some row =>
    have hne : s.cp.HasRow := hrow.trans_ne (Option.some_ne_none row)
    rw [runCp_ite, runCp_ite]
    split_ifs
    · exact daemonDone_failure hne
    · exact daemonDone_failure hne
    · cases alvsDbHandleMcastIf ifaddr d row with
      | none => exact daemonDone_failure hne
      | some cpDaemonInfo => exact daemonDone_modify hne _

theorem stopDaemon_done (d : IpVsDaemonUser) :
    DaemonDone s (s.runCp 0 (alvsDbStopDaemon d)) := by
  unfold alvsDbStopDaemon
  simp only [runCp_bind, runCp_internalDbGetApplicationInfo]
  cases hrow : s.cp.applicationInfo alvsApplicationInfoIndex with
  | none => exact .inl ⟨not_not_intro hrow, rfl⟩
  | some row =>
    have hne : s.cp.HasRow := hrow.trans_ne (Option.some_ne_none row)
    rw [runCp_ite, runCp_ite]
    split_ifs
    · exact daemonDone_failure hne
    · exact daemonDone_failure hne
    · exact daemonDone_modify hne _

theorem done_daemon (h : s.cp.Sound) {p : IpVsDaemonUser → CpProg AlvsDbRc}
    (hcmd : m.cmd = .newDaemon ∨ m.cmd = .delDaemon)
    (hp : ∀ d, DaemonDone s (s.runCp 0 (p d))) :
    Done s e m
      (s.runStats (withParsedDaemon m.daemon fun d => MsgResult.of <$> statsOf (p d))) := by
  have hreq : m.request = none := by
    obtain hcmd | hcmd := hcmd <;> simp [IpvsMsg.request, hcmd]
  have hcrash : m.Crashes ↔ m.daemon = .absent := by
    obtain hcmd | hcmd := hcmd <;> simp [IpvsMsg.Crashes, hcmd]
  have hends : m.Ends e s.cp.table s.cp.HasRow ↔ ¬ s.cp.HasRow ∧
      ∃ daemons, alvsGenlParseDaemonFromMsghdr m.daemon (.zero, .zero) = .ok daemons := by
    obtain hcmd | hcmd := hcmd <;> simp only [IpvsMsg.Ends, hcmd]
  have hfault : alvsGenlParseDaemonFromMsghdr m.daemon (.zero, .zero) = .fault ↔
      m.daemon = .absent := by
    cases m.daemon with
    | absent => simp [alvsGenlParseDaemonFromMsghdr]
    | malformed => simp [alvsGenlParseDaemonFromMsghdr]
    | parsed a =>
      simp only [alvsGenlParseDaemonFromMsghdr, reduceCtorEq, iff_false]
      split
      · split <;> simp
      · simp
  unfold withParsedDaemon
  cases hparse : alvsGenlParseDaemonFromMsghdr m.daemon (.zero, .zero) with
  | error =>
    refine .of_skip h hreq rfl (fun hc => ?_) fun hc => ?_
    · rw [hfault.mpr (hcrash.mp hc)] at hparse
      cases hparse
    · obtain ⟨-, daemons, hok⟩ := hends.mp hc
      rw [hok] at hparse
      cases hparse
  | fault => exact .of_crash h hreq (hcrash.mpr (hfault.mp hparse))
  | ok daemons =>
    have hnot : ¬ m.Crashes := fun hc => by
      rw [hfault.mpr (hcrash.mp hc)] at hparse
      cases hparse
    rw [runStats_map, runStats_statsOf]
    obtain ⟨hrow, hout⟩ | ⟨hrow, hrc, row, hcp, hsame⟩ := hp daemons.1
    · rw [hout]
      exact .of_unchanged h hreq (iff_of_false status_internalError fun hc =>
        hc.2 (hends.mpr ⟨hrow, daemons, hparse⟩))
    · refine .of_tables (hcp ▸ table_applicationInfo h) (table_ext (by rw [hcp]) (by rw [hcp]))
        hreq hsame (iff_of_true ?_ ⟨hnot, fun hc => (hends.mp hc).1 hrow⟩)
      obtain hrc | hrc := hrc <;>
      · rw [hrc]
        rfl

theorem done_getDest (h : s.cp.Sound) (hcmd : m.cmd = .getDest)
    (hprint : e.printStatsEnabled = true) :
    Done s e m (s.runStats (withParsedService m.service false fun svc =>
      (fun printed => MsgResult.of printed.1) <$> alvsDbPrintServersStats svc e.uninit)) := by
  have hreq : m.request = none := by simp [IpvsMsg.request, hcmd]
  have hcrash : ¬ m.Crashes := by simp [IpvsMsg.Crashes, hcmd]
  have hends : m.Ends e s.cp.table s.cp.HasRow ↔
      ∃ svc, m.named = some svc ∧ s.cp.findService svc.tuple = none := by
    simp only [IpvsMsg.Ends, hcmd, hprint, service_eq_none, true_and]
  obtain ⟨hnamed, hrun⟩ | ⟨entry, hnamed, hrun⟩ := @run_parsed_short s m fun svc =>
    (fun printed => MsgResult.of printed.1) <$> alvsDbPrintServersStats svc e.uninit
  · rw [hrun]
    refine .of_skip h hreq rfl hcrash fun hc => ?_
    obtain ⟨svc, hsvc, -⟩ := hends.mp hc
    rw [hnamed] at hsvc
    cases hsvc
  · rw [hrun, runStats_map]
    cases hfind : s.cp.findService entry.toIpVsServiceUser.tuple with
    | none =>
      have hprinted : s.runStats (alvsDbPrintServersStats entry.toIpVsServiceUser e.uninit) =
          ((.internalError, []), s) := by
        have hget : s.runStats (getService entry.toIpVsServiceUser.tuple) = (some none, s) := by
          rw [← hfind]
          rfl
        rw [alvsDbPrintServersStats, runStats_bind, hget]
        rfl
      rw [hprinted]
      exact .of_unchanged h hreq (iff_of_false status_internalError fun hc =>
        hc.2 (hends.mpr ⟨entry, hnamed, hfind⟩))
    | some v =>
      rw [runStats_printServersStats s _ _ (by rw [hfind]; rfl)]
      refine .of_skip h hreq rfl hcrash fun hc => ?_
      obtain ⟨svc, hsvc, hnone⟩ := hends.mp hc
      obtain rfl := Option.some.inj (hnamed.symm.trans hsvc)
      exact Option.some_ne_none v (hfind.symm.trans hnone)

theorem done_getService (h : s.cp.Sound) (hcmd : m.cmd = .getService) :
    Done s e m (s.runStats (alvsMsgParser e m)) := by
  have hdone : Done s e m (.nlOk, s) := .of_skip h (by simp [IpvsMsg.request, hcmd]) rfl
    (by simp [IpvsMsg.Crashes, hcmd]) (by simp [IpvsMsg.Ends, hcmd])
  have herrors : s.runStats alvsDbPrintGlobalErrorStats = ((.ok, nonzeroCounters
      (s.nps.postedCounters alvsErrorStatsBase alvsNumOfAlvsErrorStats)), s) := rfl
  have hif (interfaces : List UInt32) : (s.runStats (printInterfaces interfaces)).2 = s := by
    induction interfaces with
    | nil => rfl
    | cons i interfaces ih =>
      have hprinted : s.runStats (nwDbPrintInterfaceStats i) = (some (nonzeroCounters
          (s.nps.postedCounters (ifStatsBase.add (i * nwNumOfIfStats)) nwNumOfIfStats)), s) := rfl
      simp only [printInterfaces, runStats_bind, hprinted, runStats_pure]
      exact ih
  unfold alvsMsgParser
  rw [hcmd]
  cases e.printStatsEnabled with
  | false => exact hdone
  | true =>
    simp only [if_true, runStats_bind, herrors, nwDbPrintAllInterfacesStats, hif]
    split
    · rw [runStats_bind, runStats_printServicesStats]
      exact hdone
    · exact hdone

/-- Counters are not in the table. -/
theorem Cp.table_savedWhere {cp : Cp} {nps : Nps} {p : DbService → Bool} {q : ServerRow → Bool} :
    (cp.savedWhere nps p q).table = cp.table := by
  have hservice (v : DbService) : (if p v then v.saved nps else v).tuple = v.tuple := by
    split <;> rfl
  have hserver (r : ServerRow) : (if q r then r.saved nps else r).key = r.key := by
    split <;> rfl
  refine VsTable.ext (funext fun t => ?_) (funext fun k => ?_)
  · have hget := Rows.get_map (k := t) DbService.tuple cp.services hservice
    simp only [Cp.table, findService_eq, Cp.savedWhere, hget, Option.map_map]
    refine congrArg (fun f => Option.map f _) (funext fun v => ?_)
    show (if p v then v.saved nps else v).vs = v.vs
    split <;> rfl
  · have hget := Rows.get_map (k := k) ServerRow.key cp.servers hserver
    simp only [Cp.table, findServer_eq, Cp.savedWhere, hget, Option.map_map]
    refine congrArg (fun f => Option.map f _) (funext fun r => ?_)
    show (if q r then r.saved nps else r).server.vs = r.server.vs
    split <;> rfl

theorem Cp.Held.savedWhere {cp : Cp} (h : cp.Held) {nps : Nps} {p : DbService → Bool}
    {q : ServerRow → Bool} : (cp.savedWhere nps p q).Held := by
  refine ⟨(h.mapServices fun v => ?_).services, (h.mapServers fun r => ?_).servers⟩
  · split <;> rfl
  · split <;> rfl

theorem done_zero (h : s.cp.Sound) (hcmd : m.cmd = .zero) :
    Done s e m (s.runStats (MsgResult.of <$> alvsDbClearStats e.uninit)) := by
  rw [runStats_map, runStats_clearStats h.1]
  exact .of_tables ⟨Ledger.inv_clearedStats h.1, h.2.savedWhere⟩ Cp.table_savedWhere
    (by simp [IpvsMsg.request, hcmd]) Iff.rfl
    (iff_of_true rfl ⟨by simp [IpvsMsg.Crashes, hcmd], by simp [IpvsMsg.Ends, hcmd]⟩)

/-- Every message is served as its request. -/
theorem done_msgParser (h : s.cp.Sound) : Done s e m (s.runStats (alvsMsgParser e m)) := by
  cases hcmd : m.cmd with
  | getService => exact done_getService h hcmd
  | newService =>
    unfold alvsMsgParser
    rw [hcmd]
    refine done_full h .newService .addService (by simp only [IpvsMsg.request, hcmd])
      (by simp only [IpvsMsg.Crashes, hcmd]) (by simp [IpvsMsg.Ends, hcmd]) (fun _ => rfl)
      fun u f hflags => served_addService h.1 h.2 fun hnone => ?_
    rw [hflags, hnone]
    rfl
  | setService =>
    unfold alvsMsgParser
    rw [hcmd]
    refine done_full h .setService .modifyService
      (by simp only [IpvsMsg.request, hcmd]) (by simp only [IpvsMsg.Crashes, hcmd])
      (by simp [IpvsMsg.Ends, hcmd]) (fun _ => rfl)
      fun u f hflags => served_modifyService fun v hv => ?_
    rw [hflags, hv]
    rfl
  | delService =>
    unfold alvsMsgParser
    rw [hcmd]
    exact done_delService h hcmd
  | newDest =>
    unfold alvsMsgParser
    rw [hcmd]
    exact done_dest h true (fun u d => .newDest (serverKey u d) d.vs) .addServer
      (by simp only [IpvsMsg.request, hcmd]) (by simp only [IpvsMsg.Crashes, hcmd])
      (by simp [IpvsMsg.Ends, hcmd]) (fun _ _ => rfl) fun _ _ => served_addServer h.1 h.2
  | setDest =>
    unfold alvsMsgParser
    rw [hcmd]
    exact done_dest h true (fun u d => .setDest (serverKey u d) d.vs) .modifyServer
      (by simp only [IpvsMsg.request, hcmd]) (by simp only [IpvsMsg.Crashes, hcmd])
      (by simp [IpvsMsg.Ends, hcmd]) (fun _ _ => rfl) fun _ _ => served_modifyServer h.1.algs
  | delDest =>
    unfold alvsMsgParser
    rw [hcmd]
    refine done_dest h false (fun u d => .delDest (serverKey u d)) .deleteServer
      (by simp only [IpvsMsg.request, hcmd]) ?_ (by simp [IpvsMsg.Ends, hcmd]) (fun _ _ => rfl)
      fun _ _ => served_deleteServer h.1.algs
    refine iff_of_false (by simp [IpvsMsg.Crashes, hcmd]) ?_
    rintro ⟨-, a, -, hfault⟩
    exact parseDest_short a hfault
  | newDaemon =>
    unfold alvsMsgParser
    rw [hcmd]
    exact done_daemon h (.inl hcmd) fun d => startDaemon_done e.ifaddr d
  | delDaemon =>
    unfold alvsMsgParser
    rw [hcmd]
    exact done_daemon h (.inr hcmd) fun d => stopDaemon_done d
  | zero =>
    unfold alvsMsgParser
    rw [hcmd]
    exact done_zero h hcmd
  | getDest =>
    unfold alvsMsgParser
    rw [hcmd]
    cases hprint : e.printStatsEnabled with
    | true => exact done_getDest h hcmd hprint
    | false =>
      exact .of_skip h (by simp [IpvsMsg.request, hcmd]) rfl (by simp [IpvsMsg.Crashes, hcmd])
        (by simp [IpvsMsg.Ends, hcmd, hprint])
  | flush =>
    unfold alvsMsgParser
    rw [hcmd]
    exact .of_op h .clear rfl (by simp only [IpvsMsg.request, hcmd])
      (by simp [IpvsMsg.Crashes, hcmd]) (by simp [IpvsMsg.Ends, hcmd]) served_clear
  | getDaemon | getInfo | other =>
    unfold alvsMsgParser
    rw [hcmd]
    exact .of_skip h (by simp [IpvsMsg.request, hcmd]) rfl (by simp [IpvsMsg.Crashes, hcmd])
      (by simp [IpvsMsg.Ends, hcmd])

end Messages

end Alvs
