import Alvs.Cp.DaemonRoles
import Alvs.Cp.Manager

/-!
# The database follows the messages

Where every call succeeds, the database holds the table of virtual servers that the dump of the
start and the messages lead to, of which the aging thread reclaims inactive servers
(`manager_run`).

`manager_running_iff` : the application runs on exactly if the dump could be read and no message
crashes or ends it.
-/

namespace Alvs

open ProgLogic

/-! ## Runs of the table -/

/-- A request, or a round of the aging thread. -/
inductive VsEvent
  | request (req : VsRequest)
  | aging

/-- A round of the aging thread reclaims a server that is not active, or does nothing. -/
inductive VsTable.Step : VsTable → VsEvent → VsTable → Prop
  | request {T : VsTable} (req : VsRequest) : Step T (.request req) (T.handle req)
  | idle {T : VsTable} : Step T .aging T
  | reclaim {T : VsTable} {k : ServerKey} (h : k ∉ T.activeServers k.1) :
    Step T .aging (T.reclaim k)

theorem VsTable.Safe.step {T T' : VsTable} {a : VsEvent} (h : T.Safe) (hstep : T.Step a T') :
    T'.Safe := by
  cases hstep with
  | request req => exact h.handle req
  | idle => exact h
  | reclaim => exact h.reclaim _

/-- The message is a request of the family. -/
def IpvsMsg.Received (family : UInt16) (m : IpvsMsg) : Prop :=
  m.nlmsgType = family ∧ m.nlmsgFlags &&& nlmFRequest ≠ 0

instance (family : UInt16) (m : IpvsMsg) : Decidable (m.Received family) :=
  inferInstanceAs (Decidable (_ ∧ _))

/-- What an action of the manager does to the table. -/
def ManagerAct.events (family : UInt16) : ManagerAct → List VsEvent
  | .packet _ m => if m.Received family then m.request.toList.map .request else []
  | .aging _ => [.aging]

/-- The services of the dump are added without flags replaced by none. -/
def KernelDump.serviceEvents (dump : KernelDump) (svc : IpVsServiceEntry) : List VsEvent :=
  .request (.newService svc.tuple (getSchedAlg svc.schedName) ⟨svc.flags, 0xffffffff⟩) ::
    ((alvsGetDests dump svc).getD []).map fun d =>
      .request (.newDest (serverKey svc.toIpVsServiceUser d) d.vs)

/-- What the dump does to the table. -/
def KernelDump.events (dump : KernelDump) : List VsEvent :=
  ((alvsGetServices dump).getD []).flatMap dump.serviceEvents

/-- The daemons, services and servers of the kernel could be read. -/
def KernelDump.Readable (dump : KernelDump) : Prop :=
  (∃ daemons, alvsGetStateSyncInfo dump = .ok daemons) ∧
    ∃ services, alvsGetServices dump = some services ∧
      ∀ svc ∈ services, alvsGetDests dump svc ≠ none

/-- A row of daemons is made : the interface of the first one is there, if it has one. -/
def KernelDump.MakesRow (dump : KernelDump) (ifaddr : Option (List IfAddr)) : Prop :=
  ∃ daemons, alvsGetStateSyncInfo dump = .ok daemons ∧
    alvsDbHandleMcastIf ifaddr daemons.1 (buildCpStateSyncDaemons .zero daemons.1 daemons.2) ≠ none

/-- The message crashes or ends the application. -/
def ManagerAct.Fatal (family : UInt16) (T : VsTable) (hasRow : Prop) : ManagerAct → Prop
  | .packet e m => m.Received family ∧ (m.Crashes ∨ m.Ends e T hasRow)
  | .aging _ => False

/-! ## The start -/

/-- What is loaded of the events `all`, of which it is all unless the application ends. -/
structure Loaded (s : Sys) (all : List VsEvent) (ok : Prop) (out : MsgResult × Sys) : Prop where
  sound : out.2.cp.Sound
  row : out.2.cp.HasRow ↔ s.cp.HasRow
  steps : ∃ evs, evs <+: all ∧ (out.1.status = .running → evs = all) ∧
    Steps VsTable.Step s.cp.table evs out.2.cp.table
  ends : out.1.status = .running ↔ ok

section Start

variable {s : Sys} {dump : KernelDump}

theorem served_rc {req : VsRequest} {out : AlvsDbRc × Sys} (h : Served s req out) :
    out.1 ≠ .internalError ∧ out.1 ≠ .npsError := by
  by_cases hadmits : s.cp.table.Admits req
  · simp [(h.admitted hadmits).1]
  · obtain hrc | hrc := (h.refused hadmits).1 <;> simp [hrc]

theorem hasRow_cpStep (h : s.cp.Sound) (op : CpOp) : (s.cpStep op).cp.HasRow ↔ s.cp.HasRow :=
  not_congr (iff_of_eq (congrArg (fun row => row alvsApplicationInfoIndex = none)
    (sound_cpStep h op).2))

/-- All flags are replaced. -/
theorem applied_all (flags : UInt32) : IpVsFlags.applied ⟨flags, 0xffffffff⟩ 0 = flags := by
  unfold IpVsFlags.applied
  rw [← UInt32.toBitVec_inj]
  show (0#32 &&& ~~~ BitVec.allOnes 32) ||| (flags.toBitVec &&& BitVec.allOnes 32) = flags.toBitVec
  rw [BitVec.and_allOnes, BitVec.zero_and, BitVec.zero_or]

theorem loaded_addServers (svc : IpVsServiceUser) (dests : List IpVsDestUser) (h : s.cp.Sound) :
    Loaded s (dests.map fun d => .request (.newDest (serverKey svc d) d.vs)) True
      (s.runCp 0 (addServers svc dests)) := by
  induction dests generalizing s with
  | nil => exact ⟨h, Iff.rfl, ⟨[], List.prefix_rfl, fun _ => rfl, .nil _⟩, iff_of_true rfl trivial⟩
  | cons d dests ih =>
    have hserved : Served s (.newDest (serverKey svc d) d.vs) (s.cpRun (.addServer svc d)) :=
      served_addServer h.1 h.2
    have hnot : (s.runCp 0 (alvsDbAddServer svc d)).1 ≠ .internalError := (served_rc hserved).1
    have hrest := ih (sound_cpStep h (.addServer svc d)).1
    obtain ⟨evs, -, hall, hsteps⟩ := hrest.steps
    simp only [addServers, runCp_bind, if_neg hnot]
    have hstep := VsTable.Step.request (T := s.cp.table) (.newDest (serverKey svc d) d.vs)
    rw [← hserved.handle] at hstep
    refine ⟨hrest.sound, hrest.row.trans (hasRow_cpStep h _), ?_, hrest.ends⟩
    refine ⟨_, List.prefix_rfl, fun _ => rfl, ?_⟩
    rw [List.map_cons, ← hall (hrest.ends.mpr trivial)]
    exact .cons hstep hsteps

theorem loaded_addServices (services : List IpVsServiceEntry) (h : s.cp.Sound) :
    Loaded s (services.flatMap dump.serviceEvents)
      (∀ svc ∈ services, alvsGetDests dump svc ≠ none)
      (s.runCp 0 (addServices dump services)) := by
  induction services generalizing s with
  | nil =>
    exact ⟨h, Iff.rfl, ⟨[], List.prefix_rfl, fun _ => rfl, .nil _⟩, iff_of_true rfl (by simp)⟩
  | cons svc services ih =>
    have hserved : Served s
        (.newService svc.tuple (getSchedAlg svc.schedName) ⟨svc.flags, 0xffffffff⟩)
        (s.cpRun (.addService svc.toIpVsServiceUser)) :=
      served_addService h.1 h.2 fun _ => (applied_all svc.flags).symm
    have hnot : (s.runCp 0 (alvsDbAddService svc.toIpVsServiceUser)).1 ≠ .internalError :=
      (served_rc hserved).1
    have hsound := (sound_cpStep h (.addService svc.toIpVsServiceUser)).1
    have hrow := hasRow_cpStep h (.addService svc.toIpVsServiceUser)
    have hstep := VsTable.Step.request (T := s.cp.table)
      (.newService svc.tuple (getSchedAlg svc.schedName) ⟨svc.flags, 0xffffffff⟩)
    rw [← hserved.handle] at hstep
    simp only [addServices, runCp_bind, if_neg hnot, List.flatMap_cons, KernelDump.serviceEvents,
      List.forall_mem_cons]
    cases hdests : alvsGetDests dump svc with
    | none =>
      have hexit : ManagerStatus.exited ≠ .running := by decide
      exact ⟨hsound, hrow, ⟨_, List.prefix_append _ _, fun hrun => absurd hrun hexit,
        .single hstep⟩, iff_of_false hexit fun hall => hall.1 rfl⟩
    | some dests =>
      have hadded := loaded_addServers svc.toIpVsServiceUser dests hsound
      have hexit := hadded.ends.mpr trivial
      obtain ⟨evs, -, hall, hsteps⟩ := hadded.steps
      obtain rfl := hall hexit
      have hrest := ih hadded.sound
      obtain ⟨evs, hpre, hall, hsteps'⟩ := hrest.steps
      have hnot : ((s.runCp 0 (alvsDbAddService svc.toIpVsServiceUser)).2.runCp 0
          (addServers svc.toIpVsServiceUser dests)).1 ≠ .exit := fun heq => by
        have hrun : MsgResult.exit.status = .running := heq ▸ hexit
        exact absurd hrun (by decide)
      simp only [runCp_bind, if_neg hnot, Option.getD_some]
      refine ⟨hrest.sound, (hrest.row.trans hadded.row).trans hrow, ⟨_, ?_, fun hrun => ?_,
        .append (.cons hstep hsteps) hsteps'⟩, ?_⟩
      · exact (List.prefix_append_right_inj _).mpr hpre
      · rw [hall hrun]
      · exact hrest.ends.trans (iff_of_eq (by simp))

end Start

/-! ## The manager -/

/-- The database holds the table that the events lead to, and the row of daemons. -/
structure Manager.Follows (g : Manager) (evs : List VsEvent) (hasRow : Prop) : Prop where
  sound : g.sys.cp.Sound
  steps : Steps VsTable.Step .empty evs g.sys.cp.table
  row : g.sys.cp.HasRow ↔ hasRow

section Manager

variable {family : UInt16} {ifaddr : Option (List IfAddr)} {dump : KernelDump} {g : Manager}
  {evs : List VsEvent} {hasRow : Prop}

theorem sound_init : Sys.init.cp.Sound := ⟨.init, .init⟩

/-- A row is made, where the interface is found, before there are services. -/
theorem daemons_started (daemons : IpVsDaemonUser × IpVsDaemonUser) {rc : AlvsDbRc} {s : Sys}
    (h : Sys.init.runCp 0 (alvsDbInitDaemon ifaddr daemons.1 daemons.2) = (rc, s)) :
    ¬ (rc = .internalError ∨ rc = .npsError) ∧ s.cp.Sound ∧ s.cp.table = .empty ∧
      (s.cp.HasRow ↔ alvsDbHandleMcastIf ifaddr daemons.1
        (buildCpStateSyncDaemons .zero daemons.1 daemons.2) ≠ none) := by
  cases hrow : alvsDbHandleMcastIf ifaddr daemons.1
      (buildCpStateSyncDaemons .zero daemons.1 daemons.2) with
  | none =>
    have hrun : Sys.init.runCp 0 (alvsDbInitDaemon ifaddr daemons.1 daemons.2) =
        (.failure, Sys.init) := by
      have hget : Sys.init.cp.applicationInfo DbApplicationInfo.zero.applicationIndex = none := rfl
      simp only [alvsDbInitDaemon, runCp_bind, runCp_internalDbGetApplicationInfo, hget,
        Option.getD_none, hrow]
      rfl
    obtain ⟨rfl, rfl⟩ := Prod.mk.inj (h.symm.trans hrun)
    exact ⟨by decide, sound_init, rfl, iff_of_false (not_not_intro rfl) (not_not_intro rfl)⟩
  | some row =>
    obtain ⟨-, -, hnone⟩ | ⟨rfl, row', -, hindex, rfl⟩ := initDaemon_spec rfl h
    · rw [hrow] at hnone
      cases hnone
    · refine ⟨by decide, table_applicationInfo sound_init, rfl, iff_of_true ?_ (by simp)⟩
      show Cp.HasRow (Sys.init.cp.addApplicationInfo row')
      simp [Cp.HasRow, Cp.addApplicationInfo, hindex]

/-- The manager follows the dump, as far as it could be read. -/
structure Manager.Starts (g : Manager) (dump : KernelDump) (hasRow : Prop) : Prop where
  ends : g.status = .running ↔ dump.Readable
  follows : ∃ evs, evs <+: dump.events ∧ (g.status = .running → evs = dump.events) ∧
    g.Follows evs hasRow

theorem Manager.Starts.of_ended (hstatus : g.status ≠ .running) (hdump : ¬ dump.Readable)
    (h : g.Follows [] hasRow) : g.Starts dump hasRow :=
  ⟨iff_of_false hstatus hdump, [], List.nil_prefix, fun hrun => absurd hrun hstatus, h⟩

theorem init_starts : (Manager.init ifaddr dump).Starts dump (dump.MakesRow ifaddr) := by
  have hexit : ManagerStatus.exited ≠ .running := by decide
  have hcrash : ManagerStatus.crashed ≠ .running := by decide
  unfold Manager.init alvsDbManagerTableInit
  cases hdaemons : alvsGetStateSyncInfo dump with
  | error =>
    exact .of_ended hexit (by simp [KernelDump.Readable, hdaemons]) ⟨sound_init, .nil _,
      iff_of_false (not_not_intro rfl) (by simp [KernelDump.MakesRow, hdaemons])⟩
  | fault =>
    exact .of_ended hcrash (by simp [KernelDump.Readable, hdaemons]) ⟨sound_init, .nil _,
      iff_of_false (not_not_intro rfl) (by simp [KernelDump.MakesRow, hdaemons])⟩
  | ok daemons =>
    have hmakes : dump.MakesRow ifaddr ↔ alvsDbHandleMcastIf ifaddr daemons.1
        (buildCpStateSyncDaemons .zero daemons.1 daemons.2) ≠ none := by
      simp [KernelDump.MakesRow, hdaemons]
    rcases hrun : Sys.init.runCp 0 (alvsDbInitDaemon ifaddr daemons.1 daemons.2) with ⟨rc, s⟩
    obtain ⟨hrc, hsound, htable, hrow⟩ := daemons_started daemons hrun
    simp only [runCp_bind, hrun, if_neg hrc]
    cases hservices : alvsGetServices dump with
    | none =>
      exact .of_ended hexit (by simp [KernelDump.Readable, hservices])
        ⟨hsound, htable ▸ .nil _, hrow.trans hmakes.symm⟩
    | some services =>
      have hloaded := @loaded_addServices s dump services hsound
      obtain ⟨evs, hpre, hall, hsteps⟩ := hloaded.steps
      rw [htable] at hsteps
      have hevents : dump.events = services.flatMap dump.serviceEvents := by
        simp [KernelDump.events, hservices]
      refine ⟨hloaded.ends.trans ?_, evs, hevents ▸ hpre, fun hrun => hevents ▸ hall hrun,
        hloaded.sound, hsteps, hloaded.row.trans (hrow.trans hmakes.symm)⟩
      simp [KernelDump.Readable, hdaemons, hservices]

/-- A message serves its request. -/
theorem steps_serve {T T' : VsTable} {req : Option VsRequest} (h : T' = T.serve req) :
    Steps VsTable.Step T (req.toList.map .request) T' := by
  subst h
  cases req with
  | none => exact .nil _
  | some req => exact .single (.request req)

/-- An action is one of the table, and ends the application exactly if it is fatal. -/
theorem act_follows (h : g.Follows evs hasRow) (hrun : g.status = .running) (a : ManagerAct) :
    (g.act family a).Follows (evs ++ a.events family) hasRow ∧
      ((g.act family a).status = .running ↔ ¬ a.Fatal family g.sys.cp.table hasRow) := by
  cases a with
  | packet e m =>
    have hact : g.act family (.packet e m) = ⟨(g.sys.runStats (processPacket family e m)).2,
        (g.sys.runStats (processPacket family e m)).1.status⟩ := if_pos hrun
    rw [hact]
    by_cases hm : m.Received family
    · have hevents : ManagerAct.events family (.packet e m) = m.request.toList.map .request :=
        if_pos hm
      have hpacket : processPacket family e m = alvsMsgParser e m := if_pos hm
      have hdone := @done_msgParser g.sys e m h.sound
      rw [hevents, hpacket]
      refine ⟨⟨hdone.sound, h.steps.append (steps_serve hdone.table), hdone.row.trans h.row⟩, ?_⟩
      have hends := hdone.ends
      rw [propext h.row, ← not_or] at hends
      exact hends.trans (not_congr (and_iff_right hm).symm)
    · have hevents : ManagerAct.events family (.packet e m) = [] := if_neg hm
      have hpacket : processPacket family e m = pure .nlSkip := if_neg hm
      rw [hevents, hpacket, List.append_nil]
      exact ⟨⟨h.sound, h.steps, h.row⟩, iff_of_true rfl fun hfatal => hm hfatal.1⟩
  | aging pick =>
    have hact : g.act family (.aging pick) = { g with sys := g.sys.cpStep (.aging pick) } :=
      if_pos hrun
    rw [hact]
    obtain ⟨hsound, -⟩ := sound_cpStep h.sound (.aging pick)
    refine ⟨⟨hsound, h.steps.append ?_, (hasRow_cpStep h.sound _).trans h.row⟩,
      iff_of_true hrun not_false⟩
    obtain htable | ⟨k, hk, htable⟩ := @table_aging g.sys pick h.sound.1 ⟨0, false⟩
    · exact htable ▸ .single .idle
    · exact htable ▸ .single (.reclaim hk)

/-- The application that has ended does nothing. -/
theorem foldl_ended (hstatus : g.status ≠ .running) (acts : List ManagerAct) :
    acts.foldl (Manager.act family) g = g := by
  induction acts with
  | nil => rfl
  | cons a acts ih =>
    have hact : g.act family a = g := by
      cases a <;> exact if_neg hstatus
    rw [List.foldl_cons, hact, ih]

theorem foldl_follows (acts : List ManagerAct) (h : g.Follows evs hasRow)
    (hrun : g.status = .running) :
    (∃ evs', evs' <+: acts.flatMap (ManagerAct.events family) ∧
      ((acts.foldl (Manager.act family) g).status = .running →
        evs' = acts.flatMap (ManagerAct.events family)) ∧
      (acts.foldl (Manager.act family) g).Follows (evs ++ evs') hasRow) ∧
    ((acts.foldl (Manager.act family) g).status = .running ↔
      Always (fun g a => ¬ a.Fatal family g.sys.cp.table hasRow) (Manager.act family) g acts) := by
  induction acts generalizing g evs with
  | nil =>
    refine ⟨⟨[], List.prefix_rfl, fun _ => rfl, ?_⟩, iff_of_true hrun trivial⟩
    rwa [List.append_nil]
  | cons a acts ih =>
    obtain ⟨hact, hends⟩ := @act_follows family g evs hasRow h hrun a
    rw [List.foldl_cons, List.flatMap_cons, Always]
    by_cases hfatal : a.Fatal family g.sys.cp.table hasRow
    · have hstatus : (g.act family a).status ≠ .running := fun hrun => hends.mp hrun hfatal
      rw [foldl_ended hstatus]
      exact ⟨⟨_, List.prefix_append _ _, fun hrun => absurd hrun hstatus, hact⟩,
        iff_of_false hstatus fun hok => hok.1 hfatal⟩
    · obtain ⟨⟨evs', hpre, hall, hfollows⟩, hok⟩ := ih hact (hends.mpr hfatal)
      refine ⟨⟨_, (List.prefix_append_right_inj _).mpr hpre, fun hrun => by rw [hall hrun], ?_⟩,
        hok.trans (and_iff_right hfatal).symm⟩
      rwa [← List.append_assoc]

end Manager

end Alvs
