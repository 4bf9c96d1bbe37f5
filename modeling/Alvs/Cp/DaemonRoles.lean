import Alvs.Cp.Daemon
import Alvs.Cp.Exec

/-!
# The roles of the load balancer

The daemons that run at the start are set once (`DaemonState.init`), then daemons are
started and stopped. `DaemonState` records beside the state which master was started and
what `getifaddrs` returned for it, so that `MasterRecorded` can say of a row that its source
address is an address of the master's interface and its sync id the master's.

`DaemonsOk` is what holds after every step : the entry of the chip is the one built from the
row, the row records the master, a command that is rejected changes nothing, and a command
of one role leaves the fields of the other. It holds where a list that is accepted does not
name the master second and sync ids have 8 bits (`daemons_run`) : of the list, only the
first daemon's interface gives a source address (`daemons_fail`).
-/

namespace Alvs

open ProgLogic

/-! ## Commands -/

inductive DaemonCommand
  | start (ifaddr : Option (List IfAddr)) (d : IpVsDaemonUser)
  | stop (d : IpVsDaemonUser)

namespace DaemonCommand

def daemon : DaemonCommand → IpVsDaemonUser
  | start _ d => d
  | stop d => d

end DaemonCommand

/-- The result of a command all of whose calls succeed, and the state after it. -/
def Sys.daemonRun (s : Sys) : DaemonCommand → AlvsDbRc × Sys
  | .start ifaddr d => s.runCp 0 (alvsDbStartDaemon ifaddr d)
  | .stop d => s.runCp 0 (alvsDbStopDaemon d)

/-- No daemon : an element of the array that is left as `memset` made it. -/
def IpVsDaemonUser.none : IpVsDaemonUser := ⟨0, "", 0⟩

/-- A list of daemons with different roles. -/
structure DaemonList (daemons : List IpVsDaemonUser) : Prop where
  roles : ∀ d ∈ daemons, d.state = ipVsStateMaster ∨ d.state = ipVsStateBackup
  distinct : daemons.Pairwise fun d d' => d.state ≠ d'.state

/-- The daemons that run at the start are set. -/
def initDaemonRun (ifaddr : Option (List IfAddr)) (daemons : List IpVsDaemonUser) :
    AlvsDbRc × Sys :=
  Sys.init.runCp 0 (alvsDbInitDaemon ifaddr (daemons.getD 0 .none) (daemons.getD 1 .none))

/-- The state, and the master that was started with the interfaces of that moment. -/
structure DaemonState where
  sys : Sys
  master : Option (Option (List IfAddr) × IpVsDaemonUser)

namespace DaemonState

def init (ifaddr : Option (List IfAddr)) (daemons : List IpVsDaemonUser) : DaemonState where
  sys := (initDaemonRun ifaddr daemons).2
  master :=
    if (initDaemonRun ifaddr daemons).1 = .ok then
      (daemons.find? fun d => d.state = ipVsStateMaster).map (ifaddr, ·)
    else none

/-- The master that is recorded after a command that is accepted. -/
def recorded (master : Option (Option (List IfAddr) × IpVsDaemonUser)) :
    DaemonCommand → Option (Option (List IfAddr) × IpVsDaemonUser)
  | .start ifaddr d => if d.state = ipVsStateMaster then some (ifaddr, d) else master
  | .stop d => if d.state = ipVsStateMaster then none else master

def step (s : DaemonState) (c : DaemonCommand) : DaemonState where
  sys := (s.sys.daemonRun c).2
  master := if (s.sys.daemonRun c).1 = .ok then recorded s.master c else s.master

end DaemonState

/-! ## What the row records -/

/-- `ip` is an address of the interface. -/
def HasAddress (ifaddr : Option (List IfAddr)) (ifn : String) (ip : UInt32) : Prop :=
  ∃ l ∈ ifaddr, ∃ i ∈ l, i.ifaName = ifn ∧ i.inet.map bswap32 = some ip

instance (ifaddr : Option (List IfAddr)) (ifn : String) (ip : UInt32) :
    Decidable (HasAddress ifaddr ifn ip) :=
  inferInstanceAs (Decidable (∃ l ∈ ifaddr, ∃ i ∈ l, i.ifaName = ifn ∧ _ = some ip))

/-- The row is that of the master, or of none. -/
def MasterRecorded (c : DbApplicationInfo) :
    Option (Option (List IfAddr) × IpVsDaemonUser) → Prop
  | none => c.isMaster = false ∧ c.mSyncId = 0 ∧ c.sourceIp = 0
  | some (ifaddr, d) =>
    c.isMaster = true ∧ (c.mSyncId.toNat : Int) = d.syncid.toInt ∧
      HasAddress ifaddr d.mcastIfn c.sourceIp

/-- The daemon runs. -/
def Sys.Runs (s : Sys) (d : IpVsDaemonUser) : Prop :=
  ∃ c ∈ s.cp.applicationInfo alvsApplicationInfoIndex,
    (d.state = ipVsStateMaster → c.isMaster = true) ∧
    (d.state = ipVsStateBackup → c.isBackup = true)

/-- The fields of the master are the same in two rows. -/
def SameMaster (c c' : DbApplicationInfo) : Prop :=
  c'.isMaster = c.isMaster ∧ c'.mSyncId = c.mSyncId ∧ c'.sourceIp = c.sourceIp

/-- The fields of the backup are the same in two rows. -/
def SameBackup (c c' : DbApplicationInfo) : Prop :=
  c'.isBackup = c.isBackup ∧ c'.bSyncId = c.bSyncId

/-- What a command does : rejected it changes nothing, and the fields of the other role stay
as they are. -/
structure CommandOk (s : Sys) (c : DaemonCommand) : Prop where
  rejected : (s.daemonRun c).1 ≠ .ok → (s.daemonRun c).2 = s
  other : ∀ row ∈ s.cp.applicationInfo alvsApplicationInfoIndex,
    ∃ row' ∈ (s.daemonRun c).2.cp.applicationInfo alvsApplicationInfoIndex,
      (c.daemon.state = ipVsStateMaster → SameBackup row row') ∧
      (c.daemon.state = ipVsStateBackup → SameMaster row row')

/-- What holds of the daemons that are set at the start and after some commands. -/
structure DaemonsOk (ifaddr : Option (List IfAddr)) (daemons : List IpVsDaemonUser)
    (commands : List DaemonCommand) : Prop where
  rejected : (initDaemonRun ifaddr daemons).1 ≠ .ok → (initDaemonRun ifaddr daemons).2 = Sys.init
  runs : (initDaemonRun ifaddr daemons).1 = .ok →
    ∀ d ∈ daemons, (initDaemonRun ifaddr daemons).2.Runs d
  mirror :
    let s := (commands.foldl DaemonState.step (.init ifaddr daemons)).sys
    s.nps.applicationInfo alvsApplicationInfoIndex =
      (s.cp.applicationInfo alvsApplicationInfoIndex).map buildNpsApplicationInfoResult
  master :
    let s := commands.foldl DaemonState.step (.init ifaddr daemons)
    ∀ row ∈ s.sys.cp.applicationInfo alvsApplicationInfoIndex, MasterRecorded row s.master
  command : ∀ c, CommandOk (commands.foldl DaemonState.step (.init ifaddr daemons)).sys c

/-! ## The condition -/

/-- A daemon with a sync id of 8 bits, if it is a master. -/
def IpVsDaemonUser.SyncidOk (d : IpVsDaemonUser) : Prop :=
  d.state = ipVsStateMaster → (d.storedSyncid.toNat : Int) = d.syncid.toInt

instance (d : IpVsDaemonUser) : Decidable d.SyncidOk := inferInstanceAs (Decidable (_ → _))

/-- The second daemon is not a master, or the interface of the first is not configured. -/
def InitOk (ifaddr : Option (List IfAddr)) : List IpVsDaemonUser → Prop
  | [d, d'] => d'.state = ipVsStateMaster → alvsDbHandleMcastIf ifaddr d .zero = none
  | _ => True

/-! ## The interfaces -/

/-- The rows differ at most in the source address; that of a master meets `P`. -/
def SetsSource (d : IpVsDaemonUser) (c c' : DbApplicationInfo) (P : UInt32 → Prop) : Prop :=
  ∃ ip, c' = { c with sourceIp := ip } ∧ (d.state ≠ ipVsStateMaster → ip = c.sourceIp) ∧
    (d.state = ipVsStateMaster → P ip)

theorem SetsSource.mono {d : IpVsDaemonUser} {c c' : DbApplicationInfo} {P Q : UInt32 → Prop}
    (h : SetsSource d c c' P) (hPQ : ∀ ip, P ip → Q ip) : SetsSource d c c' Q := by
  obtain ⟨ip, hc', hother, hmaster⟩ := h
  exact ⟨ip, hc', hother, fun hm => hPQ ip (hmaster hm)⟩

/-- The loop over the interfaces takes an address of the interface. -/
theorem mcastIfLoop_spec {d : IpVsDaemonUser} : ∀ {l : List IfAddr} {res : Bool}
    {c c' : DbApplicationInfo}, mcastIfLoop d l res c = some c' →
    SetsSource d c c' fun ip => res = true ∧ ip = c.sourceIp ∨
      ∃ i ∈ l, i.ifaName = d.mcastIfn ∧ i.inet.map bswap32 = some ip
  | [], res, c, c', h => by
    cases res with
    | false => simp [mcastIfLoop] at h
    | true =>
      obtain rfl : c = c' := by simpa [mcastIfLoop] using h
      exact ⟨c.sourceIp, rfl, fun _ => rfl, fun _ => .inl ⟨rfl, rfl⟩⟩
  | i :: l, res, c, c', h => by
    have hskip : mcastIfLoop d l res c = some c' → SetsSource d c c' fun ip =>
        res = true ∧ ip = c.sourceIp ∨
          ∃ j ∈ i :: l, j.ifaName = d.mcastIfn ∧ j.inet.map bswap32 = some ip := fun h =>
      (mcastIfLoop_spec h).mono fun ip => .imp_right fun ⟨j, hj, hj'⟩ =>
        ⟨j, List.mem_cons_of_mem _ hj, hj'⟩
    unfold mcastIfLoop at h
    cases hinet : i.inet with
    | none =>
      rw [hinet] at h
      exact hskip h
    | some addr =>
      simp only [hinet] at h
      split at h
      · cases h
      split at h
      next hname =>
        obtain ⟨ip, hc', hother, hmaster⟩ := mcastIfLoop_spec h
        by_cases hm : d.state = ipVsStateMaster
        · rw [if_pos hm] at hc' hmaster
          refine ⟨ip, hc', fun hn => absurd hm hn, fun _ => .inr ?_⟩
          obtain ⟨-, rfl⟩ | ⟨j, hj, hj'⟩ := hmaster hm
          · exact ⟨i, List.mem_cons_self, hname, by simp [hinet]⟩
          · exact ⟨j, List.mem_cons_of_mem _ hj, hj'⟩
        · rw [if_neg hm] at hc' hother
          exact ⟨ip, hc', hother, fun h => absurd h hm⟩
      next => exact hskip h

/-- Whether the interface is configured does not depend on the row. -/
theorem mcastIfLoop_isSome {d : IpVsDaemonUser} : ∀ (l : List IfAddr) (res : Bool)
    (c c' : DbApplicationInfo), (mcastIfLoop d l res c).isSome = (mcastIfLoop d l res c').isSome
  | [], res, c, c' => by cases res <;> rfl
  | i :: l, res, c, c' => by
    unfold mcastIfLoop
    split
    · exact mcastIfLoop_isSome l res c c'
    · split
      · rfl
      split
      · exact mcastIfLoop_isSome l true _ _
      · exact mcastIfLoop_isSome l res c c'

theorem handleMcastIf_isSome (ifaddr : Option (List IfAddr)) (d : IpVsDaemonUser)
    (c c' : DbApplicationInfo) : (alvsDbHandleMcastIf ifaddr d c).isSome =
      (alvsDbHandleMcastIf ifaddr d c').isSome := by
  unfold alvsDbHandleMcastIf
  split
  · rfl
  cases ifaddr with
  | none => rfl
  | some l => exact mcastIfLoop_isSome l false c c'

/-- The source address of a master becomes one of its interface, and nothing else changes. -/
theorem handleMcastIf_spec {ifaddr : Option (List IfAddr)} {d : IpVsDaemonUser}
    {c c' : DbApplicationInfo} (h : alvsDbHandleMcastIf ifaddr d c = some c') :
    SetsSource d c c' (HasAddress ifaddr d.mcastIfn) := by
  unfold alvsDbHandleMcastIf at h
  split at h
  next hnone =>
    obtain rfl := Option.some.inj h
    exact ⟨c.sourceIp, rfl, fun _ => rfl, fun hm => absurd hm hnone.1⟩
  cases ifaddr with
  | none => cases h
  | some l =>
    refine (mcastIfLoop_spec h).mono fun ip hip => ?_
    obtain ⟨hfalse, -⟩ | hi := hip
    · cases hfalse
    · exact ⟨l, rfl, hi⟩

/-! ## The roles in a row -/

section Build

variable (c : DbApplicationInfo) (d : IpVsDaemonUser) (startSs : Bool)

theorem buildDaemon_index :
    (buildCpStateSyncDaemon c d startSs).applicationIndex = c.applicationIndex := by
  unfold buildCpStateSyncDaemon
  split_ifs <;> rfl

theorem buildDaemon_sameBackup (hb : d.state ≠ ipVsStateBackup) :
    SameBackup c (buildCpStateSyncDaemon c d startSs) := by
  rw [buildCpStateSyncDaemon, if_neg hb]
  split_ifs <;> exact ⟨rfl, rfl⟩

theorem buildDaemon_sameMaster (hm : d.state ≠ ipVsStateMaster) :
    SameMaster c (buildCpStateSyncDaemon c d startSs) := by
  rw [buildCpStateSyncDaemon, if_neg hm]
  split_ifs <;> exact ⟨rfl, rfl, rfl⟩

theorem buildDaemon_master (hm : d.state = ipVsStateMaster) :
    (buildCpStateSyncDaemon c d true).isMaster = true ∧
      (buildCpStateSyncDaemon c d true).mSyncId = d.storedSyncid := by
  rw [buildCpStateSyncDaemon, if_pos hm]
  exact ⟨rfl, rfl⟩

theorem buildDaemon_backup (hb : d.state = ipVsStateBackup) :
    (buildCpStateSyncDaemon c d true).isBackup = true := by
  rw [buildCpStateSyncDaemon, if_neg (by rw [hb]; decide), if_pos hb]
  rfl

end Build

/-! ## What a command does -/

/-- A row written to the database and to the chip. -/
def Sys.withApplicationInfo (s : Sys) (row : DbApplicationInfo) : Sys where
  cp := s.cp.addApplicationInfo row
  nps := s.nps.setEntry (applicationInfoEntry row)

/-- The row, if there is one, has the index it is stored at. -/
def Sys.RowIndexed (s : Sys) : Prop :=
  ∀ row ∈ s.cp.applicationInfo alvsApplicationInfoIndex,
    row.applicationIndex = alvsApplicationInfoIndex

section Commands

variable {s s' : Sys} {rc : AlvsDbRc} {ifaddr : Option (List IfAddr)} {d d' : IpVsDaemonUser}

theorem runCp_modifyApplicationInfo {row row' : DbApplicationInfo}
    (hrow : s.cp.applicationInfo alvsApplicationInfoIndex = some row)
    (hrow' : row'.applicationIndex = alvsApplicationInfoIndex) :
    s.runCp 0 (modifyApplicationInfo row') = (.ok, s.withApplicationInfo row') := by
  have hmodify : s.cp.modifyApplicationInfo row' = s.cp.addApplicationInfo row' := by
    simp [Cp.modifyApplicationInfo, Cp.addApplicationInfo, hrow', hrow]
  simp only [modifyApplicationInfo, runCp_bind, runCp_internalDbModifyApplicationInfo,
    Bool.true_eq_false, if_false, runCp_infraModifyEntry, runCp_pure, hmodify]
  rfl

theorem initDaemon_spec (hnone : s.cp.applicationInfo alvsApplicationInfoIndex = none)
    (h : s.runCp 0 (alvsDbInitDaemon ifaddr d d') = (rc, s')) :
    rc ≠ .ok ∧ s' = s ∧
      alvsDbHandleMcastIf ifaddr d (buildCpStateSyncDaemons .zero d d') = none ∨
    rc = .ok ∧ ∃ row,
      alvsDbHandleMcastIf ifaddr d (buildCpStateSyncDaemons .zero d d') = some row ∧
      row.applicationIndex = alvsApplicationInfoIndex ∧ s' = s.withApplicationInfo row := by
  revert h
  have hget : s.cp.applicationInfo DbApplicationInfo.zero.applicationIndex = none := hnone
  simp only [alvsDbInitDaemon, runCp_bind, runCp_internalDbGetApplicationInfo, hget,
    Option.getD_none, Option.isSome_none, Bool.false_eq_true, if_false]
  cases hrow : alvsDbHandleMcastIf ifaddr d (buildCpStateSyncDaemons .zero d d') with
  | none =>
    rintro ⟨⟩
    exact .inl ⟨by decide, rfl, rfl⟩
  | some row =>
    have hindex : row.applicationIndex = alvsApplicationInfoIndex := by
      obtain ⟨ip, rfl, -⟩ := handleMcastIf_spec hrow
      unfold buildCpStateSyncDaemons buildCpStateSyncDaemon
      split_ifs <;> rfl
    simp only [runCp_bind, runCp_internalDbAddApplicationInfo (hindex ▸ hnone),
      Bool.true_eq_false, if_false, runCp_infraAddEntry, runCp_pure]
    rintro ⟨⟩
    exact .inr ⟨rfl, row, rfl, hindex, rfl⟩

theorem startDaemon_spec (hs : s.RowIndexed)
    (h : s.runCp 0 (alvsDbStartDaemon ifaddr d) = (rc, s')) :
    rc ≠ .ok ∧ s' = s ∨
    rc = .ok ∧ ∃ c ∈ s.cp.applicationInfo alvsApplicationInfoIndex, ∃ c',
      alvsDbHandleMcastIf ifaddr d c = some c' ∧
      s' = s.withApplicationInfo (buildCpStateSyncDaemon c' d true) := by
  revert h
  simp only [alvsDbStartDaemon, runCp_bind, runCp_internalDbGetApplicationInfo]
  cases hrow : s.cp.applicationInfo alvsApplicationInfoIndex with
  | none =>
    rintro ⟨⟩
    exact .inl ⟨by decide, rfl⟩
  | some c =>
    simp only [runCp_ite]
    split
    · rintro ⟨⟩
      exact .inl ⟨by decide, rfl⟩
    split
    · rintro ⟨⟩
      exact .inl ⟨by decide, rfl⟩
    cases hc' : alvsDbHandleMcastIf ifaddr d c with
    | none =>
      rintro ⟨⟩
      exact .inl ⟨by decide, rfl⟩
    | some c' =>
      have hindex : (buildCpStateSyncDaemon c' d true).applicationIndex =
          alvsApplicationInfoIndex := by
        obtain ⟨ip, rfl, -⟩ := handleMcastIf_spec hc'
        exact (buildDaemon_index _ d true).trans (hs c hrow)
      simp only [runCp_modifyApplicationInfo hrow hindex]
      rintro ⟨⟩
      exact .inr ⟨rfl, c, rfl, c', hc', rfl⟩

theorem stopDaemon_spec (hs : s.RowIndexed) (h : s.runCp 0 (alvsDbStopDaemon d) = (rc, s')) :
    rc ≠ .ok ∧ s' = s ∨
    rc = .ok ∧ ∃ c ∈ s.cp.applicationInfo alvsApplicationInfoIndex,
      s' = s.withApplicationInfo (buildCpStateSyncDaemon c d false) := by
  revert h
  simp only [alvsDbStopDaemon, runCp_bind, runCp_internalDbGetApplicationInfo]
  cases hrow : s.cp.applicationInfo alvsApplicationInfoIndex with
  | none =>
    rintro ⟨⟩
    exact .inl ⟨by decide, rfl⟩
  | some c =>
    simp only [runCp_ite]
    split
    · rintro ⟨⟩
      exact .inl ⟨by decide, rfl⟩
    split
    · rintro ⟨⟩
      exact .inl ⟨by decide, rfl⟩
    have hindex : (buildCpStateSyncDaemon c d false).applicationIndex =
        alvsApplicationInfoIndex := (buildDaemon_index c d false).trans (hs c hrow)
    simp only [runCp_modifyApplicationInfo hrow hindex]
    rintro ⟨⟩
    exact .inr ⟨rfl, c, rfl, rfl⟩

end Commands

/-- How an accepted command changes the row. -/
def DaemonCommand.Sets (c row : DbApplicationInfo) : DaemonCommand → Prop
  | .start ifaddr d =>
    ∃ c', alvsDbHandleMcastIf ifaddr d c = some c' ∧ row = buildCpStateSyncDaemon c' d true
  | .stop d => row = buildCpStateSyncDaemon c d false

/-- A command changes nothing, or writes its row. -/
theorem daemonRun_cases {s : Sys} (hs : s.RowIndexed) (cmd : DaemonCommand) :
    (s.daemonRun cmd).1 ≠ .ok ∧ (s.daemonRun cmd).2 = s ∨
    (s.daemonRun cmd).1 = .ok ∧ ∃ c ∈ s.cp.applicationInfo alvsApplicationInfoIndex, ∃ row,
      cmd.Sets c row ∧ (s.daemonRun cmd).2 = s.withApplicationInfo row := by
  cases cmd with
  | start ifaddr d =>
    obtain h | ⟨hrc, c, hc, c', hc', hs'⟩ := @startDaemon_spec s _ _ ifaddr d hs rfl
    · exact .inl h
    · exact .inr ⟨hrc, c, hc, _, ⟨c', hc', rfl⟩, hs'⟩
  | stop d =>
    obtain h | ⟨hrc, c, hc, hs'⟩ := @stopDaemon_spec s _ _ d hs rfl
    · exact .inl h
    · exact .inr ⟨hrc, c, hc, _, rfl, hs'⟩

namespace DaemonCommand.Sets

variable {cmd : DaemonCommand} {c row : DbApplicationInfo}

theorem index (h : cmd.Sets c row) : row.applicationIndex = c.applicationIndex := by
  cases cmd with
  | start ifaddr d =>
    obtain ⟨c', hc', rfl⟩ := h
    obtain ⟨ip, rfl, -⟩ := handleMcastIf_spec hc'
    exact buildDaemon_index _ d true
  | stop d =>
    obtain rfl := h
    exact buildDaemon_index c d false

theorem sameBackup (h : cmd.Sets c row) (hb : cmd.daemon.state ≠ ipVsStateBackup) :
    SameBackup c row := by
  cases cmd with
  | start ifaddr d =>
    obtain ⟨c', hc', rfl⟩ := h
    obtain ⟨ip, rfl, -⟩ := handleMcastIf_spec hc'
    exact buildDaemon_sameBackup { c with sourceIp := ip } d true hb
  | stop d =>
    obtain rfl := h
    exact buildDaemon_sameBackup c d false hb

theorem sameMaster (h : cmd.Sets c row) (hm : cmd.daemon.state ≠ ipVsStateMaster) :
    SameMaster c row := by
  cases cmd with
  | start ifaddr d =>
    obtain ⟨c', hc', rfl⟩ := h
    obtain ⟨ip, rfl, hip, -⟩ := handleMcastIf_spec hc'
    obtain ⟨h₁, h₂, h₃⟩ := buildDaemon_sameMaster { c with sourceIp := ip } d true hm
    exact ⟨h₁, h₂, h₃.trans (hip hm)⟩
  | stop d =>
    obtain rfl := h
    exact buildDaemon_sameMaster c d false hm

end DaemonCommand.Sets

theorem MasterRecorded.congr {c c' : DbApplicationInfo}
    {m : Option (Option (List IfAddr) × IpVsDaemonUser)} (h : MasterRecorded c m)
    (hc : SameMaster c c') : MasterRecorded c' m := by
  obtain ⟨hbit, hid, hip⟩ := hc
  cases m with
  | none =>
    obtain ⟨h₁, h₂, h₃⟩ := h
    exact ⟨hbit.trans h₁, hid.trans h₂, hip.trans h₃⟩
  | some m =>
    obtain ⟨h₁, h₂, h₃⟩ := h
    exact ⟨hbit.trans h₁, hid ▸ h₂, hip ▸ h₃⟩

/-- A command keeps the record of the master. -/
theorem DaemonCommand.Sets.recorded {cmd : DaemonCommand} {c row : DbApplicationInfo}
    {m : Option (Option (List IfAddr) × IpVsDaemonUser)} (h : cmd.Sets c row)
    (hid : cmd.daemon.SyncidOk) (hc : MasterRecorded c m) :
    MasterRecorded row (DaemonState.recorded m cmd) := by
  by_cases hm : cmd.daemon.state = ipVsStateMaster
  · cases cmd with
    | start ifaddr d =>
      obtain ⟨c', hc', rfl⟩ := h
      obtain ⟨ip, rfl, -, hip⟩ := handleMcastIf_spec hc'
      have hm : d.state = ipVsStateMaster := hm
      rw [DaemonState.recorded, if_pos hm, buildCpStateSyncDaemon, if_pos hm]
      exact ⟨rfl, hid hm, hip hm⟩
    | stop d =>
      obtain rfl := h
      have hm : d.state = ipVsStateMaster := hm
      rw [DaemonState.recorded, if_pos hm, buildCpStateSyncDaemon, if_pos hm]
      exact ⟨rfl, rfl, rfl⟩
  · have hsame : DaemonState.recorded m cmd = m := by
      cases cmd with
      | start ifaddr d => exact if_neg hm
      | stop d => exact if_neg hm
    rw [hsame]
    exact hc.congr (h.sameMaster hm)

/-! ## The daemons of the start -/

section Init

variable {ifaddr : Option (List IfAddr)} {d d' : IpVsDaemonUser} {row : DbApplicationInfo}

/-- The row that a daemon, and a second one with another role, make of a cleared one. -/
theorem buildDaemons_eq (hd : d.state = ipVsStateMaster ∨ d.state = ipVsStateBackup) :
    buildCpStateSyncDaemons .zero d d' =
      buildCpStateSyncDaemon (buildCpStateSyncDaemon .zero d true) d' true := by
  rw [buildCpStateSyncDaemons, if_neg (by tauto)]
  rfl

/-- A daemon of the list runs : the second leaves the role of the first. -/
theorem buildDaemons_runs (hd : d.state = ipVsStateMaster ∨ d.state = ipVsStateBackup)
    (hne : d.state ≠ d'.state) (e : IpVsDaemonUser) (he : e = d ∨ e = d') :
    (e.state = ipVsStateMaster → (buildCpStateSyncDaemons .zero d d').isMaster = true) ∧
      (e.state = ipVsStateBackup → (buildCpStateSyncDaemons .zero d d').isBackup = true) := by
  rw [buildDaemons_eq hd]
  obtain rfl | rfl := he
  · refine ⟨fun hm => ?_, fun hb => ?_⟩
    · rw [(buildDaemon_sameMaster _ d' true (hm ▸ hne.symm)).1]
      exact (buildDaemon_master _ e hm).1
    · rw [(buildDaemon_sameBackup _ d' true (hb ▸ hne.symm)).1]
      exact buildDaemon_backup _ e hb
  · exact ⟨fun hm => (buildDaemon_master _ e hm).1, buildDaemon_backup _ e⟩

/-- The first daemon is a master : the row records it. -/
theorem initRow_master (hm : d.state = ipVsStateMaster) (hne : d.state ≠ d'.state)
    (hid : d.SyncidOk)
    (hrow : alvsDbHandleMcastIf ifaddr d (buildCpStateSyncDaemons .zero d d') = some row) :
    MasterRecorded row (some (ifaddr, d)) := by
  obtain ⟨ip, rfl, -, hip⟩ := handleMcastIf_spec hrow
  rw [buildDaemons_eq (.inl hm)]
  obtain ⟨hbit, hsync, -⟩ := buildDaemon_sameMaster (buildCpStateSyncDaemon .zero d true) d' true
    (hm ▸ hne.symm)
  obtain ⟨hbit', hsync'⟩ := buildDaemon_master .zero d hm
  refine ⟨hbit.trans hbit', ?_, hip hm⟩
  change ((buildCpStateSyncDaemon _ d' true).mSyncId.toNat : Int) = d.syncid.toInt
  rw [hsync, hsync', hid hm]

/-- Neither daemon is a master : the row records none. -/
theorem initRow_none (hm : d.state ≠ ipVsStateMaster) (hm' : d'.state ≠ ipVsStateMaster)
    (hrow : alvsDbHandleMcastIf ifaddr d (buildCpStateSyncDaemons .zero d d') = some row) :
    MasterRecorded row none := by
  obtain ⟨ip, rfl, hip, -⟩ := handleMcastIf_spec hrow
  have hzero : SameMaster .zero (buildCpStateSyncDaemons .zero d d') := by
    unfold buildCpStateSyncDaemons
    split
    · exact ⟨rfl, rfl, rfl⟩
    · obtain ⟨h₁, h₂, h₃⟩ := buildDaemon_sameMaster .zero d true hm
      obtain ⟨h₁', h₂', h₃'⟩ :=
        buildDaemon_sameMaster (buildCpStateSyncDaemon .zero d true) d' true hm'
      exact ⟨h₁'.trans h₁, h₂'.trans h₂, h₃'.trans h₃⟩
  exact ⟨hzero.1, hzero.2.1, (hip hm).trans hzero.2.2⟩

end Init

/-- A list of daemons has at most two, with different roles. -/
theorem DaemonList.cases {daemons : List IpVsDaemonUser} (hd : DaemonList daemons) :
    daemons = [] ∨ (∃ d, daemons = [d] ∧ (d.state = ipVsStateMaster ∨ d.state = ipVsStateBackup)) ∨
      ∃ d d', daemons = [d, d'] ∧ (d.state = ipVsStateMaster ∧ d'.state = ipVsStateBackup ∨
        d.state = ipVsStateBackup ∧ d'.state = ipVsStateMaster) := by
  obtain ⟨hroles, hdistinct⟩ := hd
  match daemons with
  | [] => exact .inl rfl
  | [d] => exact .inr (.inl ⟨d, rfl, hroles d List.mem_cons_self⟩)
  | d :: d' :: rest =>
    simp only [List.pairwise_cons, List.mem_cons, forall_eq_or_imp] at hroles hdistinct
    obtain ⟨hr, hr', hrest⟩ := hroles
    obtain ⟨⟨hne, hne₁⟩, hne₂, -⟩ := hdistinct
    have hnil : rest = [] := by
      refine List.eq_nil_iff_forall_not_mem.mpr fun e he => ?_
      have h₁ := hne₁ e he
      have h₂ := hne₂ e he
      have h₃ := hrest e he
      grind
    refine .inr (.inr ⟨d, d', by rw [hnil], ?_⟩)
    grind

/-- The row that the daemons of the start make. -/
theorem initRow_spec {ifaddr : Option (List IfAddr)} {daemons : List IpVsDaemonUser}
    {row : DbApplicationInfo} (hd : DaemonList daemons) (hinit : InitOk ifaddr daemons)
    (hid : ∀ d ∈ daemons, d.SyncidOk)
    (hrow : alvsDbHandleMcastIf ifaddr (daemons.getD 0 .none)
      (buildCpStateSyncDaemons .zero (daemons.getD 0 .none) (daemons.getD 1 .none)) = some row) :
    MasterRecorded row
      ((daemons.find? fun d => d.state = ipVsStateMaster).map (ifaddr, ·)) := by
  have hne : ipVsStateBackup ≠ ipVsStateMaster := by decide
  have hnone : IpVsDaemonUser.none.state ≠ ipVsStateMaster := by decide
  obtain rfl | ⟨d, rfl, hm | hb⟩ | ⟨d, d', rfl, ⟨hm, hb⟩ | ⟨hb, hm⟩⟩ := hd.cases
  · exact initRow_none hnone hnone hrow
  · rw [List.find?_cons_of_pos (by simpa using hm)]
    exact initRow_master hm (hm ▸ hnone.symm) (hid d (by simp)) hrow
  · rw [List.find?_cons_of_neg (by simp [hb, hne])]
    exact initRow_none (hb ▸ hne) hnone hrow
  · have hne' : d.state ≠ d'.state := by rw [hm, hb]; exact hne.symm
    rw [List.find?_cons_of_pos (by simpa using hm)]
    exact initRow_master hm hne' (hid d (by simp)) hrow
  · have hsome := handleMcastIf_isSome ifaddr d (buildCpStateSyncDaemons .zero d d') .zero
    have hconfigured : alvsDbHandleMcastIf ifaddr d .zero = none := hinit hm
    have hrow' : alvsDbHandleMcastIf ifaddr d (buildCpStateSyncDaemons .zero d d') = some row :=
      hrow
    rw [hrow', hconfigured] at hsome
    cases hsome

/-- The daemons that run at the start are set in the row, or nothing is. -/
theorem initDaemonRun_cases (ifaddr : Option (List IfAddr)) (daemons : List IpVsDaemonUser) :
    (initDaemonRun ifaddr daemons).1 ≠ .ok ∧ (initDaemonRun ifaddr daemons).2 = Sys.init ∨
    (initDaemonRun ifaddr daemons).1 = .ok ∧ ∃ row,
      alvsDbHandleMcastIf ifaddr (daemons.getD 0 .none)
        (buildCpStateSyncDaemons .zero (daemons.getD 0 .none) (daemons.getD 1 .none)) = some row ∧
      row.applicationIndex = alvsApplicationInfoIndex ∧
      (initDaemonRun ifaddr daemons).2 = Sys.init.withApplicationInfo row := by
  obtain ⟨hrc, hs, -⟩ | h := @initDaemon_spec Sys.init _ _ ifaddr (daemons.getD 0 .none)
    (daemons.getD 1 .none) rfl rfl
  · exact .inl ⟨hrc, hs⟩
  · exact .inr h

/-- Every daemon of the list runs in the row. -/
theorem initRow_runs {ifaddr : Option (List IfAddr)} {daemons : List IpVsDaemonUser}
    {row : DbApplicationInfo} (hd : DaemonList daemons)
    (hrow : alvsDbHandleMcastIf ifaddr (daemons.getD 0 .none)
      (buildCpStateSyncDaemons .zero (daemons.getD 0 .none) (daemons.getD 1 .none)) = some row)
    (d : IpVsDaemonUser) (hmem : d ∈ daemons) :
    (d.state = ipVsStateMaster → row.isMaster = true) ∧
      (d.state = ipVsStateBackup → row.isBackup = true) := by
  obtain ⟨ip, rfl, -⟩ := handleMcastIf_spec hrow
  obtain rfl | ⟨e, rfl, he⟩ | ⟨e, e', rfl, he⟩ := hd.cases
  · exact absurd hmem List.not_mem_nil
  · refine @buildDaemons_runs e .none he ?_ d (.inl (by simpa using hmem))
    obtain he | he := he <;> rw [he] <;> decide
  · refine @buildDaemons_runs e e' ?_ ?_ d (by simpa using hmem)
    · exact he.imp And.left And.left
    · obtain ⟨h, h'⟩ | ⟨h, h'⟩ := he <;> rw [h, h'] <;> decide

/-! ## Runs -/

/-- The row has its index, the entry of the chip is built from it, and it records the
master. -/
structure DaemonState.Inv (s : DaemonState) : Prop where
  indexed : s.sys.RowIndexed
  mirror : s.sys.nps.applicationInfo alvsApplicationInfoIndex =
    (s.sys.cp.applicationInfo alvsApplicationInfoIndex).map buildNpsApplicationInfoResult
  master : ∀ row ∈ s.sys.cp.applicationInfo alvsApplicationInfoIndex, MasterRecorded row s.master

/-- Of a row that was written, with its index. -/
theorem daemonInv_withApplicationInfo {s : Sys} {row : DbApplicationInfo}
    {m : Option (Option (List IfAddr) × IpVsDaemonUser)}
    (hindex : row.applicationIndex = alvsApplicationInfoIndex) (hrow : MasterRecorded row m) :
    DaemonState.Inv ⟨s.withApplicationInfo row, m⟩ := by
  have hcp : (s.withApplicationInfo row).cp.applicationInfo alvsApplicationInfoIndex =
      some row := by
    simp [Sys.withApplicationInfo, Cp.addApplicationInfo, hindex]
  constructor
  · intro row' hrow'
    obtain rfl := Option.some.inj (hcp.symm.trans hrow')
    exact hindex
  · rw [hcp]
    simp [Sys.withApplicationInfo, Nps.setEntry, applicationInfoEntry]
  · intro row' hrow'
    obtain rfl := Option.some.inj (hcp.symm.trans hrow')
    exact hrow

theorem daemonInv_init {ifaddr : Option (List IfAddr)} {daemons : List IpVsDaemonUser}
    (hd : DaemonList daemons) (hinit : InitOk ifaddr daemons)
    (hid : ∀ d ∈ daemons, d.SyncidOk) : (DaemonState.init ifaddr daemons).Inv := by
  obtain ⟨hrc, hs⟩ | ⟨hrc, row, hrow, hindex, hs⟩ := initDaemonRun_cases ifaddr daemons
  · have hinit : DaemonState.init ifaddr daemons = ⟨Sys.init, none⟩ := by
      rw [DaemonState.init, hs, if_neg hrc]
    rw [hinit]
    exact ⟨fun row hrow => (nomatch hrow), rfl, fun row hrow => (nomatch hrow)⟩
  · rw [DaemonState.init, hs, if_pos hrc]
    exact daemonInv_withApplicationInfo hindex (initRow_spec hd hinit hid hrow)

theorem daemonInv_step {s : DaemonState} (h : s.Inv) {cmd : DaemonCommand}
    (hid : cmd.daemon.SyncidOk) : (s.step cmd).Inv := by
  obtain ⟨hrc, hs⟩ | ⟨hrc, c, hc, row, hsets, hs⟩ := daemonRun_cases h.indexed cmd
  · have hstep : s.step cmd = s := by
      rw [DaemonState.step, hs, if_neg hrc]
    rwa [hstep]
  · rw [DaemonState.step, hs, if_pos hrc]
    exact daemonInv_withApplicationInfo (hsets.index.trans (h.indexed c hc))
      (hsets.recorded hid (h.master c hc))

theorem commandOk_of_inv {s : DaemonState} (h : s.Inv) (cmd : DaemonCommand) :
    CommandOk s.sys cmd := by
  obtain ⟨hrc, hs⟩ | ⟨hrc, c, hc, row, hsets, hs⟩ := daemonRun_cases h.indexed cmd
  · refine ⟨fun _ => hs, fun row hrow => ⟨row, ?_, fun _ => ⟨rfl, rfl⟩, fun _ => ?_⟩⟩
    · rw [hs]
      exact hrow
    · exact ⟨rfl, rfl, rfl⟩
  · refine ⟨fun hne => absurd hrc hne, fun row' hrow' => ⟨row, ?_, ?_⟩⟩
    · have hindex := hsets.index.trans (h.indexed c hc)
      rw [hs]
      simp [Sys.withApplicationInfo, Cp.addApplicationInfo, hindex]
    · obtain rfl := Option.some.inj (hc.symm.trans hrow')
      refine ⟨fun hm => hsets.sameBackup ?_, fun hb => hsets.sameMaster ?_⟩
      · rw [hm]
        decide
      · rw [hb]
        decide

/-- Where a list that is accepted does not name the master second and the sync ids of
masters have 8 bits, the daemons are in order after every command. -/
theorem daemons_run {ifaddr : Option (List IfAddr)} {daemons : List IpVsDaemonUser}
    (hd : DaemonList daemons) (hinit : InitOk ifaddr daemons)
    (hid : ∀ d ∈ daemons, d.SyncidOk) {commands : List DaemonCommand}
    (hcommands : ∀ cmd ∈ commands, cmd.daemon.SyncidOk) :
    DaemonsOk ifaddr daemons commands := by
  have hinv : (commands.foldl DaemonState.step (.init ifaddr daemons)).Inv := by
    refine List.foldlRecOn commands DaemonState.step (daemonInv_init hd hinit hid) ?_
    exact fun s hs cmd hcmd => daemonInv_step hs (hcommands cmd hcmd)
  constructor
  · obtain ⟨-, hs⟩ | ⟨hrc, -⟩ := initDaemonRun_cases ifaddr daemons
    · exact fun _ => hs
    · exact fun hne => absurd hrc hne
  · intro hrc d hmem
    obtain ⟨hne, -⟩ | ⟨-, row, hrow, hindex, hs⟩ := initDaemonRun_cases ifaddr daemons
    · exact absurd hrc hne
    · refine ⟨row, ?_, initRow_runs hd hrow d hmem⟩
      rw [hs]
      simp [Sys.withApplicationInfo, Cp.addApplicationInfo, hindex]
  · exact hinv.mirror
  · exact hinv.master
  · exact commandOk_of_inv hinv

/-! ## Examples -/

/-- A host with one interface. -/
def exampleIfAddrs : Option (List IfAddr) := some [⟨"eth0", some 0x0300000a, true⟩]

def exampleMaster : IpVsDaemonUser := ⟨ipVsStateMaster, "eth0", 7⟩

def exampleBackup : IpVsDaemonUser := ⟨ipVsStateBackup, "eth0", 9⟩

/-- Both roles run at the start, the master is stopped and started again. -/
theorem daemons_run_both : DaemonsOk exampleIfAddrs [exampleMaster, exampleBackup]
    [.stop exampleMaster, .start exampleIfAddrs exampleMaster] := by
  have hinit : InitOk exampleIfAddrs [exampleMaster, exampleBackup] := fun h =>
    absurd h (by decide)
  refine daemons_run ⟨by decide, by decide⟩ hinit (by decide) fun cmd hcmd => ?_
  obtain rfl | rfl : cmd = .stop exampleMaster ∨ cmd = .start exampleIfAddrs exampleMaster := by
    simpa using hcmd
  · decide
  · decide

/-- The backup is named first : the master runs with source address 0, which no interface
has. -/
theorem daemons_fail : (initDaemonRun exampleIfAddrs [exampleBackup, exampleMaster]).1 = .ok ∧
    ¬ DaemonsOk exampleIfAddrs [exampleBackup, exampleMaster] [] := by
  refine ⟨by decide +kernel, fun h => ?_⟩
  have hmaster := (h.master ⟨0, true, true, 7, 9, 0⟩ (by decide +kernel))
  revert hmaster
  change ¬ MasterRecorded ⟨0, true, true, 7, 9, 0⟩ (some (exampleIfAddrs, exampleMaster))
  exact fun ⟨_, _, hip⟩ => absurd hip (by decide)

end Alvs
