import Alvs.Dp.ConnTables

/-!
# The connection tables agree in every run

The sections of the data plane are proved against `tablesSpec`, and `tablesAgree_run` is
the result for every interleaving of any number of threads.
-/

set_option linter.unusedSectionVars false

namespace Alvs

open ProgLogic LProg

/-- The thread has no index reserved and no entry detached. -/
def KeySection.Settled (g : KeySection) : Prop := ∀ x ∈ g, x.2.Settled

theorem KeySection.settled_some {k : ConnClassificationKey} {ph : KeyPhase} (h : ph.Settled) :
    KeySection.Settled (some (k, ph)) := by
  rintro x ⟨⟩
  exact h

theorem KeySection.settled_none : KeySection.Settled none := nofun

variable {bulkHash : ConnClassificationKey → UInt32} {α β : Type} {I : KeySection → Prop}

theorem silent_tablesSpec : Silent (tablesSpec bulkHash) DpCall.OffConn := by
  intro g op hop
  cases op <;> first | exact hop.elim | exact ⟨trivial, fun _ _ h => h⟩

theorem OffConn.tables {x : Dp α} (h : OffConn x) : Triple (tablesSpec bulkHash) I x I :=
  .of_makes silent_tablesSpec h

theorem QuietProg.tables {x : Dp α} (h : QuietProg x) : Triple (tablesSpec bulkHash) I x I :=
  h.offConn.tables

/-- A program that leaves the tables of connections leaves what the thread knows. -/
theorem OffConn.tables_wp {x : Dp α} (hx : OffConn x) {Q : α → Cmem → KeySection → Prop}
    {l : Cmem} {g : KeySection} (hQ : ∀ a l', l.SameConn l' → Q a l' g) :
    x.wp (tablesSpec bulkHash) Q l g := by
  refine wp_mono (hx.wp silent_tablesSpec l g) ?_
  rintro a l' g' ⟨hl, rfl⟩
  exact hQ a l' hl

/-! ## Sections -/

/-- The start of a section : the key of the memory is locked. -/
theorem tables_lock_wp {f : UInt32 → Dp β} {Q : β → Cmem → KeySection → Prop} {l : Cmem}
    {g : KeySection} (hg : g.Settled)
    (hf : (f (bulkHash l.connClassKey)).wp (tablesSpec bulkHash) Q l
      (some (l.connClassKey, .start))) :
    (alvsLockConnection >>= f).wp (tablesSpec bulkHash) Q l g := by
  simp only [alvsLockConnection, wp_bind, wp_get, wp_call]
  refine ⟨hg, ?_⟩
  rintro h g' ⟨rfl, rfl⟩
  exact hf

/-- The end of a section. -/
theorem tables_unlock_wp {k : ConnClassificationKey} {ph : KeyPhase} {l : Cmem}
    {Q : Unit → Cmem → KeySection → Prop} (hph : ph.Settled) (hQ : Q () l none) :
    (alvsUnlockConnection (bulkHash k)).wp (tablesSpec bulkHash) Q l (some (k, ph)) :=
  ⟨⟨k, ph, rfl, hph, rfl⟩, fun _ _ h => h ▸ hQ⟩

/-- The entry that was read is written with its key kept. -/
theorem tables_modify_wp {i : UInt32} {c c₀ : ConnInfoResult} {l : Cmem}
    {Q : Bool → Cmem → KeySection → Prop} (hkey : c.connClassKey = c₀.connClassKey)
    (hQ : ∀ rc l', Q rc l' (some (c₀.connClassKey, .read i c))) :
    (alvsConnInfoModify i c).wp (tablesSpec bulkHash) Q l
      (some (c₀.connClassKey, .read i c₀)) := by
  simp only [alvsConnInfoModify, wp_bind, wp_modify, wp_call]
  refine ⟨⟨c₀, by rw [hkey]⟩, ?_⟩
  rintro rc g' rfl
  exact hQ rc _

theorem ConnSite.FoundBefore.spec {site : ConnSite} (h : site.FoundBefore) (i : UInt32)
    (k : ConnClassificationKey) :
    (tablesSpec bulkHash).pre (some (k, .start)) (.connInfoLookup site i) ∧
      ∀ r g', (tablesSpec bulkHash).post (some (k, .start)) (.connInfoLookup site i) r g' →
        (r = none → g' = some (k, .start)) ∧
        ∀ c, r = some c → c.connClassKey = k ∧ g' = some (k, .read i c) := by
  cases site <;> first
    | exact h.elim
    | refine ⟨⟨k, rfl⟩, ?_⟩
      rintro (_ | c) g' hpost
      · exact ⟨fun _ => hpost, nofun⟩
      · refine ⟨nofun, ?_⟩
        rintro _ ⟨⟩
        exact ⟨(Option.some.inj hpost.1).symm, hpost.2⟩

/-- A section that reads an entry again and, if it finds one, goes on with `f`. -/
theorem tables_section {site : ConnSite} (hsite : site.FoundBefore) {i : UInt32}
    {f : UInt32 → Dp Bool} (hf : ∀ c l, l.connInfoResult = c →
      (f (bulkHash c.connClassKey)).wp (tablesSpec bulkHash) (fun _ _ g => g.Settled) l
        (some (c.connClassKey, .read i c))) :
    Triple (tablesSpec bulkHash) KeySection.Settled
      (alvsLockConnection >>= fun h => alvsConnInfoLookup site i >>=
        fun found => if found = true then f h
          else alvsUnlockConnection h >>= fun _ => pure false) KeySection.Settled := by
  intro l g hg
  refine tables_lock_wp hg ?_
  simp only [alvsConnInfoLookup, wp_bind, wp_call]
  obtain ⟨hpre, hpost⟩ := hsite.spec i l.connClassKey
  refine ⟨hpre, ?_⟩
  rintro (_ | c) g' hg'
  · obtain rfl := (hpost _ _ hg').1 rfl
    simp only [wp_pure, Bool.false_eq_true, if_false, wp_bind]
    exact tables_unlock_wp trivial KeySection.settled_none
  · obtain ⟨hkey, rfl⟩ := (hpost _ _ hg').2 c rfl
    simp only [wp_bind, wp_modify, wp_pure, if_true, ← hkey]
    exact hf c _ rfl

theorem tables_connUpdateState (i : UInt32) (st : UInt8) :
    Triple (tablesSpec bulkHash) KeySection.Settled (alvsConnUpdateState i st)
      KeySection.Settled := by
  refine tables_section (by trivial) fun c l hl => ?_
  simp only [wp_bind, wp_get, hl]
  refine (wp_ite _ _ _ _).mpr ⟨fun _ => ?_, fun _ => ?_⟩
  · exact (wp_bind _ _ _).mpr (tables_unlock_wp trivial KeySection.settled_none)
  · simp only [wp_bind]
    refine (offConn_updateConnectionStatistics _ _ _).tables_wp fun _ l' _ => ?_
    refine tables_modify_wp rfl fun rc l'' => (wp_modify _ _).mpr ?_
    exact tables_unlock_wp trivial KeySection.settled_none

theorem tables_connMarkToDelete (i : UInt32) (reset : Bool) :
    Triple (tablesSpec bulkHash) KeySection.Settled (alvsConnMarkToDelete i reset)
      KeySection.Settled := by
  refine tables_section (by trivial) fun c l hl => ?_
  simp only [wp_bind, wp_get, hl]
  refine (wp_ite _ _ _ _).mpr ⟨fun _ => ?_, fun _ => ?_⟩
  · exact (wp_bind _ _ _).mpr (tables_unlock_wp trivial KeySection.settled_none)
  · simp only [wp_bind]
    refine OffConn.tables_wp (.ite (offConn_updateConnectionStatistics _ _ _) (.of_pure _))
      fun _ l' _ => ?_
    exact tables_modify_wp rfl fun rc l'' => tables_unlock_wp trivial KeySection.settled_none

theorem tables_connRefresh (i : UInt32) :
    Triple (tablesSpec bulkHash) KeySection.Settled (alvsConnRefresh i) KeySection.Settled := by
  refine tables_section (by trivial) fun c l hl => ?_
  simp only [wp_bind, wp_get, hl]
  exact tables_modify_wp rfl fun rc l' => tables_unlock_wp trivial KeySection.settled_none

theorem tables_connAgeOut (i : UInt32) (iter : UInt8) :
    Triple (tablesSpec bulkHash) KeySection.Settled (alvsConnAgeOut i iter) KeySection.Settled := by
  refine tables_section (by trivial) fun c l hl => ?_
  simp only [wp_bind, wp_get, hl]
  exact tables_modify_wp rfl fun rc l' => tables_unlock_wp trivial KeySection.settled_none

/-- Where another thread has bound the entry, the section is left with the lock taken. -/
theorem tables_connBind (i server : UInt32) :
    Triple (tablesSpec bulkHash) KeySection.Settled (alvsConnBind i server)
      KeySection.Settled := by
  refine tables_section (by trivial) fun c l hl => ?_
  simp only [wp_bind, wp_get, hl]
  refine (wp_ite _ _ _ _).mpr ⟨fun _ => KeySection.settled_some trivial, fun _ => ?_⟩
  simp only [wp_bind]
  exact tables_modify_wp rfl fun rc l' => tables_unlock_wp trivial KeySection.settled_none

/-! ## Creation and deletion -/

/-- The thread is in a section of `k` with nothing reserved or detached. -/
def InSectionOf (k : ConnClassificationKey) (g : KeySection) : Prop :=
  ∃ ph, g = some (k, ph) ∧ ph.Settled

theorem tables_exit (k : ConnClassificationKey) :
    Triple (tablesSpec bulkHash) (InSectionOf k) (alvsUnlockConnection (bulkHash k))
      KeySection.Settled := by
  rintro l g ⟨ph, rfl, hph⟩
  exact tables_unlock_wp hph KeySection.settled_none

theorem InSectionOf.intro (k : ConnClassificationKey) {ph : KeyPhase} (h : ph.Settled) :
    InSectionOf k (some (k, ph)) :=
  ⟨ph, rfl, h⟩

theorem tables_connCreateNewEntry (bound : Bool) (server : UInt32) (port st : UInt16)
    (flags : UInt32) (reset : Bool) (l : Cmem) :
    (alvsConnCreateNewEntry bound server port st flags reset).wp (tablesSpec bulkHash)
      (fun _ _ g => InSectionOf l.connClassKey g) l (some (l.connClassKey, .absent)) := by
  have hdone {ph : KeyPhase} (hph : ph.Settled) (error : AlvsErrorStats) (l' : Cmem) :
      (alvsDiscardAndStats error).wp (tablesSpec bulkHash)
        (fun _ _ g => InSectionOf l.connClassKey g) l' (some (l.connClassKey, ph)) :=
    (quiet_alvsDiscardAndStats error).offConn.tables_wp fun _ _ _ => .intro _ hph
  rw [alvsConnCreateNewEntry, wp_bind, wp_call]
  refine ⟨⟨_, rfl⟩, ?_⟩
  rintro (_ | i) g rfl
  · simp only [wp_bind]
    exact (offConn_overloadOnDeleteConn _).tables_wp fun _ l' _ => hdone (by trivial) _ l'
  · simp only [wp_bind, wp_get, wp_modify, wp_call]
    refine ⟨rfl, ?_⟩
    rintro - g rfl
    refine ⟨⟨_, rfl⟩, ?_⟩
    rintro (_ | _) g rfl
    · simp only [Bool.false_eq_true, if_false, wp_bind, wp_call]
      refine ⟨⟨_, _, rfl⟩, ?_⟩
      rintro r g ⟨rfl, rfl⟩
      refine (offConn_overloadOnDeleteConn _).tables_wp fun _ l' _ => ⟨⟨_, rfl⟩, ?_⟩
      rintro - g rfl
      exact hdone (by trivial) _ l'
    · have hstats : OffConn (if bound then alvsConnCreateStatistics st else pure ()) := by
        refine .ite (.ite ?_ ?_) (.of_pure _)
        all_goals exact offConn_updateConnectionStatistics _ _ _
      simp only [if_true, wp_bind]
      exact hstats.tables_wp fun _ _ _ => .intro _ trivial

/-- The deletion goes on once the entry is detached. -/
theorem tables_deleteDetached (site : DeleteSite) {i : UInt32} (c : ConnInfoResult)
    {k : ConnClassificationKey} {cd : ConnInfoResult} {l : Cmem}
    {Q : Unit → Cmem → KeySection → Prop} (hexp : ∀ iter, site = .aging iter → cd.Expired iter)
    (hQ : ∀ l', l.SameConn l' → Q () l' (some (k, .absent))) :
    (dpCall (.connInfoDelete site i) >>= fun deleted =>
      if deleted = true then alvsConnReleaseServer c >>= fun _ => dpCall (.freeIndex i)
      else pure ()).wp (tablesSpec bulkHash) Q l (some (k, .detached i cd)) := by
  rw [wp_bind, wp_call]
  refine ⟨?_, ?_⟩
  · cases site with
    | aging iter => exact ⟨k, cd, rfl, hexp iter rfl⟩
    | _ => exact ⟨k, cd, rfl⟩
  · rintro r g ⟨rfl, rfl⟩
    simp only [if_true, wp_bind]
    refine (offConn_connReleaseServer c).tables_wp fun _ l' hl' => ⟨⟨_, rfl⟩, ?_⟩
    rintro - g rfl
    exact hQ l' hl'

/-- The deletion by a scan : the key of the entry in the memory is locked. -/
theorem tables_connDelete (iter : UInt8) (i : UInt32) {l : Cmem} {g : KeySection}
    (hl : l.connInfoResult.connClassKey = l.connClassKey) (hg : g.Settled) :
    (alvsConnDelete iter i).wp (tablesSpec bulkHash) (fun _ _ g => g.Settled) l g := by
  refine tables_lock_wp hg ?_
  have hdelete : (alvsConnDeleteWithoutLock (.aging iter) i).wp (tablesSpec bulkHash)
      (fun _ _ g => InSectionOf l.connClassKey g) l (some (l.connClassKey, .start)) := by
    simp only [alvsConnDeleteWithoutLock, wp_bind, wp_get, wp_call]
    refine ⟨by rw [hl]; rfl, ?_⟩
    rintro (_ | _) g' hg'
    · obtain rfl : g' = some (l.connClassKey, .start) := hg'
      simp only [Bool.false_eq_true, if_false]
      exact .intro _ trivial
    · obtain ⟨c, hexp, rfl⟩ := hg'
      simp only [if_true]
      refine tables_deleteDetached _ _ (by rintro _ ⟨⟩; exact hexp) fun l' _ => ?_
      exact .intro _ trivial
  exact wp_bind_of hdelete fun _ l' g' hg' => tables_exit _ l' g' hg'

/-! ## New connections -/

theorem tables_tcpScheduleLocked (i : UInt8) (ip : IpHdr) (tcp : TcpHdr) (l : Cmem) :
    (alvsTcpScheduleLocked i ip tcp).wp (tablesSpec bulkHash)
      (fun _ _ g => InSectionOf l.connClassKey g) l (some (l.connClassKey, .start)) := by
  simp only [alvsTcpScheduleLocked, wp_bind, wp_get, wp_call]
  refine ⟨rfl, ?_⟩
  rintro r g rfl
  cases r with
  | found connIndex =>
    simp only [wp_bind, wp_modify, wp_pure]
    exact .intro _ trivial
  | error =>
    simp only [wp_bind]
    exact (quiet_alvsDiscardAndStats _).offConn.tables_wp fun _ _ _ => .intro _ trivial
  | notFound =>
    simp only [wp_bind, if_true]
    refine (offConn_scheduleConnection i ip tcp).tables_wp fun found l' hl' => ?_
    refine (wp_ite _ _ _ _).mpr ⟨fun _ => ?_, fun _ => .intro _ trivial⟩
    simp only [alvsTcpCreateConnection, wp_bind, wp_get]
    refine wp_mono (hl'.key ▸ tables_connCreateNewEntry true _ 0 _ _ _ l') fun _ l'' g' hg' => ?_
    simpa using hg'

theorem tables_tcpScheduleNewConnection (i : UInt8) (ip : IpHdr) (tcp : TcpHdr) :
    Triple (tablesSpec bulkHash) KeySection.Settled (alvsTcpScheduleNewConnection i ip tcp)
      KeySection.Settled := by
  refine .bind quiet_alvsSchedCheckActiveServers.tables fun _ => .ite (fun l g hg => ?_)
    (.of_pure _)
  refine tables_lock_wp hg (wp_bind_of (tables_tcpScheduleLocked i ip tcp l) fun _ l' g' hg' => ?_)
  exact wp_bind_of (tables_exit _ l' g' hg') fun _ _ _ hg'' => hg''

/-! ## Sync messages -/

theorem tables_stateSyncCreateConn (conn : StateSyncConn) (l : Cmem) :
    (alvsStateSyncCreateConn conn (bulkHash l.connClassKey)).wp (tablesSpec bulkHash)
      (fun _ _ g => g.Settled) l (some (l.connClassKey, .absent)) := by
  have hcreate (bound : Bool) (server : UInt32) (port : UInt16) {l' : Cmem} (hl' : l.SameConn l')
      (f : AlvsServiceOutputResult → Int) :
      (alvsConnCreateNewEntry bound server port conn.state conn.backupFlags false >>= fun res =>
        alvsUnlockConnection (bulkHash l.connClassKey) >>= fun _ => pure (f res)).wp
          (tablesSpec bulkHash) (fun _ _ g => g.Settled) l' (some (l.connClassKey, .absent)) := by
    have hentry := @tables_connCreateNewEntry bulkHash bound server port conn.state
      conn.backupFlags false l'
    rw [hl'.key] at hentry
    refine wp_bind_of hentry fun _ l'' g' hg' => ?_
    exact wp_bind_of (tables_exit _ l'' g' hg') fun _ _ _ hg'' => hg''
  rw [alvsStateSyncCreateConn, wp_bind, wp_call]
  refine ⟨trivial, ?_⟩
  rintro (_ | server) g rfl
  · exact hcreate false _ _ ⟨rfl, rfl⟩ _
  · rw [wp_bind]
    refine (offConn_serverInfoLookup server).tables_wp fun found l' hl' => ?_
    refine (wp_ite _ _ _ _).mpr ⟨fun _ => hcreate true _ _ hl' _, fun _ => ?_⟩
    exact (wp_bind _ _ _).mpr (tables_unlock_wp trivial KeySection.settled_none)

/-- Binding does not touch the key. -/
theorem tables_stateSyncBindConn (conn : StateSyncConn) (c : ConnInfoResult) (l : Cmem)
    (g : KeySection) : (alvsStateSyncBindConn conn c).wp (tablesSpec bulkHash)
      (fun c' _ g' => c'.connClassKey = c.connClassKey ∧ g' = g) l g := by
  unfold alvsStateSyncBindConn
  refine (wp_ite _ _ _ _).mpr ⟨fun _ => ⟨rfl, rfl⟩, fun _ => ?_⟩
  simp only [wp_bind, alvsFindServerIndex, wp_call]
  refine ⟨trivial, ?_⟩
  rintro (_ | r) g' rfl
  all_goals exact ⟨rfl, rfl⟩

theorem tables_stateSyncUpdateConn (conn : StateSyncConn) (i : UInt32) {c : ConnInfoResult}
    {l : Cmem} (hl : l.connInfoResult = c) :
    (alvsStateSyncUpdateConn conn i (bulkHash c.connClassKey)).wp (tablesSpec bulkHash)
      (fun _ _ g => g.Settled) l (some (c.connClassKey, .read i c)) := by
  simp only [alvsStateSyncUpdateConn, wp_bind, wp_get, hl]
  refine (offConn_stateSyncUpdateStatistics conn c).tables_wp fun _ l' _ => ?_
  refine wp_mono (tables_stateSyncBindConn conn c l' _) ?_
  rintro c' l'' g' ⟨hkey, rfl⟩
  exact tables_modify_wp hkey fun _ _ => tables_unlock_wp trivial KeySection.settled_none

theorem tables_stateSyncExistingConn (conn : StateSyncConn) (i : UInt32) (l : Cmem) :
    (alvsStateSyncExistingConn conn i (bulkHash l.connClassKey)).wp (tablesSpec bulkHash)
      (fun _ _ g => g.Settled) l (some (l.connClassKey, .found i)) := by
  have hexit {ph : KeyPhase} (hph : ph.Settled) (rc : Int) (l' : Cmem) :
      (alvsUnlockConnection (bulkHash l.connClassKey) >>= fun _ => pure rc).wp
        (tablesSpec bulkHash) (fun _ _ g => g.Settled) l' (some (l.connClassKey, ph)) :=
    (wp_bind _ _ _).mpr (tables_unlock_wp hph KeySection.settled_none)
  simp only [alvsStateSyncExistingConn, alvsConnInfoLookup, wp_bind, wp_call]
  refine ⟨⟨_, rfl⟩, ?_⟩
  rintro (_ | c) g hg
  · obtain rfl : g = some (l.connClassKey, .found i) := hg
    exact hexit (by trivial) _ _
  · obtain ⟨hkey, rfl⟩ := hg
    have hkey : c.connClassKey = l.connClassKey := (Option.some.inj hkey).symm
    simp only [wp_bind, wp_modify, wp_pure, if_true, wp_get]
    refine OffConn.tables_wp (.ite (offConn_serverInfoLookup _) (.of_pure _)) fun found l' hl' => ?_
    refine (wp_ite _ _ _ _).mpr ⟨fun _ => ?_, fun _ => hexit (by trivial) _ _⟩
    simp only [wp_bind, wp_get]
    refine (wp_ite _ _ _ _).mpr ⟨fun _ => (wp_ite _ _ _ _).mpr ⟨fun _ => ?_, fun _ =>
      hexit (by trivial) _ _⟩, fun _ => ?_⟩
    · simp only [alvsConnDeleteWithoutLock, wp_bind, wp_get, wp_call, hl'.conn]
      refine ⟨⟨c, by rw [hkey]; rfl⟩, ?_⟩
      rintro r g ⟨rfl, cd, rfl⟩
      simp only [if_true]
      refine tables_deleteDetached .syncConn c (by simp) fun l'' hl'' => ?_
      have hl : l''.connClassKey = l.connClassKey := hl''.key.trans hl'.key
      rw [← hl]
      exact tables_stateSyncCreateConn conn l''
    · have hupd := @tables_stateSyncUpdateConn bulkHash conn i c l' hl'.conn
      rw [hkey] at hupd
      exact hupd

theorem tables_stateSyncProcessConn (conn : StateSyncConn) :
    Triple (tablesSpec bulkHash) KeySection.Settled (alvsStateSyncProcessConn conn)
      KeySection.Settled := by
  refine .ite (.of_pure _) (.ite (.of_pure _) (.ite (.of_pure _) fun l g hg => ?_))
  rw [wp_bind, wp_modify]
  refine tables_lock_wp hg ?_
  rw [wp_bind, wp_call]
  refine ⟨rfl, ?_⟩
  rintro (i | _ | _) g' rfl
  · exact tables_stateSyncExistingConn conn i { l with connClassKey := conn.classKey }
  all_goals exact tables_stateSyncCreateConn conn { l with connClassKey := conn.classKey }

/-! ## Runs -/

theorem tables_lookup {site : ConnSite} (hsite : site = .dataPath ∨ site = .scan) (i : UInt32) :
    Triple (tablesSpec bulkHash) I (alvsConnInfoLookup site i) I := by
  refine .bind (J := I) (.of_call fun g hg => ?_) fun r => ?_
  · obtain rfl | rfl := hsite
    all_goals exact ⟨trivial, fun _ _ h => h ▸ hg⟩
  · split
    · exact .of_pure _
    · exact .bind .of_modify fun _ => .of_pure _

theorem tables_agingScanEntry (iter : UInt8) (ip : UInt32) (id : UInt8) (i : UInt32) :
    Triple (tablesSpec bulkHash) KeySection.Settled (alvsAgingScanEntry iter ip id i)
      KeySection.Settled := by
  have hdelete : Triple (tablesSpec bulkHash) KeySection.Settled (alvsAgingDelete iter i)
      KeySection.Settled := fun l g hg => tables_connDelete iter i rfl hg
  refine .bind (tables_lookup (.inr rfl) i) fun _ => .ite (.get_bind fun _ => .ite hdelete
    (.ite ?_ (.ite hdelete (.of_pure _)))) (.of_pure _)
  exact .bind .of_modify fun _ => .bind (tables_connAgeOut i iter) fun _ => .ite
    (.get_bind fun _ => .ite (offConn_stateSyncAggr _ _).tables (.of_pure _)) (.of_pure _)

theorem tables_sections : Sectionwise (tablesSpec bulkHash) KeySection.Settled where
  silent := silent_tablesSpec
  classLookup _ := .of_call fun _ hg => ⟨trivial, fun _ _ h => h ▸ hg⟩
  dataPathLookup := tables_lookup (.inl rfl)
  updateState := tables_connUpdateState
  markToDelete := tables_connMarkToDelete
  refresh := tables_connRefresh
  bind := tables_connBind
  schedule := tables_tcpScheduleNewConnection
  syncConn := tables_stateSyncProcessConn
  scanEntry := tables_agingScanEntry

section Run

variable {Tid : Type} [DecidableEq Tid]

theorem slotsAgree_init (nps : Nps) : SlotsAgree nps.withoutConns.connClassification
    nps.withoutConns.connKeyOf nps.withoutConns.connIndexAllocated
    (fun _ => (.free : SlotStatus Tid ConnClassificationKey)) :=
  ⟨fun _ _ => ⟨nofun, nofun⟩, fun _ => rfl, fun _ => ⟨nofun, fun h => absurd rfl h⟩⟩

theorem tablesInv_init (bulkHash : ConnClassificationKey → UInt32) (nps : Nps) :
    TablesInv bulkHash (Chip.init nps : Chip Tid) (fun _ => none) fun _ => .free :=
  ⟨slotsAgree_init nps, fun _ => trivial, nofun, nofun, nofun,
    fun _ hx => (List.not_mem_nil hx).elim⟩

/-- Where no thread is about to move a slot, the tables agree. -/
theorem TablesInv.tablesAgree {bulkHash : ConnClassificationKey → UInt32} {s : Chip Tid}
    {Γ : Tid → KeySection} {st : ConnStatus Tid} (h : TablesInv bulkHash s Γ st)
    (hΓ : ∀ t, (Γ t).Settled) : TablesAgree s.nps := by
  have hset (i : UInt32) : (st i).Settled := by
    cases hst : st i with
    | free | linked => trivial
    | reserved t =>
      obtain ⟨k, ht⟩ := h.reserved t i hst
      exact hΓ t _ ht
    | detached t k =>
      obtain ⟨c, ht⟩ := h.detached t k i hst
      exact hΓ t _ ht
  constructor
  · intro key i
    rw [h.agree.key_iff (hset i), Nps.connKeyOf, Option.map_eq_some_iff]
  · intro i
    rw [h.agree.used_iff (hset i)]
    cases hc : s.nps.connInfo i <;> simp [Nps.connKeyOf, hc]

/-- The tables of connections agree when no job is in progress, and a scan has removed only
entries that it would still delete. -/
structure TablesSafe (p : Pool Tid (Chip Tid) DpCall DpCall.Res Cmem) : Prop where
  agree : p.Quiescent → TablesAgree p.shared.nps
  removes : ∀ x ∈ p.shared.log, x.RemovesExpired

/-- In every run of any number of threads whose calls meet `TablesOk`, the tables agree. -/
theorem tablesAgree_run (bulkHash : ConnClassificationKey → UInt32) (nps : Nps) (mem : Tid → Cmem)
    (as : List (PoolAct Tid DpJob DpEnv))
    (has : Always (Machine.ActOk TablesOk) (threadMachine bulkHash).act (threadPool nps mem) as) :
    TablesSafe (as.foldl (threadMachine bulkHash).act (threadPool nps mem)) := by
  have hinit : Machine.Inv (fun _ => tablesSpec bulkHash) (fun _ _ g => g.Settled)
      (fun s Γ => ∃ st, TablesInv bulkHash s Γ st) (threadPool nps mem) :=
    ⟨fun _ => none, ⟨_, tablesInv_init bulkHash nps⟩, fun _ => KeySection.settled_none⟩
  obtain ⟨Γ, ⟨st, hinv⟩, hwp⟩ := Machine.inv_run
    (fun t j l g hg => wp_job.mpr (tables_sections.job j l g hg)) tablesInv_step hinit has
  refine ⟨fun hq => hinv.tablesAgree fun t => ?_, hinv.removes⟩
  obtain ⟨l, hl⟩ := hq t
  have ht := hwp t
  rwa [hl] at ht

end Run

section Examples

/-- A sync message creates a connection, a packet with RST marks it, and a scan of all its
entries deletes it. -/
def scannedReset : List (PoolAct (Fin 3) DpJob DpEnv) :=
  .start (tid 0) (exampleSync (exampleRecord ipVsConnFDroute 1 0x0a000002 80)) ::
    exampleCalls (tid 0) 12 ++ .start (tid 2) (examplePacket false true) ::
    exampleCalls (tid 2) 12 ++ .start (tid 0) (.timer 0) :: exampleCalls (tid 0) 140

theorem tablesAgree_run_reset : TablesSafe
    (scannedReset.foldl (threadMachine fun _ => 0).act (threadPool Sys.init.nps fun _ => .zero)) :=
  tablesAgree_run (fun _ => 0) Sys.init.nps (fun _ => .zero) scannedReset (by decide +kernel)

/-- A scan of the next cycle of iterations reads the aged entry, a packet refreshes it, and
the scan goes on. -/
def refreshedInScan : List (PoolAct (Fin 3) DpJob DpEnv) :=
  agedConnection ++ .start (tid 0) (.timer (60 * alvsAgingTimerEventsPerIteration.toUInt32)) ::
    exampleCalls (tid 0) 3 ++ .start (tid 2) (examplePacket false false) ::
    exampleCalls (tid 2) 12 ++ exampleCalls (tid 0) 3

/-- The scan removes the entry, whose aging bit is set again. -/
theorem tablesAgree_fails : ¬ TablesSafe
    (refreshedInScan.foldl (threadMachine fun _ => 0).act
      (threadPool Sys.init.nps fun _ => .zero)) := by
  intro h
  have hfails : ¬ ∀ x ∈ (refreshedInScan.foldl (threadMachine fun _ => 0).act
      (threadPool Sys.init.nps fun _ => .zero)).shared.log, x.RemovesExpired := by
    decide +kernel
  exact hfails h.removes

end Examples

end Alvs
