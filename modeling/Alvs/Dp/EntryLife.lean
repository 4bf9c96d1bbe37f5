import Alvs.Dp.TablesAgree

/-!
# The life of an entry

Any number of threads, whose calls are interleaved, work on the entries of connections. A change
of an entry is made of a copy that the thread has read. `DpStep.Follows` : the copy is the entry
that is there, so that no change is lost, and a new entry goes where there is none.

`connEntries_run` : this holds of every call in a run that meets `TablesOk`, and while an entry is
not deleted it stays that of its connection, and with the server that it is bound to.
-/

set_option linter.unusedSectionVars false

namespace Alvs

open ProgLogic LProg

/-! ## Changes of an entry -/

/-- The changes that are made of an entry : its state is updated, it is marked to be deleted,
refreshed, bound or aged, or it follows a sync record. -/
inductive ConnInfoResult.Change (c : ConnInfoResult) : ConnInfoResult → Prop
  | update (st : UInt8) (hopen : ¬ (c.connState = st ∨ c.deleteBit = true)) :
      Change c (c.updated st)
  | mark (reset : Bool) (hkept : c.deleteBit = false) : Change c (c.marked reset)
  | refresh : Change c { c with agingBit := true, deleteBit := false }
  | bind (j : UInt32) (hbound : c.bound = false) :
      Change c { c with serverIndex := j, bound := true }
  | age (iterationNum : UInt8) : Change c
      { c with agingBit := false, ageIteration := connAgeIteration iterationNum c.connState }
  | sync (r : StateSyncConn) : Change c (c.synced r)
  | syncBind (r : StateSyncConn) (j : UInt32) (hbound : c.bound = false) :
      Change c (ConnInfoResult.synced { c with serverIndex := j, bound := true } r)

/-- The later entry is of the same connection, and of the same server unless this is bound only
now. -/
structure ConnInfoResult.Continues (c c' : ConnInfoResult) : Prop where
  key : c'.connClassKey = c.connClassKey
  bound : c.bound = true → c'.bound = true ∧ c'.serverIndex = c.serverIndex
  unbound : c'.bound = false → c'.serverAddr = c.serverAddr ∧ c'.serverPort = c.serverPort

section Continues

variable {c c' c'' : ConnInfoResult}

theorem ConnInfoResult.Continues.refl (c : ConnInfoResult) : c.Continues c :=
  ⟨rfl, fun h => ⟨h, rfl⟩, fun _ => ⟨rfl, rfl⟩⟩

theorem ConnInfoResult.Continues.trans (h : c.Continues c') (h' : c'.Continues c'') :
    c.Continues c'' := by
  refine ⟨h'.key.trans h.key, fun hb => ?_, fun hb => ?_⟩
  · obtain ⟨hb', hindex⟩ := h.bound hb
    exact ⟨(h'.bound hb').1, (h'.bound hb').2.trans hindex⟩
  · have hb' : c'.bound = false := by
      by_contra hne
      rw [(h'.bound (by simpa using hne)).1] at hb
      cases hb
    exact ⟨(h'.unbound hb).1.trans (h.unbound hb').1, (h'.unbound hb).2.trans (h.unbound hb').2⟩

/-- A bound entry that is not bound cannot be. -/
theorem ConnInfoResult.Change.continues (h : c.Change c') : c.Continues c' := by
  cases h with
  | bind j hbound | syncBind r j hbound =>
    exact ⟨rfl, fun hb => absurd hb (by simp [hbound]), fun hb => absurd hb (by
      simp [ConnInfoResult.synced])⟩
  | _ => exact ⟨rfl, fun h => ⟨h, rfl⟩, fun _ => ⟨rfl, rfl⟩⟩

end Continues

variable {Tid : Type}

/-- A change is made of the entry that is there, and a new entry goes where there is none. -/
def DpStep.Follows : DpStep Tid → Prop
  | ⟨_, before, .connInfoModify i c, _⟩ => ∃ c₀ ∈ before.connInfo i, c₀.Change c
  | ⟨_, before, .connInfoAdd i _, _⟩ => before.connInfo i = none
  | _ => True

/-- The call deletes entry `i`. -/
def DpStep.Deletes (i : UInt32) : DpStep Tid → Prop
  | ⟨_, _, .connInfoDelete _ j, _⟩ => j = i
  | _ => False

/-! ## The copy of a thread -/

/-- Lookups of an entry under its lock. -/
def ConnSite.UnderLock : ConnSite → Prop
  | dataPath | scan => False
  | _ => True

instance : (site : ConnSite) → Decidable site.UnderLock
  | .dataPath | .scan => .isFalse id
  | .updateState | .markToDelete _ | .refresh | .bind | .ageOut | .syncConn _ => .isTrue trivial

/-- The entry that a thread has a copy of. -/
abbrev EntryCopy := Option (UInt32 × ConnInfoResult)

/-- The copy after a call. -/
def EntryCopy.next (g : EntryCopy) : DpEvent → EntryCopy
  | ⟨.connInfoLookup site i, some c⟩ => if site.UnderLock then some (i, c) else g
  | ⟨.connInfoModify i c, _⟩ => some (i, c)
  | _ => g

/-- An entry is changed from the copy that the thread has. -/
def copySpec : Spec DpCall DpCall.Res EntryCopy where
  pre g op := match op with
    | .connInfoModify i c => ∃ c₀, g = some (i, c₀) ∧ c₀.Change c
    | _ => True
  post g op r g' := g' = g.next ⟨op, r⟩

/-- Any copy. -/
def AnyCopy (_ : EntryCopy) : Prop := True

/-- A call that does not change an entry. -/
def DpCall.NotModify : DpCall → Prop
  | connInfoModify _ _ => False
  | _ => True

section Copies

variable {α : Type} {m : Cmem} {g : EntryCopy}

theorem silent_copySpec : Silent copySpec DpCall.OffConn := by
  intro g op hop
  cases op <;> first | exact hop.elim | exact ⟨trivial, fun _ _ h => h⟩

theorem OffConn.copy {x : Dp α} (h : OffConn x) : Triple copySpec AnyCopy x AnyCopy :=
  .of_makes silent_copySpec h

theorem QuietProg.copy {x : Dp α} (h : QuietProg x) : Triple copySpec AnyCopy x AnyCopy :=
  h.offConn.copy

/-- A program that leaves the tables of connections leaves the copy and the memory of it. -/
theorem OffConn.copy_wp {x : Dp α} (hx : OffConn x) {Q : α → Cmem → EntryCopy → Prop}
    (hQ : ∀ a m', m.SameConn m' → Q a m' g) : x.wp copySpec Q m g := by
  refine wp_mono (hx.wp silent_copySpec m g) ?_
  rintro a m' g' ⟨hm, rfl⟩
  exact hQ a m' hm

theorem copy_call {op : DpCall} (hop : op.NotModify) :
    Triple copySpec AnyCopy (dpCall op) AnyCopy :=
  .of_call fun _ _ => ⟨by cases op <;> first | exact hop.elim | trivial, fun _ _ _ => trivial⟩

theorem copy_lock : Triple copySpec AnyCopy alvsLockConnection AnyCopy :=
  .get_bind fun _ => copy_call trivial

theorem copy_unlock (h : UInt32) : Triple copySpec AnyCopy (alvsUnlockConnection h) AnyCopy :=
  copy_call trivial

/-- The entry that was read is changed. -/
theorem copy_modify_wp {i : UInt32} {c c' : ConnInfoResult} {Q : Bool → Cmem → EntryCopy → Prop}
    (hchange : c.Change c') (hQ : ∀ rc m' g', Q rc m' g') :
    (alvsConnInfoModify i c').wp copySpec Q m (some (i, c)) := by
  simp only [alvsConnInfoModify, wp_bind, wp_modify, wp_call]
  exact ⟨⟨c, rfl, hchange⟩, fun rc g' _ => hQ rc _ g'⟩

/-- A section that reads an entry and, if it finds one, goes on with `f`. -/
theorem copy_section {site : ConnSite} (hsite : site.UnderLock) {i : UInt32} {f : UInt32 → Dp Bool}
    (hf : ∀ hash c m, m.connInfoResult = c →
      (f hash).wp copySpec (fun _ _ _ => True) m (some (i, c))) :
    Triple copySpec AnyCopy
      (alvsLockConnection >>= fun h => alvsConnInfoLookup site i >>=
        fun found => if found = true then f h
          else alvsUnlockConnection h >>= fun _ => pure false) AnyCopy := by
  refine .bind copy_lock fun hash m g _ => ?_
  simp only [alvsConnInfoLookup, wp_bind, wp_call]
  refine ⟨trivial, ?_⟩
  rintro (_ | c) g' rfl
  · simp only [wp_pure, Bool.false_eq_true, if_false]
    exact wp_bind_of (copy_unlock hash m _ trivial) fun _ _ _ _ => trivial
  · simp only [wp_bind, wp_modify, wp_pure, if_true]
    have hcopy : EntryCopy.next g ⟨.connInfoLookup site i, some c⟩ = some (i, c) := if_pos hsite
    rw [hcopy]
    exact hf hash c _ rfl

/-! ## Sections -/

theorem copy_connUpdateState (i : UInt32) (st : UInt8) :
    Triple copySpec AnyCopy (alvsConnUpdateState i st) AnyCopy := by
  refine copy_section (by trivial) fun hash c m hm => ?_
  simp only [wp_bind, wp_get, hm]
  refine (wp_ite _ _ _ _).mpr ⟨fun _ => ?_, fun hopen => ?_⟩
  · exact wp_bind_of (copy_unlock hash m _ trivial) fun _ _ _ _ => trivial
  · simp only [wp_bind]
    refine (offConn_updateConnectionStatistics _ _ _).copy_wp fun _ m' _ => ?_
    refine copy_modify_wp (.update st hopen) fun rc m'' g' => (wp_modify _ _).mpr ?_
    exact wp_mono (copy_unlock hash _ g' trivial) fun _ _ _ _ => trivial

theorem copy_connMarkToDelete (i : UInt32) (reset : Bool) :
    Triple copySpec AnyCopy (alvsConnMarkToDelete i reset) AnyCopy := by
  refine copy_section (by trivial) fun hash c m hm => ?_
  simp only [wp_bind, wp_get, hm]
  refine (wp_ite _ _ _ _).mpr ⟨fun _ => ?_, fun hkept => ?_⟩
  · exact wp_bind_of (copy_unlock hash m _ trivial) fun _ _ _ _ => trivial
  · simp only [wp_bind]
    refine OffConn.copy_wp (.ite (offConn_updateConnectionStatistics _ _ _) (.of_pure _))
      fun _ m' _ => ?_
    refine copy_modify_wp (.mark reset (by simpa using hkept)) fun rc m'' g' => ?_
    exact wp_mono (copy_unlock hash m'' g' trivial) fun _ _ _ _ => trivial

theorem copy_connRefresh (i : UInt32) :
    Triple copySpec AnyCopy (alvsConnRefresh i) AnyCopy := by
  refine copy_section (by trivial) fun hash c m hm => ?_
  simp only [wp_bind, wp_get, hm]
  refine copy_modify_wp .refresh fun rc m' g' => ?_
  exact wp_mono (copy_unlock hash m' g' trivial) fun _ _ _ _ => trivial

theorem copy_connAgeOut (i : UInt32) (iterationNum : UInt8) :
    Triple copySpec AnyCopy (alvsConnAgeOut i iterationNum) AnyCopy := by
  refine copy_section (by trivial) fun hash c m hm => ?_
  simp only [wp_bind, wp_get, hm]
  refine copy_modify_wp (.age iterationNum) fun rc m' g' => ?_
  exact wp_mono (copy_unlock hash m' g' trivial) fun _ _ _ _ => trivial

theorem copy_connBind (i server : UInt32) :
    Triple copySpec AnyCopy (alvsConnBind i server) AnyCopy := by
  refine copy_section (by trivial) fun hash c m hm => ?_
  simp only [wp_bind, wp_get, hm]
  refine (wp_ite _ _ _ _).mpr ⟨fun _ => trivial, fun hbound => ?_⟩
  simp only [wp_bind]
  refine copy_modify_wp (.bind server (by simpa using hbound)) fun rc m' g' => ?_
  exact wp_mono (copy_unlock hash m' g' trivial) fun _ _ _ _ => trivial

/-! ## Creation, deletion and sync messages -/

theorem copy_connCreateNewEntry (bound : Bool) (server : UInt32) (port st : UInt16)
    (flags : UInt32) (reset : Bool) : Triple copySpec AnyCopy
      (alvsConnCreateNewEntry bound server port st flags reset) AnyCopy := by
  have hfail (error : AlvsErrorStats) : Triple copySpec AnyCopy
      (alvsDiscardAndStats error >>= fun _ => pure AlvsServiceOutputResult.ignore) AnyCopy :=
    .bind (quiet_alvsDiscardAndStats error).copy fun _ => .of_pure _
  have hstats : OffConn (if bound then alvsConnCreateStatistics st else pure ()) :=
    .ite (.ite (offConn_updateConnectionStatistics _ _ _)
      (offConn_updateConnectionStatistics _ _ _)) (.of_pure _)
  refine .bind (copy_call trivial) fun r => ?_
  split
  · exact .bind (offConn_overloadOnDeleteConn _).copy fun _ => hfail _
  · refine .get_bind fun _ => .bind .of_modify fun _ => .bind (copy_call trivial) fun _ =>
      .bind .of_modify fun _ => .bind (copy_call trivial) fun _ =>
        .ite (.bind hstats.copy fun _ => .of_pure _) ?_
    exact .bind (copy_call trivial) fun _ => .bind (offConn_overloadOnDeleteConn _).copy fun _ =>
      .bind (copy_call trivial) fun _ => hfail _

theorem copy_connDeleteWithoutLock (site : DeleteSite) (i : UInt32) :
    Triple copySpec AnyCopy (alvsConnDeleteWithoutLock site i) AnyCopy :=
  .get_bind fun _ => .bind (copy_call trivial) fun _ => .ite (.bind (copy_call trivial) fun _ =>
    .ite (.bind (offConn_connReleaseServer _).copy fun _ => copy_call trivial) (.of_pure _))
    (.of_pure _)

theorem copy_agingDelete (iterationNum : UInt8) (i : UInt32) :
    Triple copySpec AnyCopy (alvsAgingDelete iterationNum i) AnyCopy :=
  .bind .of_modify fun _ => .bind copy_lock fun hash =>
    .bind (copy_connDeleteWithoutLock _ i) fun _ => copy_unlock hash

theorem copy_tcpScheduleLocked (i : UInt8) (ip : IpHdr) (tcp : TcpHdr) :
    Triple copySpec AnyCopy (alvsTcpScheduleLocked i ip tcp) AnyCopy := by
  refine .get_bind fun _ => .bind (copy_call trivial) fun r => ?_
  cases r with
  | found connIndex => exact .bind .of_modify fun _ => .of_pure _
  | error => exact .bind (quiet_alvsDiscardAndStats _).copy fun _ => .of_pure _
  | notFound =>
    refine .bind (offConn_scheduleConnection i ip tcp).copy fun _ => .ite ?_ (.of_pure _)
    exact .get_bind fun _ => .bind (copy_connCreateNewEntry _ _ _ _ _ _) fun _ =>
      .bind .of_modify fun _ => .of_pure _

theorem copy_tcpScheduleNewConnection (i : UInt8) (ip : IpHdr) (tcp : TcpHdr) :
    Triple copySpec AnyCopy (alvsTcpScheduleNewConnection i ip tcp) AnyCopy :=
  .bind quiet_alvsSchedCheckActiveServers.copy fun _ => .ite (.bind copy_lock fun hash =>
    .bind (copy_tcpScheduleLocked i ip tcp) fun _ => .bind (copy_unlock hash) fun _ => .of_pure _)
    (.of_pure _)

theorem copy_stateSyncCreateConn (conn : StateSyncConn) (hash : UInt32) :
    Triple copySpec AnyCopy (alvsStateSyncCreateConn conn hash) AnyCopy := by
  refine .bind (copy_call trivial) fun r => ?_
  split
  · refine .bind (offConn_serverInfoLookup _).copy fun _ => .ite ?_ ?_
    · exact .bind (copy_connCreateNewEntry _ _ _ _ _ _) fun _ => .bind (copy_unlock hash) fun _ =>
        .of_pure _
    · exact .bind (copy_unlock hash) fun _ => .of_pure _
  · exact .bind (copy_connCreateNewEntry _ _ _ _ _ _) fun _ => .bind (copy_unlock hash) fun _ =>
      .of_pure _

/-- The entry that a record updates is its copy, or that bound. -/
theorem copy_stateSyncUpdateConn (conn : StateSyncConn) (i hash : UInt32) {c : ConnInfoResult}
    (hm : m.connInfoResult = c) : (alvsStateSyncUpdateConn conn i hash).wp copySpec
      (fun _ _ _ => True) m (some (i, c)) := by
  have hdone {c' : ConnInfoResult} (hchange : c.Change (c'.synced conn)) (m' : Cmem) :
      (alvsConnInfoModify i (c'.synced conn) >>= fun _ => alvsUnlockConnection hash >>= fun _ =>
        pure 0 : Dp Int).wp copySpec (fun _ _ _ => True) m' (some (i, c)) :=
    (wp_bind _ _ _).mpr (copy_modify_wp hchange fun _ m'' g' =>
      wp_bind_of (copy_unlock hash m'' g' trivial) fun _ _ _ _ => trivial)
  rw [alvsStateSyncUpdateConn, wp_bind, wp_get, hm, wp_bind]
  refine (offConn_stateSyncUpdateStatistics conn c).copy_wp fun _ m' _ => ?_
  rw [wp_bind]
  unfold alvsStateSyncBindConn
  refine (wp_ite _ _ _ _).mpr ⟨fun _ => hdone (.sync conn) m', fun hbound => ?_⟩
  simp only [alvsFindServerIndex, wp_bind, wp_call]
  refine ⟨trivial, ?_⟩
  rintro (_ | j) g' rfl
  · exact hdone (.sync conn) m'
  · exact hdone (.syncBind conn j (by simpa using hbound)) m'

theorem copy_stateSyncExistingConn (conn : StateSyncConn) (i hash : UInt32) :
    Triple copySpec AnyCopy (alvsStateSyncExistingConn conn i hash) AnyCopy := by
  intro m g _
  have hexit (rc : Int) (m' : Cmem) (g' : EntryCopy) : (alvsUnlockConnection hash >>= fun _ =>
      pure rc : Dp Int).wp copySpec (fun _ _ g => AnyCopy g) m' g' :=
    wp_bind_of (copy_unlock hash m' g' trivial) fun _ _ _ _ => trivial
  simp only [alvsStateSyncExistingConn, alvsConnInfoLookup, wp_bind, wp_call]
  refine ⟨trivial, ?_⟩
  rintro (_ | c) g' rfl
  · exact hexit _ _ _
  · simp only [wp_bind, wp_modify, wp_pure, if_true, wp_get]
    have hcopy : EntryCopy.next g ⟨.connInfoLookup (.syncConn conn) i, some c⟩ = some (i, c) := rfl
    rw [hcopy]
    refine OffConn.copy_wp (.ite (offConn_serverInfoLookup _) (.of_pure _)) fun found m' hm' => ?_
    refine (wp_ite _ _ _ _).mpr ⟨fun _ => ?_, fun _ => hexit _ _ _⟩
    simp only [wp_bind, wp_get]
    refine (wp_ite _ _ _ _).mpr ⟨fun _ => (wp_ite _ _ _ _).mpr ⟨fun _ => ?_, fun _ =>
      hexit _ _ _⟩, fun _ => copy_stateSyncUpdateConn conn i hash hm'.conn⟩
    exact Triple.bind (copy_connDeleteWithoutLock .syncConn i)
      (fun _ => copy_stateSyncCreateConn conn hash) m' _ trivial

theorem copy_stateSyncProcessConn (conn : StateSyncConn) :
    Triple copySpec AnyCopy (alvsStateSyncProcessConn conn) AnyCopy := by
  refine .ite (.of_pure _) (.ite (.of_pure _) (.ite (.of_pure _) ?_))
  refine .bind .of_modify fun _ => .bind copy_lock fun hash => .bind (copy_call trivial) fun r => ?_
  split
  · exact copy_stateSyncExistingConn conn _ hash
  · exact copy_stateSyncCreateConn conn hash

/-! ## Jobs -/

theorem copy_lookup (site : ConnSite) (i : UInt32) :
    Triple copySpec AnyCopy (alvsConnInfoLookup site i) AnyCopy := by
  refine .bind (copy_call trivial) fun r => ?_
  split
  · exact .of_pure _
  · exact .bind .of_modify fun _ => .of_pure _

theorem copy_agingScanEntry (iter : UInt8) (ip : UInt32) (id : UInt8) (i : UInt32) :
    Triple copySpec AnyCopy (alvsAgingScanEntry iter ip id i) AnyCopy := by
  refine .bind (copy_lookup .scan i) fun _ => .ite (.get_bind fun _ => .ite
    (copy_agingDelete iter i) (.ite ?_ (.ite (copy_agingDelete iter i) (.of_pure _)))) (.of_pure _)
  exact .bind .of_modify fun _ => .bind (copy_connAgeOut i iter) fun _ => .ite
    (.get_bind fun _ => .ite (offConn_stateSyncAggr _ _).copy (.of_pure _)) (.of_pure _)

theorem copy_sections : Sectionwise copySpec AnyCopy where
  silent := silent_copySpec
  classLookup _ := copy_call trivial
  dataPathLookup := copy_lookup .dataPath
  updateState := copy_connUpdateState
  markToDelete := copy_connMarkToDelete
  refresh := copy_connRefresh
  bind := copy_connBind
  schedule := copy_tcpScheduleNewConnection
  syncConn := copy_stateSyncProcessConn
  scanEntry := copy_agingScanEntry

end Copies

/-! ## The invariant -/

section Invariant

variable [DecidableEq Tid] {bulkHash : ConnClassificationKey → UInt32}

/-- The tables agree, the entry that a thread has read in a section is the copy that it has, and
all calls so far were made of the entries that were there. -/
structure EntriesInv (bulkHash : ConnClassificationKey → UInt32) (s : Chip Tid)
    (Γ : Tid → KeySection × EntryCopy) (st : ConnStatus Tid) : Prop where
  tables : TablesInv bulkHash s (fun t => (Γ t).1) st
  copies : ∀ t k i c, (Γ t).1 = some (k, .read i c) → (Γ t).2 = some (i, c)
  follows : ∀ x ∈ s.log, x.Follows

theorem KeySection.to_read {g : KeySection} {ph : KeyPhase} {k : ConnClassificationKey} {i : UInt32}
    {c : ConnInfoResult} (h : g.to ph = some (k, .read i c)) : ph = .read i c := by
  obtain ⟨x, -, hx⟩ := Option.map_eq_some_iff.mp h
  exact congrArg Prod.snd hx

/-- A call after which a thread has read an entry in a section leaves it with this copy. -/
theorem copy_of_post {g g' : KeySection} {copy : EntryCopy} {op : DpCall} {r : op.Res}
    (hcopy : ∀ k i c, g = some (k, .read i c) → copy = some (i, c))
    (hpost : (tablesSpec bulkHash).post g op r g') {k : ConnClassificationKey} {i : UInt32}
    {c : ConnInfoResult} (hread : g' = some (k, .read i c)) : copy.next ⟨op, r⟩ = some (i, c) := by
  have hsame (heq : g' = g) : copy = some (i, c) := hcopy k i c (heq ▸ hread)
  have hto {ph : KeyPhase} (heq : g' = g.to ph) : ph = .read i c :=
    KeySection.to_read (heq ▸ hread)
  cases op with
  | lockConnection key =>
    rw [hpost.2] at hread
    cases hread
  | unlockConnection h =>
    rw [show g' = none from hpost] at hread
    cases hread
  | connClassLookup site key =>
    cases site with
    | tcpProcessing => exact hsame hpost
    | schedule =>
      have hph := hto hpost
      split at hph <;> cases hph
    | syncConn => cases r <;> cases hto hpost
  | connClassAdd bound key j =>
    cases r with
    | false => exact hsame hpost
    | true => cases hto hpost
  | connClassDelete site key j =>
    cases site with
    | syncConn =>
      obtain ⟨-, c', heq⟩ := hpost
      cases hto heq
    | aging iter =>
      cases r with
      | false => exact hsame hpost
      | true =>
        obtain ⟨c', -, heq⟩ := hpost
        cases hto heq
    | create => exact hsame hpost
  | connInfoLookup site j =>
    cases site with
    | dataPath | scan => cases r <;> exact hsame hpost
    | _ =>
      cases r with
      | none => exact hsame hpost
      | some c' =>
        cases hto hpost.2
        rfl
  | connInfoAdd j c' => cases hto hpost
  | connInfoModify j c' =>
    cases hto hpost
    rfl
  | connInfoDelete site j => cases hto hpost.2
  | allocIndex bound =>
    cases r with
    | none => exact hsame hpost
    | some j => cases hto hpost
  | freeIndex j => cases hto hpost
  | _ => exact hsame hpost

/-- A call whose precondition holds is made of the entry that is there. -/
theorem follows_of_pre {s : Chip Tid} {Γ : Tid → KeySection × EntryCopy} {st : ConnStatus Tid}
    (h : EntriesInv bulkHash s Γ st) {t : Tid} {op : DpCall}
    (hpre : (Prog.prodSpec (tablesSpec bulkHash) copySpec).pre (Γ t) op) (r : op.Res) :
    (⟨t, s.nps, op, r⟩ : DpStep Tid).Follows := by
  cases op with
  | connInfoModify i c =>
    obtain ⟨⟨c₀, hread⟩, c₁, hcopy, hchange⟩ := hpre
    have hcopy' := h.copies t _ i c₀ hread
    rw [hcopy] at hcopy'
    obtain ⟨-, rfl⟩ := Prod.mk.inj (Option.some.inj hcopy')
    have hview := h.tables.holds t
    rw [hread] at hview
    exact ⟨c₁, hview.2, hchange⟩
  | connInfoAdd i c =>
    have hreserved : (Γ t).1 = some (c.connClassKey, .reserved i) := hpre.1
    have hview := h.tables.holds t
    rw [hreserved] at hview
    have hkey := h.tables.agree.keyOf i
    rw [hview.1] at hkey
    exact Option.map_eq_none_iff.mp hkey
  | _ => trivial

/-- What a call records. -/
theorem threadHandle_log {e : DpEnv} {t : Tid} {op : DpCall} {s s' : Chip Tid} {r : op.Res}
    (hs : threadHandle bulkHash e t op s = some (r, s')) :
    (s'.log = s.log ∧ s'.nps = s.nps) ∨
      s'.log = ⟨t, s.nps, op, r⟩ :: s.log ∧ s'.nps = (dpHandle e op s.nps).2 := by
  by_cases hop : op.OffLock
  · rw [threadHandle_offLock e t hop] at hs
    obtain ⟨rfl, rfl⟩ := Prod.mk.inj (Option.some.inj hs)
    exact .inr ⟨rfl, rfl⟩
  · left
    cases op with
    | lockConnection key =>
      simp only [threadHandle] at hs
      split at hs
      · obtain ⟨-, rfl⟩ := Prod.mk.inj (Option.some.inj hs)
        exact ⟨rfl, rfl⟩
      · cases hs
    | unlockConnection hash =>
      simp only [threadHandle] at hs
      obtain ⟨-, rfl⟩ := Prod.mk.inj (Option.some.inj hs)
      exact ⟨rfl, rfl⟩
    | _ => exact absurd trivial hop

theorem entriesInv_step (e : DpEnv) (t : Tid) (op : DpCall) (s : Chip Tid)
    (Γ : Tid → KeySection × EntryCopy) (r : op.Res) (s' : Chip Tid)
    (h : ∃ st, EntriesInv bulkHash s Γ st)
    (hpre : (Prog.prodSpec (tablesSpec bulkHash) copySpec).pre (Γ t) op) (hok : TablesOk e t op s)
    (hs : threadHandle bulkHash e t op s = some (r, s')) :
    ∃ g', (Prog.prodSpec (tablesSpec bulkHash) copySpec).post (Γ t) op r g' ∧
      ∃ st, EntriesInv bulkHash s' (Function.update Γ t g') st := by
  obtain ⟨st, h⟩ := h
  obtain ⟨g, hpost, st', htables⟩ :=
    tablesInv_step e t op s (fun t => (Γ t).1) r s' ⟨st, h.tables⟩ hpre.1 hok hs
  refine ⟨(g, (Γ t).2.next ⟨op, r⟩), ⟨hpost, rfl⟩, st', ?_, fun t' k i c hread => ?_, ?_⟩
  · have hfst : (fun t' => (Function.update Γ t (g, (Γ t).2.next ⟨op, r⟩) t').1) =
        Function.update (fun t => (Γ t).1) t g := by
      funext t'
      by_cases ht : t' = t
      · rw [ht, Function.update_self, Function.update_self]
      · rw [Function.update_of_ne ht, Function.update_of_ne ht]
    rw [hfst]
    exact htables
  · by_cases ht : t' = t
    · subst ht
      rw [Function.update_self] at hread ⊢
      exact copy_of_post (h.copies t') hpost hread
    · rw [Function.update_of_ne ht] at hread ⊢
      exact h.copies t' k i c hread
  · rcases threadHandle_log hs with ⟨hlog, -⟩ | ⟨hlog, -⟩
    · rw [hlog]
      exact h.follows
    · rw [hlog]
      exact List.forall_mem_cons.mpr ⟨follows_of_pre h hpre r, h.follows⟩

end Invariant

/-! ## Runs -/

section Runs

variable [DecidableEq Tid] {bulkHash : ConnClassificationKey → UInt32} {i : UInt32}

/-- A call that follows the entry that is there keeps it, changes it or deletes it. -/
theorem entry_of_call {e : DpEnv} {t : Tid} {op : DpCall} {s : Nps} {c : ConnInfoResult}
    {r : op.Res} (hfollows : (⟨t, s, op, r⟩ : DpStep Tid).Follows)
    (hdeletes : ¬ (⟨t, s, op, r⟩ : DpStep Tid).Deletes i) (hc : s.connInfo i = some c) :
    ∃ c', (dpHandle e op s).2.connInfo i = some c' ∧ c.Continues c' := by
  have hsame (heq : (dpHandle e op s).2.connInfo i = s.connInfo i) :
      ∃ c', (dpHandle e op s).2.connInfo i = some c' ∧ c.Continues c' :=
    ⟨c, heq.trans hc, .refl c⟩
  cases op with
  | connInfoAdd j c' =>
    have hj : i ≠ j := by
      rintro rfl
      exact Option.some_ne_none c (hc.symm.trans hfollows)
    exact hsame (Function.update_of_ne hj _ _)
  | connInfoModify j c' =>
    obtain ⟨c₀, hc₀, hchange⟩ := hfollows
    have hpresent : s.connInfo j ≠ none := fun h => Option.some_ne_none c₀ (hc₀.symm.trans h)
    simp only [dpHandle, if_neg hpresent] at hsame ⊢
    by_cases hj : i = j
    · subst hj
      obtain rfl : c = c₀ := Option.some.inj (hc.symm.trans hc₀)
      exact ⟨c', Function.update_self i (some c') s.connInfo, hchange.continues⟩
    · exact hsame (Function.update_of_ne hj _ _)
  | connInfoDelete site j =>
    have hj : i ≠ j := fun h => hdeletes h.symm
    simp only [dpHandle] at hsame ⊢
    split
    · exact ⟨c, hc, .refl c⟩
    · exact ⟨c, (Function.update_of_ne hj _ _).trans hc, .refl c⟩
  | connClassAdd _ key j | connClassDelete _ key j | allocIndex _ =>
    refine hsame ?_
    simp only [dpHandle]
    split <;> rfl
  | _ => exact hsame rfl

/-- From one state to the other an entry is deleted by a recorded call, or stays that of its
connection. -/
def EntryKept (i : UInt32) (s s' : Chip Tid) : Prop :=
  ∃ new, s'.log = new ++ s.log ∧ ∀ c, s.nps.connInfo i = some c → (∃ x ∈ new, x.Deletes i) ∨
    ∃ c', s'.nps.connInfo i = some c' ∧ c.Continues c'

theorem EntryKept.of_nps {s s' : Chip Tid} (hlog : s'.log = s.log) (hnps : s'.nps = s.nps) :
    EntryKept i s s' :=
  ⟨[], hlog, fun c hc => .inr ⟨c, by rw [hnps, hc], .refl c⟩⟩

theorem EntryKept.trans {s s' s'' : Chip Tid} (h : EntryKept i s s') (h' : EntryKept i s' s'') :
    EntryKept i s s'' := by
  obtain ⟨new, hlog, hkept⟩ := h
  obtain ⟨new', hlog', hkept'⟩ := h'
  refine ⟨new' ++ new, by rw [hlog', hlog, List.append_assoc], fun c hc => ?_⟩
  rcases hkept c hc with ⟨x, hx, hdel⟩ | ⟨c', hc', hcont⟩
  · exact .inl ⟨x, List.mem_append_right new' hx, hdel⟩
  rcases hkept' c' hc' with ⟨x, hx, hdel⟩ | ⟨c'', hc'', hcont'⟩
  · exact .inl ⟨x, List.mem_append_left new hx, hdel⟩
  · exact .inr ⟨c'', hc'', hcont.trans hcont'⟩

theorem entryKept_handle {e : DpEnv} {t : Tid} {op : DpCall} {s s' : Chip Tid} {r : op.Res}
    (hs : threadHandle bulkHash e t op s = some (r, s')) (h : ∀ x ∈ s'.log, x.Follows) :
    EntryKept i s s' := by
  rcases threadHandle_log hs with ⟨hlog, hnps⟩ | ⟨hlog, hnps⟩
  · exact .of_nps hlog hnps
  · refine ⟨[⟨t, s.nps, op, r⟩], hlog, fun c hc => ?_⟩
    by_cases hdel : (⟨t, s.nps, op, r⟩ : DpStep Tid).Deletes i
    · exact .inl ⟨_, List.mem_singleton_self _, hdel⟩
    · rw [hnps]
      exact .inr (entry_of_call (h _ (hlog ▸ List.mem_cons_self)) hdel hc)

theorem entryKept_act {p : Pool Tid (Chip Tid) DpCall DpCall.Res Cmem}
    {a : PoolAct Tid DpJob DpEnv}
    (h : ∀ x ∈ ((threadMachine bulkHash).act p a).shared.log, x.Follows) :
    EntryKept i p.shared ((threadMachine bulkHash).act p a).shared := by
  cases a with
  | start t j =>
    have hshared : ((threadMachine bulkHash).start p t j).shared = p.shared := by
      unfold Machine.start
      split <;> rfl
    exact .of_nps (congrArg Chip.log hshared) (congrArg Chip.nps hshared)
  | step t e =>
    change EntryKept i p.shared ((threadMachine bulkHash).step p t e).shared
    replace h : ∀ x ∈ ((threadMachine bulkHash).step p t e).shared.log, x.Follows := h
    unfold Machine.step at h ⊢
    split at h
    next => exact .of_nps rfl rfl
    next op k hk =>
      split at h
      next => exact .of_nps rfl rfl
      next r s' hr => exact entryKept_handle hr h

/-- The induction over a run : the calls of its last action are those that it adds. -/
theorem entryKept_run {p : Pool Tid (Chip Tid) DpCall DpCall.Res Cmem}
    (as : List (PoolAct Tid DpJob DpEnv))
    (h : ∀ x ∈ (as.foldl (threadMachine bulkHash).act p).shared.log, x.Follows) :
    EntryKept i p.shared (as.foldl (threadMachine bulkHash).act p).shared := by
  induction as using List.reverseRecOn with
  | nil => exact .of_nps rfl rfl
  | append_singleton as a ih =>
    rw [List.foldl_append, List.foldl_cons, List.foldl_nil] at h ⊢
    have hlast := entryKept_act (i := i) h
    refine .trans (ih fun x hx => h x ?_) hlast
    obtain ⟨new, hlog, -⟩ := hlast
    exact hlog ▸ List.mem_append_right new hx

/-- What holds of the entries in a run that ends in `p` and is in `p₀` on the way. -/
structure EntriesSafe (p₀ p : Pool Tid (Chip Tid) DpCall DpCall.Res Cmem) : Prop where
  follows : ∀ x ∈ p.shared.log, x.Follows
  kept : ∀ i, EntryKept i p₀.shared p.shared

/-- In every run of any number of threads whose calls meet `TablesOk`, every change of an entry is
made of the entry that is there, a new entry takes the place of none, and from any point of the run
on an entry is deleted or stays that of its connection and, once bound, of its server. -/
theorem connEntries_run (bulkHash : ConnClassificationKey → UInt32) (nps : Nps) (mem : Tid → Cmem)
    (as as' : List (PoolAct Tid DpJob DpEnv))
    (has : Always (Machine.ActOk TablesOk) (threadMachine bulkHash).act (threadPool nps mem)
      (as ++ as')) :
    EntriesSafe (as.foldl (threadMachine bulkHash).act (threadPool nps mem))
      ((as ++ as').foldl (threadMachine bulkHash).act (threadPool nps mem)) := by
  have hinit : Machine.Inv (fun _ => Prog.prodSpec (tablesSpec bulkHash) copySpec)
      (fun _ _ g => g.1.Settled ∧ AnyCopy g.2)
      (fun s Γ => ∃ st, EntriesInv bulkHash s Γ st) (threadPool nps mem) :=
    ⟨fun _ => (none, none), ⟨_, tablesInv_init bulkHash nps,
      fun _ _ _ _ h => absurd h.symm (Option.some_ne_none _),
      fun _ hx => absurd hx List.not_mem_nil⟩, fun _ => ⟨KeySection.settled_none, trivial⟩⟩
  obtain ⟨Γ, ⟨st, hinv⟩, -⟩ := Machine.inv_run
    (fun t j l g hg => Prog.wp_prod (wp_job.mpr (tables_sections.job j l g.1 hg.1))
      (wp_job.mpr (copy_sections.job j l g.2 hg.2))) entriesInv_step hinit has
  refine ⟨hinv.follows, fun i => ?_⟩
  rw [List.foldl_append] at hinv ⊢
  exact entryKept_run as' hinv.follows

end Runs

section Examples

theorem connEntries_run_reset : EntriesSafe
    ((scannedReset.take 20).foldl (threadMachine fun _ => 0).act
      (threadPool Sys.init.nps fun _ => .zero))
    ((scannedReset.take 20 ++ scannedReset.drop 20).foldl (threadMachine fun _ => 0).act
      (threadPool Sys.init.nps fun _ => .zero)) :=
  connEntries_run (fun _ => 0) Sys.init.nps (fun _ => .zero) (scannedReset.take 20)
    (scannedReset.drop 20) (by decide +kernel)

end Examples

end Alvs
