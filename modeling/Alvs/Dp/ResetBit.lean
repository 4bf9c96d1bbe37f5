import Alvs.Dp.Sections
import Alvs.Dp.Threads

/-!
# A reset connection stays marked

Any number of threads, with atomic sections. `ResetMarked` : each entry whose reset bit is
set has its delete bit set. `DpStep.KeepsMark` : a call that modifies such an entry leaves
both bits set. They hold in every run in which no re-lookup of `alvs_conn_refresh` finds
the reset bit set (`resetMarked_run`); `alvs_conn_refresh` clears the delete bit without
looking at it (`resetMarked_fails`).

A thread's program is proved against `resetSpec`, whose ghost state is what the thread
knows of the section it is in.
-/

set_option linter.unusedSectionVars false

namespace Alvs

open ProgLogic LProg

/-! ## Marked entries -/

/-- The reset bit is set only with the delete bit. -/
def ConnInfoResult.MarkOk (c : ConnInfoResult) : Prop := c.resetBit = true → c.deleteBit = true

instance (c : ConnInfoResult) : Decidable c.MarkOk := inferInstanceAs (Decidable (_ → _))

/-- Each entry whose reset bit is set has its delete bit set. -/
def ResetMarked (nps : Nps) : Prop := ∀ i c, nps.connInfo i = some c → c.MarkOk

/-- A call that modifies an entry whose reset bit is set leaves it marked. -/
def DpStep.KeepsMark {Tid : Type} : DpStep Tid → Prop
  | ⟨_, before, .connInfoModify i c, _⟩ =>
    ∀ c₀ ∈ before.connInfo i, c₀.resetBit = true → c.resetBit = true ∧ c.deleteBit = true
  | _ => True

/-- The condition on a call : a re-lookup of `alvs_conn_refresh` does not find the reset bit
set. -/
def RefreshOk {Tid : Type} (_ : DpEnv) (_ : Tid) : DpCall → SectionChip Tid → Prop
  | .connInfoLookup .refresh i, s => ∀ c ∈ s.nps.connInfo i, c.resetBit = false
  | _, _ => True

instance {Tid : Type} (e : DpEnv) (t : Tid) (op : DpCall) (s : SectionChip Tid) :
    Decidable (RefreshOk e t op s) := by
  unfold RefreshOk
  split <;> infer_instance

/-! ## The specification of the calls -/

/-- A thread is outside sections, or inside one with the entry it has read there. -/
inductive SectionView
  | outside
  | inside (entry : Option (UInt32 × ConnInfoResult))

/-- What a thread knows after it has read an entry. -/
def SectionView.afterLookup (g : SectionView) (i : UInt32) (r : Option ConnInfoResult) :
    ConnSite → SectionView
  | .dataPath | .scan => g
  | .bind => if r.any (·.bound) then .outside else .inside (r.map (i, ·))
  | _ => .inside (r.map (i, ·))

def resetSpec : Spec DpCall DpCall.Res SectionView where
  pre g op :=
    match op with
    | .connInfoLookup .dataPath _ | .connInfoLookup .scan _ => True
    | .connInfoLookup _ _ | .connInfoDelete _ _ => g ≠ .outside
    | .connInfoAdd _ c => g ≠ .outside ∧ c.MarkOk
    | .connInfoModify i c =>
      ∃ c₀, g = .inside (some (i, c₀)) ∧ (c₀.resetBit = true → c.resetBit = true) ∧ c.MarkOk
    | _ => True
  post g op r g' :=
    match op, r with
    | .lockConnection _, _ => g' = .inside none
    | .unlockConnection _, _ => g' = .outside
    | .connInfoLookup site i, r => g' = g.afterLookup i r site ∧
      ∀ c ∈ r, c.MarkOk ∧ (site = .refresh → c.resetBit = false)
    | .connInfoAdd _ _, _ | .connInfoModify _ _, _ | .connInfoDelete _ _, _ => g' = .inside none
    | _, _ => g' = g

/-! ## The specification is sound -/

section Sound

variable {Tid : Type}

/-- What a thread knows is so. -/
def SectionView.Holds (s : SectionChip Tid) (t : Tid) : SectionView → Prop
  | .outside => True
  | .inside entry => s.inSection = some t ∧ ∀ x ∈ entry, s.nps.connInfo x.1 = some x.2

theorem SectionView.Holds.of_eq {s s' : SectionChip Tid} {t : Tid} {g : SectionView}
    (h : g.Holds s t) (hsec : s'.inSection = s.inSection)
    (hinfo : s'.nps.connInfo = s.nps.connInfo) :
    g.Holds s' t := by
  cases g with
  | outside => trivial
  | inside entry => exact ⟨hsec ▸ h.1, hinfo ▸ h.2⟩

theorem SectionView.Holds.inSection {s : SectionChip Tid} {t : Tid} {g : SectionView}
    (h : g.Holds s t) (hg : g ≠ .outside) : s.inSection = some t := by
  cases g with
  | outside => exact absurd rfl hg
  | inside entry => exact h.1

structure ResetInv (s : SectionChip Tid) (Γ : Tid → SectionView) : Prop where
  marked : ResetMarked s.nps
  kept : ∀ x ∈ s.log, x.KeepsMark
  view : ∀ t, (Γ t).Holds s t

/-- A call that writes no entry. -/
def DpCall.ReadsInfo : DpCall → Prop
  | connInfoAdd _ _ | connInfoModify _ _ | connInfoDelete _ _ => False
  | _ => True

theorem dpHandle_connInfo (e : DpEnv) (op : DpCall) (s : Nps) (hop : op.ReadsInfo) :
    (dpHandle e op s).2.connInfo = s.connInfo := by
  cases op with
  | connInfoAdd | connInfoModify | connInfoDelete => exact hop.elim
  | connClassAdd | connClassDelete | allocIndex =>
    simp only [dpHandle]
    split <;> rfl
  | _ => rfl

/-- While a thread makes a call, the others are outside sections. -/
theorem ResetInv.others {s : SectionChip Tid} {Γ : Tid → SectionView} (h : ResetInv s Γ) {t : Tid}
    (hs : s.inSection = none ∨ s.inSection = some t) {t' : Tid} (ht : t' ≠ t) :
    Γ t' = .outside := by
  cases hΓ : Γ t' with
  | outside => rfl
  | inside entry =>
    have hv := h.view t'
    rw [hΓ] at hv
    rcases hs with hs | hs <;> rw [hv.1] at hs
    · nomatch hs
    · exact absurd (Option.some.inj hs) ht

variable [DecidableEq Tid] {bulkHash : ConnClassificationKey → UInt32}

/-- A call keeps the invariant if it keeps the marks, and what its thread knows after it is
so. -/
theorem ResetInv.update {s s' : SectionChip Tid} {Γ : Tid → SectionView} (h : ResetInv s Γ)
    {t : Tid} (hs : s.inSection = none ∨ s.inSection = some t) {g : SectionView}
    (hmarked : ResetMarked s'.nps) (hkept : ∀ x ∈ s'.log, x.KeepsMark) (hg : g.Holds s' t) :
    ResetInv s' (Function.update Γ t g) := by
  refine ⟨hmarked, hkept, fun t' => ?_⟩
  by_cases ht : t' = t
  · subst ht
    simpa using hg
  · rw [Function.update_of_ne ht, h.others hs ht]
    trivial

theorem sectionHandle_offLock {e : DpEnv} {t : Tid} {op : DpCall} {s s' : SectionChip Tid}
    {r : op.Res} (h : sectionHandle bulkHash e t op s = some (r, s')) (hop : op.OffLock) :
    r = (dpHandle e op s.nps).1 ∧ s' = ⟨(s.call e t op).2, sectionAfter t s.inSection op r⟩ := by
  unfold sectionHandle at h
  split at h
  · rw [threadHandle_offLock e t hop] at h
    obtain ⟨rfl, rfl⟩ := Prod.mk.inj (Option.some.inj h)
    exact ⟨rfl, rfl⟩
  · nomatch h

theorem sectionHandle_enabled {e : DpEnv} {t : Tid} {op : DpCall} {s s' : SectionChip Tid}
    {r : op.Res} (h : sectionHandle bulkHash e t op s = some (r, s')) :
    s.inSection = none ∨ s.inSection = some t := by
  unfold sectionHandle at h
  split at h
  · assumption
  · nomatch h

theorem ResetMarked.update {nps : Nps} (h : ResetMarked nps) {i : UInt32}
    {c : Option ConnInfoResult}
    (hc : ∀ x ∈ c, x.MarkOk) {nps' : Nps}
    (hnps : nps'.connInfo = Function.update nps.connInfo i c) : ResetMarked nps' := by
  intro j x hx
  rw [hnps] at hx
  by_cases hj : j = i
  · subst hj
    rw [Function.update_self] at hx
    exact hc x hx
  · rw [Function.update_of_ne hj] at hx
    exact h j x hx

theorem ResetMarked.of_eq {nps nps' : Nps} (h : ResetMarked nps)
    (hnps : nps'.connInfo = nps.connInfo) : ResetMarked nps' := fun i c hc =>
  h i c (hnps ▸ hc)

/-- What a thread knows after it has read an entry is so. -/
theorem holds_afterLookup {s : SectionChip Tid} {t : Tid} {g : SectionView} (h : g.Holds s t)
    {site : ConnSite} {i : UInt32} (hpre : resetSpec.pre g (.connInfoLookup site i)) :
    (g.afterLookup i (s.nps.connInfo i) site).Holds
      ⟨s.toChip, sectionAfter t s.inSection (.connInfoLookup site i) (s.nps.connInfo i)⟩ t := by
  have hread : ∀ x ∈ (s.nps.connInfo i).map (i, ·), s.nps.connInfo x.1 = some x.2 := by
    intro x hx
    obtain ⟨c, hc, rfl⟩ := Option.mem_map.mp hx
    exact hc
  cases site with
  | dataPath | scan => exact h.of_eq rfl rfl
  | bind =>
    have hsec := h.inSection hpre
    cases hc : s.nps.connInfo i with
    | none => exact ⟨hsec, nofun⟩
    | some c =>
      cases hb : c.bound with
      | true => simp [SectionView.afterLookup, hb, SectionView.Holds]
      | false =>
        rw [hc] at hread
        simpa [SectionView.afterLookup, hb, SectionView.Holds, sectionAfter, endsSection, hsec]
          using hread
  | _ => exact ⟨h.inSection hpre, hread⟩

theorem resetInv_step (e : DpEnv) (t : Tid) (op : DpCall) (s : SectionChip Tid)
    (Γ : Tid → SectionView) (r : op.Res) (s' : SectionChip Tid) (h : ResetInv s Γ)
    (hpre : resetSpec.pre (Γ t) op) (hok : RefreshOk e t op s)
    (hs : sectionHandle bulkHash e t op s = some (r, s')) :
    ∃ g', resetSpec.post (Γ t) op r g' ∧ ResetInv s' (Function.update Γ t g') := by
  have hen := sectionHandle_enabled hs
  have hview := h.view t
  cases op with
  | lockConnection key =>
    rw [sectionHandle, if_pos hen] at hs
    simp only [threadHandle] at hs
    split at hs
    · obtain ⟨rfl, rfl⟩ := Prod.mk.inj (Option.some.inj hs)
      exact ⟨_, rfl, h.update hen h.marked h.kept ⟨rfl, nofun⟩⟩
    · nomatch hs
  | unlockConnection hv =>
    rw [sectionHandle, if_pos hen] at hs
    obtain ⟨rfl, rfl⟩ := Prod.mk.inj (Option.some.inj hs)
    exact ⟨_, rfl, h.update hen h.marked h.kept trivial⟩
  | connInfoLookup site i =>
    obtain ⟨rfl, rfl⟩ := sectionHandle_offLock hs trivial
    refine ⟨_, ⟨rfl, fun c hc => ⟨h.marked i c hc, ?_⟩⟩, h.update hen h.marked
      (List.forall_mem_cons.mpr ⟨trivial, h.kept⟩) ((holds_afterLookup hview hpre).of_eq rfl rfl)⟩
    rintro rfl
    exact hok c hc
  | connInfoAdd i c =>
    obtain ⟨rfl, rfl⟩ := sectionHandle_offLock hs trivial
    exact ⟨_, rfl, h.update hen (h.marked.update (by simpa using hpre.2) rfl)
      (List.forall_mem_cons.mpr ⟨trivial, h.kept⟩) ⟨hview.inSection hpre.1, nofun⟩⟩
  | connInfoModify i c =>
    obtain ⟨rfl, rfl⟩ := sectionHandle_offLock hs trivial
    obtain ⟨c₀, hg, hreset, hmark⟩ := hpre
    rw [hg] at hview
    have hc₀ : s.nps.connInfo i = some c₀ := hview.2 _ rfl
    refine ⟨_, rfl, h.update hen ?_ (List.forall_mem_cons.mpr ⟨?_, h.kept⟩) ⟨hview.1, nofun⟩⟩
    · refine @ResetMarked.update _ h.marked i (some c) (by simpa using hmark) _ ?_
      simp [Chip.call, dpHandle, hc₀]
    · intro x hx hreset'
      obtain rfl : c₀ = x := Option.some.inj (hc₀.symm.trans hx)
      exact ⟨hreset hreset', hmark (hreset hreset')⟩
  | connInfoDelete site i =>
    obtain ⟨rfl, rfl⟩ := sectionHandle_offLock hs trivial
    refine ⟨_, rfl, h.update hen ?_ (List.forall_mem_cons.mpr ⟨trivial, h.kept⟩)
      ⟨hview.inSection hpre, nofun⟩⟩
    by_cases hi : s.nps.connInfo i = none
    · exact h.marked.of_eq (by simp [Chip.call, dpHandle, hi])
    · exact @ResetMarked.update _ h.marked i none nofun _ (by simp [Chip.call, dpHandle, hi])
  | _ =>
    obtain ⟨rfl, rfl⟩ := sectionHandle_offLock hs trivial
    refine ⟨Γ t, rfl, h.update hen (h.marked.of_eq (dpHandle_connInfo e _ s.nps ?_))
      (List.forall_mem_cons.mpr ⟨trivial, h.kept⟩) (hview.of_eq rfl (dpHandle_connInfo e _ s.nps
        ?_))⟩
    all_goals exact trivial

end Sound

/-! ## Sections -/

/-- The thread is outside sections. -/
def Outside (g : SectionView) : Prop := g = .outside

/-- The thread is inside a section. -/
def Inside (g : SectionView) : Prop := g ≠ .outside

theorem inside_inside (e : Option (UInt32 × ConnInfoResult)) : Inside (.inside e) := by
  simp [Inside]

theorem silent_resetSpec : Silent resetSpec DpCall.OffConn := by
  intro g op hop
  cases op <;> first | exact hop.elim | exact ⟨trivial, fun _ _ h => h⟩

variable {α β : Type} {I : SectionView → Prop}

theorem OffConn.reset {x : Dp α} (h : OffConn x) : Triple resetSpec I x I :=
  .of_makes silent_resetSpec h

theorem QuietProg.reset {x : Dp α} (h : QuietProg x) : Triple resetSpec I x I := h.offConn.reset

theorem reset_lock {f : UInt32 → Dp β} {J : SectionView → Prop}
    (hf : ∀ h, Triple resetSpec (fun g => g = .inside none) (f h) J) :
    Triple resetSpec Outside (alvsLockConnection >>= f) J :=
  .bind (.get_bind fun _ => .of_call fun _ _ => ⟨trivial, fun _ _ h => h⟩) hf

theorem reset_unlock (h : UInt32) : Triple resetSpec I (alvsUnlockConnection h) Outside :=
  .of_call fun _ _ => ⟨trivial, fun _ _ h => h⟩

/-- The end of a section. -/
theorem reset_exit {h : UInt32} {Q : Unit → Cmem → SectionView → Prop} {l : Cmem} {g : SectionView}
    (hQ : Q () l .outside) : (alvsUnlockConnection h).wp resetSpec Q l g :=
  ⟨trivial, fun _ _ h => h ▸ hQ⟩

/-- A lookup outside sections. -/
theorem reset_lookup {site : ConnSite} (hsite : site = .dataPath ∨ site = .scan) (i : UInt32) :
    Triple resetSpec I (alvsConnInfoLookup site i) I := by
  refine .bind (J := I) (.of_call fun g hg => ?_) fun r => ?_
  · obtain rfl | rfl := hsite
    all_goals exact ⟨trivial, fun _ _ h => h.1 ▸ hg⟩
  · split
    · exact .of_pure _
    · exact .bind .of_modify fun _ => .of_pure _

/-- An entry that is found under the lock, in the memory and in what the thread knows. -/
structure Relooked (site : ConnSite) (i : UInt32) (c : ConnInfoResult) (l : Cmem)
    (g : SectionView) : Prop where
  mem : l.connInfoResult = c
  view : g = .inside (some (i, c))
  mark : c.MarkOk
  clear : site = .refresh → c.resetBit = false

/-- A lookup under the lock that does not end the section. -/
def ConnSite.Relookup : ConnSite → Prop
  | dataPath | scan | bind => False
  | _ => True

theorem ConnSite.Relookup.spec {site : ConnSite} (h : site.Relookup) (i : UInt32)
    (g : SectionView) :
    (resetSpec.pre g (.connInfoLookup site i) ↔ Inside g) ∧
      ∀ r, g.afterLookup i r site = .inside (r.map (i, ·)) := by
  cases site <;> first | exact h.elim | exact ⟨Iff.rfl, fun _ => rfl⟩

/-- A section that reads an entry again and, if it finds one, goes on with `f`. -/
theorem reset_section {site : ConnSite} (hsite : site.Relookup) {i : UInt32}
    {f : UInt32 → Dp Bool} (hf : ∀ h c l g, Relooked site i c l g →
      (f h).wp resetSpec (fun _ _ g => Outside g) l g) :
    Triple resetSpec Outside (alvsLockConnection >>= fun h => alvsConnInfoLookup site i >>=
      fun found => if found = true then f h
        else alvsUnlockConnection h >>= fun _ => pure false) Outside := by
  refine reset_lock fun h l g hg => ?_
  subst hg
  simp only [alvsConnInfoLookup, wp_bind, wp_call]
  refine ⟨(hsite.spec i _).1.mpr (inside_inside _), ?_⟩
  rintro (_ | c) g' ⟨rfl, hc⟩
  · simp only [wp_pure, Bool.false_eq_true, if_false, wp_bind]
    exact reset_exit rfl
  · simp only [wp_bind, wp_modify, wp_pure, if_true]
    exact hf h c _ _ ⟨rfl, (hsite.spec i _).2 _, (hc c rfl).1, (hc c rfl).2⟩

/-- The entry that was read is written with its mark kept. -/
theorem reset_modify {i : UInt32} {c₀ c : ConnInfoResult} {l : Cmem} {g : SectionView}
    {Q : Bool → Cmem → SectionView → Prop} (hg : g = .inside (some (i, c₀)))
    (hreset : c₀.resetBit = true → c.resetBit = true) (hmark : c.MarkOk)
    (hQ : ∀ rc l' g', Q rc l' g') : (alvsConnInfoModify i c).wp resetSpec Q l g := by
  simp only [alvsConnInfoModify, wp_bind, wp_modify, wp_call]
  exact ⟨⟨c₀, hg, hreset, hmark⟩, fun rc g' _ => hQ rc _ g'⟩

theorem reset_connUpdateState (i : UInt32) (st : UInt8) :
    Triple resetSpec Outside (alvsConnUpdateState i st) Outside := by
  refine reset_section (by trivial) fun h c l g hr => ?_
  simp only [wp_bind, wp_get, hr.mem]
  split
  next => exact (wp_bind _ _ _).mpr (reset_exit rfl)
  next hdel =>
    have hclear : c.resetBit = false := by
      by_contra hset
      exact hdel (.inr (hr.mark (by simpa using hset)))
    simp only [wp_bind]
    refine wp_mono ((offConn_updateConnectionStatistics _ _ _).wp silent_resetSpec l g) ?_
    rintro - l' g' ⟨-, rfl⟩
    refine reset_modify hr.view (by simp [hclear]) (by simp [ConnInfoResult.MarkOk,
      ConnInfoResult.updated, hclear]) fun rc l'' g'' => ?_
    exact (wp_modify _ _).mpr (reset_exit rfl)

theorem reset_connMarkToDelete (i : UInt32) (reset : Bool) :
    Triple resetSpec Outside (alvsConnMarkToDelete i reset) Outside := by
  refine reset_section (by trivial) fun h c l g hr => ?_
  simp only [wp_bind, wp_get, hr.mem]
  split
  next => exact (wp_bind _ _ _).mpr (reset_exit rfl)
  next hdel =>
    have hclear : c.resetBit = false := by
      by_contra hset
      exact hdel (hr.mark (by simpa using hset))
    simp only [wp_bind]
    refine wp_mono (Makes.wp silent_resetSpec
      (.ite (offConn_updateConnectionStatistics 0 (-1) 1) (.of_pure _)) l g) ?_
    rintro - l' g' ⟨-, rfl⟩
    exact reset_modify hr.view (by simp [hclear]) (by simp [ConnInfoResult.MarkOk,
      ConnInfoResult.marked]) fun rc l'' g'' => reset_exit rfl

theorem reset_connRefresh (i : UInt32) :
    Triple resetSpec Outside (alvsConnRefresh i) Outside := by
  refine reset_section (by trivial) fun h c l g hr => ?_
  simp only [wp_bind, wp_get, hr.mem]
  have hclear := hr.clear rfl
  exact reset_modify hr.view (by simp) (by simp [ConnInfoResult.MarkOk, hclear])
    fun rc l' g' => reset_exit rfl

theorem reset_connAgeOut (i : UInt32) (iter : UInt8) :
    Triple resetSpec Outside (alvsConnAgeOut i iter) Outside := by
  refine reset_section (by trivial) fun h c l g hr => ?_
  simp only [wp_bind, wp_get, hr.mem]
  exact reset_modify hr.view id hr.mark fun rc l' g' => reset_exit rfl

theorem reset_connBind (i server : UInt32) :
    Triple resetSpec Outside (alvsConnBind i server) Outside := by
  refine reset_lock fun h l g hg => ?_
  subst hg
  simp only [alvsConnInfoLookup, wp_bind, wp_call]
  refine ⟨inside_inside _, ?_⟩
  rintro (_ | c) g' ⟨rfl, hc⟩
  · simp only [wp_pure, Bool.false_eq_true, if_false, wp_bind]
    exact reset_exit rfl
  · simp only [wp_bind, wp_modify, wp_pure, if_true, wp_get]
    cases hb : c.bound with
    | true => simp [SectionView.afterLookup, hb, Outside]
    | false =>
      simp only [Bool.false_eq_true, if_false, wp_bind]
      have hview : SectionView.afterLookup (.inside none) i (some c) .bind =
        .inside (some (i, c)) := by
        simp [SectionView.afterLookup, hb]
      exact reset_modify hview id (hc c rfl).1 fun rc l' g' => reset_exit rfl

/-! ## Creation and deletion -/

/-- A call that leaves what a thread knows. -/
theorem reset_call {op : DpCall} (hpre : ∀ g, resetSpec.pre g op)
    (hpost : ∀ g r g', resetSpec.post g op r g' → g' = g) : Triple resetSpec I (dpCall op) I :=
  .of_call fun g hg => ⟨hpre g, fun r g' h => hpost g r g' h ▸ hg⟩

theorem reset_connDeleteWithoutLock (site : DeleteSite) (i : UInt32) :
    Triple resetSpec Inside (alvsConnDeleteWithoutLock site i) Inside := by
  refine .get_bind fun m => .bind (reset_call (fun _ => trivial) fun _ _ _ h => h) fun _ =>
    .ite (.bind (.of_call fun g hg => ⟨hg, ?_⟩) fun _ => .ite ?_ (.of_pure _)) (.of_pure _)
  · rintro - g' rfl
    exact nofun
  · exact .bind (offConn_connReleaseServer _).reset fun _ =>
      reset_call (fun _ => trivial) fun _ _ _ h => h

theorem reset_connCreateNewEntry (bound : Bool) (server : UInt32) (port st : UInt16)
    (flags : UInt32) (reset : Bool) :
    Triple resetSpec Inside (alvsConnCreateNewEntry bound server port st flags reset) Inside := by
  have hadd (i : UInt32) {c : ConnInfoResult} (hc : c.MarkOk) :
      Triple resetSpec Inside (dpCall (.connInfoAdd i c)) Inside :=
    .of_call fun g hg => ⟨⟨hg, hc⟩, fun _ _ h => h ▸ nofun⟩
  have hdelete (i : UInt32) : Triple resetSpec Inside (dpCall (.connInfoDelete .create i)) Inside :=
    .of_call fun g hg => ⟨hg, fun _ _ h => h ▸ nofun⟩
  refine .bind (reset_call (fun _ => trivial) fun _ _ _ h => h) fun r => ?_
  split
  · exact .bind (offConn_overloadOnDeleteConn _).reset fun _ =>
      .bind (quiet_alvsDiscardAndStats _).reset fun _ => .of_pure _
  · refine .get_bind fun m => .bind .of_modify fun _ => .bind (hadd _ id) fun _ =>
      .bind .of_modify fun _ => .bind (reset_call (fun _ => trivial) fun _ _ _ h => h) fun _ =>
      .ite ?_ ?_
    · refine .bind (OffConn.reset (.ite (.ite ?_ ?_) (.of_pure _))) fun _ => .of_pure _
      all_goals exact offConn_updateConnectionStatistics _ _ _
    · exact .bind (hdelete _) fun _ => .bind (offConn_overloadOnDeleteConn _).reset fun _ =>
        .bind (reset_call (fun _ => trivial) fun _ _ _ h => h) fun _ =>
        .bind (quiet_alvsDiscardAndStats _).reset fun _ => .of_pure _

theorem reset_connDelete (iter : UInt8) (i : UInt32) :
    Triple resetSpec Outside (alvsConnDelete iter i) Outside := by
  refine reset_lock fun h l g hg => ?_
  exact (Triple.bind (reset_connDeleteWithoutLock _ i) fun _ => reset_unlock h) l g (hg ▸ nofun)

theorem reset_tcpScheduleNewConnection (i : UInt8) (ip : IpHdr) (tcp : TcpHdr) :
    Triple resetSpec Outside (alvsTcpScheduleNewConnection i ip tcp) Outside := by
  have hlocked : Triple resetSpec Inside (alvsTcpScheduleLocked i ip tcp) Inside := by
    refine .get_bind fun _ => .bind (reset_call (fun _ => trivial) fun _ _ _ h => h) fun r => ?_
    split
    · exact .bind .of_modify fun _ => .of_pure _
    · exact .bind (quiet_alvsDiscardAndStats _).reset fun _ => .of_pure _
    · refine .bind (offConn_scheduleConnection _ _ _).reset fun _ => .ite ?_ (.of_pure _)
      exact .get_bind fun _ => .bind (reset_connCreateNewEntry _ _ _ _ _ _) fun _ =>
        .bind .of_modify fun _ => .of_pure _
  refine .bind quiet_alvsSchedCheckActiveServers.reset fun _ => .ite ?_ (.of_pure _)
  refine reset_lock fun h l g hg => ?_
  exact (Triple.bind hlocked fun _ => .bind (reset_unlock h) fun _ => .of_pure _) l g (hg ▸ nofun)

/-! ## Sync messages -/

theorem reset_stateSyncCreateConn (conn : StateSyncConn) (h : UInt32) :
    Triple resetSpec Inside (alvsStateSyncCreateConn conn h) Outside := by
  have hexit (a : Int) : Triple resetSpec Inside
      (alvsUnlockConnection h >>= fun _ => pure a) Outside :=
    .bind (reset_unlock h) fun _ => .of_pure _
  refine .bind (OffConn.reset (.of_call trivial)) fun r => ?_
  split
  · exact .bind (offConn_serverInfoLookup _).reset fun _ =>
      .ite (.bind (reset_connCreateNewEntry _ _ _ _ _ _) fun _ => hexit _) (hexit _)
  · exact .bind (reset_connCreateNewEntry _ _ _ _ _ _) fun _ => hexit _

/-- Binding does not touch the bits. -/
theorem reset_stateSyncBindConn (conn : StateSyncConn) (c : ConnInfoResult) (l : Cmem)
    (g : SectionView) : (alvsStateSyncBindConn conn c).wp resetSpec (fun c' _ g' =>
      (c'.resetBit = c.resetBit ∧ c'.deleteBit = c.deleteBit) ∧ g' = g) l g := by
  unfold alvsStateSyncBindConn
  split
  · exact ⟨⟨rfl, rfl⟩, rfl⟩
  · simp only [wp_bind, alvsFindServerIndex, wp_call]
    refine ⟨trivial, ?_⟩
    rintro (_ | r) g' rfl
    all_goals exact ⟨⟨rfl, rfl⟩, rfl⟩

theorem reset_stateSyncUpdateConn (conn : StateSyncConn) {site : ConnSite} (i h : UInt32)
    {c : ConnInfoResult} {l : Cmem} {g : SectionView} (hr : Relooked site i c l g) :
    (alvsStateSyncUpdateConn conn i h).wp resetSpec (fun _ _ g => Outside g) l g := by
  simp only [alvsStateSyncUpdateConn, wp_bind, wp_get, hr.mem]
  refine wp_mono ((offConn_stateSyncUpdateStatistics conn c).wp silent_resetSpec l g) ?_
  rintro - l' g' ⟨-, rfl⟩
  refine wp_mono (reset_stateSyncBindConn conn c l' g') ?_
  rintro c' l'' g'' ⟨⟨hreset, hdel⟩, rfl⟩
  have hmark : (c'.synced conn).MarkOk := by
    simpa [ConnInfoResult.MarkOk, ConnInfoResult.synced, hreset, hdel] using hr.mark
  exact reset_modify hr.view (fun hc => hreset.trans hc) hmark fun _ _ _ => reset_exit rfl

theorem reset_stateSyncExistingConn (conn : StateSyncConn) (i h : UInt32) :
    Triple resetSpec Inside (alvsStateSyncExistingConn conn i h) Outside := by
  intro l g hg
  simp only [alvsStateSyncExistingConn, alvsConnInfoLookup, wp_bind, wp_call]
  refine ⟨hg, ?_⟩
  rintro (_ | c) g' ⟨rfl, hc⟩
  · simp only [wp_pure, Bool.false_eq_true, if_false, wp_bind]
    exact reset_exit rfl
  · simp only [wp_bind, wp_modify, wp_pure, if_true, wp_get]
    refine wp_mono (Makes.wp silent_resetSpec
      (.ite (offConn_serverInfoLookup c.serverIndex) (.of_pure true)) _ _) ?_
    rintro found l' g' ⟨hsame, rfl⟩
    have hview : (g.afterLookup i (some c) (.syncConn conn)) = .inside (some (i, c)) := rfl
    have hr : Relooked (.syncConn conn) i c l' (.inside (some (i, c))) :=
      ⟨hsame.conn, rfl, (hc c rfl).1, by simp⟩
    rw [hview]
    refine (wp_ite _ _ _ _).mpr ⟨fun _ => ?_, fun _ => (wp_bind _ _ _).mpr (reset_exit rfl)⟩
    simp only [wp_bind, wp_get]
    refine (wp_ite _ _ _ _).mpr ⟨fun _ => (wp_ite _ _ _ _).mpr ⟨fun _ => ?_, fun _ =>
      (wp_bind _ _ _).mpr (reset_exit rfl)⟩, fun _ => ?_⟩
    · exact (Triple.bind (reset_connDeleteWithoutLock _ i) fun _ =>
        reset_stateSyncCreateConn conn h) _ _ (inside_inside _)
    · exact reset_stateSyncUpdateConn conn i h hr

theorem reset_stateSyncProcessConn (conn : StateSyncConn) :
    Triple resetSpec Outside (alvsStateSyncProcessConn conn) Outside := by
  refine .ite (.of_pure _) (.ite (.of_pure _) (.ite (.of_pure _) (.bind .of_modify fun _ => ?_)))
  have hlook : Triple resetSpec Inside (dpCall (.connClassLookup .syncConn conn.classKey)) Inside :=
    reset_call (fun _ => trivial) fun _ _ _ h => h
  refine reset_lock fun h l g hg => Triple.bind hlook (fun r => ?_) l g
    (show Inside g from hg ▸ nofun)
  split
  · exact reset_stateSyncExistingConn conn _ h
  · exact reset_stateSyncCreateConn conn h

/-! ## Runs -/

theorem reset_agingScanEntry (iter : UInt8) (ip : UInt32) (id : UInt8) (i : UInt32) :
    Triple resetSpec Outside (alvsAgingScanEntry iter ip id i) Outside := by
  have hdelete : Triple resetSpec Outside (alvsAgingDelete iter i) Outside :=
    .bind .of_modify fun _ => reset_connDelete iter i
  refine .bind (reset_lookup (.inr rfl) i) fun _ => .ite (.get_bind fun _ => .ite hdelete
    (.ite ?_ (.ite hdelete (.of_pure _)))) (.of_pure _)
  exact .bind .of_modify fun _ => .bind (reset_connAgeOut i iter) fun _ => .ite
    (.get_bind fun _ => .ite (offConn_stateSyncAggr _ _).reset (.of_pure _)) (.of_pure _)

theorem reset_sections : Sectionwise resetSpec Outside where
  silent := silent_resetSpec
  classLookup _ := reset_call (fun _ => trivial) fun _ _ _ h => h
  dataPathLookup := reset_lookup (.inl rfl)
  updateState := reset_connUpdateState
  markToDelete := reset_connMarkToDelete
  refresh := reset_connRefresh
  bind := reset_connBind
  schedule := reset_tcpScheduleNewConnection
  syncConn := reset_stateSyncProcessConn
  scanEntry := reset_agingScanEntry

/-- The scan of entry `i`, of any iteration, goes on to delete an entry `c` that it finds. -/
def ScanDeletes (i : UInt32) (c : ConnInfoResult) : Prop :=
  ∀ (iter : UInt8) (ip : UInt32) (id : UInt8) (l : Cmem),
    ∃ k, (alvsAgingScanEntry iter ip id i).run l = .call (.connInfoLookup .scan i) k ∧
      k (some c) = (alvsAgingDelete iter i).run { l with connInfoResult := c }

theorem scanDeletes_of_deleteBit (i : UInt32) {c : ConnInfoResult} (hc : c.deleteBit = true) :
    ScanDeletes i c := by
  intro iter ip id l
  refine ⟨_, rfl, ?_⟩
  show StateT.run (if c.deleteBit = true then alvsAgingDelete iter i else _) _ = _
  rw [if_pos hc]

section Run

variable {Tid : Type} [DecidableEq Tid]

/-- Resets stay recorded : each entry with the reset bit set has the delete bit set, the
next scan of such an entry deletes it, and no call has taken its mark off. -/
structure StaysMarked (s : SectionChip Tid) : Prop where
  marked : ResetMarked s.nps
  deletes : ∀ i c, s.nps.connInfo i = some c → c.resetBit = true → ScanDeletes i c
  kept : ∀ x ∈ s.log, x.KeepsMark

/-- Resets stay recorded in every run with atomic sections in which no re-lookup of
`alvs_conn_refresh` finds the reset bit set. -/
theorem resetMarked_run (bulkHash : ConnClassificationKey → UInt32) (nps : Nps) (mem : Tid → Cmem)
    (as : List (PoolAct Tid DpJob DpEnv))
    (has : Always (Machine.ActOk RefreshOk) (sectionMachine bulkHash).act
      (sectionPool nps mem) as) :
    StaysMarked (as.foldl (sectionMachine bulkHash).act (sectionPool nps mem)).shared := by
  have hinit : Machine.Inv (fun _ => resetSpec) (fun _ _ g => Outside g) ResetInv
      (sectionPool nps mem) :=
    ⟨fun _ => .outside, ⟨nofun, fun _ hx => (List.not_mem_nil hx).elim, fun _ => trivial⟩,
      fun _ => rfl⟩
  obtain ⟨Γ, hinv, -⟩ := Machine.inv_run
    (fun t j l g hg => wp_job.mpr (reset_sections.job j l g hg)) resetInv_step hinit has
  exact ⟨hinv.marked, fun i c hc hreset => scanDeletes_of_deleteBit i (hinv.marked i c hc hreset),
    hinv.kept⟩

end Run

section Examples

/-- A packet refreshes the connection, then a packet with RST is received. -/
def resetAfterRefresh : List (PoolAct (Fin 3) DpJob DpEnv) :=
  agedConnection ++ .start (tid 2) (examplePacket false false) :: exampleCalls (tid 2) 12 ++
    .start (tid 0) (examplePacket false true) :: exampleCalls (tid 0) 12

theorem resetMarked_run_rst : StaysMarked
    (resetAfterRefresh.foldl (sectionMachine fun _ => 0).act
      (sectionPool Sys.init.nps fun _ => .zero)).shared :=
  resetMarked_run (fun _ => 0) Sys.init.nps (fun _ => .zero) resetAfterRefresh (by decide +kernel)

/-- The packet with RST is received after the lookup of the other packet and before its
refresh. -/
def resetBeforeRefresh : List (PoolAct (Fin 3) DpJob DpEnv) :=
  agedConnection ++ .start (tid 2) (examplePacket false false) :: exampleCalls (tid 2) 3 ++
    .start (tid 0) (examplePacket false true) :: exampleCalls (tid 0) 12 ++ exampleCalls (tid 2) 3

theorem not_resetMarked {nps : Nps} (i : UInt32)
    (h : (nps.connInfo i).any (fun c => c.resetBit && !c.deleteBit) = true) :
      ¬ ResetMarked nps := by
  obtain ⟨c, hc, hbits⟩ := (Option.any_eq_true _ _).mp h
  rw [Bool.and_eq_true] at hbits
  intro hm
  simp [hm i c hc hbits.1] at hbits

/-- The refresh clears the delete bit of the entry, and its reset bit is still set. -/
theorem resetMarked_fails : ¬ ResetMarked
    (resetBeforeRefresh.foldl (sectionMachine fun _ => 0).act
      (sectionPool Sys.init.nps fun _ => .zero)).shared.nps :=
  not_resetMarked 0 (by decide +kernel)

end Examples

end Alvs
