import Alvs.Dp.FrameDisposal
import Alvs.Dp.Overload
import Alvs.Dp.WeightedRounds

/-!
# Round robin under concurrent changes

The round robin scheduler reads the service again wherever the entry that its counter selects
is empty, so that the number of entries it reduces the counter by can change from one attempt
to the next. Here the results of the lookups are arbitrary, but for the number of entries of a
service, which is at most 256 wherever it is read.

`rrSchedule_safe` : every attempt is within the bucket of the service and gives `ezdp_mod`
divisors it can divide by, and every path has the counters and the frame right.
-/

namespace Alvs

open ProgLogic LProg

/-! ## Watching the attempts -/

/-- A service that is read has at most 256 entries. -/
def RotationOk : DpEvent → Prop
  | ⟨.serviceInfoLookup _, some r⟩ => r.schedEntriesCount.toNat ≤ 256
  | _ => True

/-- A creation that reads `flags` and counts its connection as number `total` is admitted. -/
def ServerInfoResult.AdmitsRead (info : ServerInfoResult) (flags : UInt32) (total : UInt64) :
    Prop :=
  info.uThresh = 0 ∨ info.admits (flags &&& ipVsDestFOverload ≠ 0) total = true

instance (info : ServerInfoResult) (flags : UInt32) (total : UInt64) :
    Decidable (info.AdmitsRead flags total) := inferInstanceAs (Decidable (_ ∨ _))

/-- What a path has read and done : the number of entries of the service as it was read last,
the lookups in the scheduling table, each with that number, the server and the flags read
last, the server that admitted a connection, and what was added to every counter. -/
structure RrWatch where
  entries : UInt16
  attempts : List (UInt16 × UInt16)
  server : Option (UInt32 × ServerInfoResult)
  flags : UInt32
  admitted : Option (UInt32 × ServerInfoResult)
  net : SumAddr → Int
  countsOk : Prop

namespace RrWatch

/-- A call other than those that the watch tells apart. -/
def keep (g : RrWatch) (ev : DpEvent) : RrWatch :=
  { g with
    net := fun a => g.net a + counterDelta a ev
    countsOk := g.countsOk ∧ RotationOk ev }

def next (g : RrWatch) (ev : DpEvent) : RrWatch :=
  match ev with
  | ⟨.serviceInfoLookup _, some r⟩ => { g.keep ev with entries := r.schedEntriesCount }
  | ⟨.schedInfoLookup key, _⟩ => { g.keep ev with attempts := g.attempts ++ [(g.entries, key)] }
  | ⟨.serverInfoLookup i, r⟩ => { g.keep ev with server := r.map fun info => (i, info) }
  | ⟨.atomicRead32 _, flags⟩ => { g.keep ev with flags := flags }
  | ⟨.readAndIncSingleCtr a, c⟩ =>
    { g.keep ev with
      admitted := g.server.filter fun p =>
        decide (a = p.2.connTotal ∧ p.2.AdmitsRead g.flags (c + 1)) }
  | _ => g.keep ev

/-- A thread that has read the service. -/
def init (entries : UInt16) : RrWatch := ⟨entries, [], none, 0, none, fun _ => 0, True⟩

/-- The divisors that the attempts give to `ezdp_mod` : three for each number of entries that
is not a power of 2. -/
def divisors (g : RrWatch) : List UInt16 :=
  g.attempts.flatMap fun p => if ezdpCountBits p.1 = 1 then [] else [p.1, p.1, p.1]

end RrWatch

/-- What a path makes of the scheduling, from a number of entries on. -/
def rrWatch (entries : UInt16) (tr : List DpEvent) : RrWatch :=
  tr.foldl RrWatch.next (.init entries)

theorem rrWatch_next_countsOk (g : RrWatch) (ev : DpEvent) :
    (g.next ev).countsOk ↔ g.countsOk ∧ RotationOk ev := by
  unfold RrWatch.next
  split <;> rfl

theorem rrWatch_next_net (g : RrWatch) (ev : DpEvent) (a : SumAddr) :
    (g.next ev).net a = g.net a + counterDelta a ev := by
  unfold RrWatch.next
  split <;> rfl

theorem rrWatch_foldl : ∀ (tr : List DpEvent) (g : RrWatch),
    ((tr.foldl RrWatch.next g).countsOk ↔ g.countsOk ∧ ∀ ev ∈ tr, RotationOk ev) ∧
      ∀ a, (tr.foldl RrWatch.next g).net a = g.net a + netChange a tr
  | [], g => by simp [netChange]
  | ev :: tr, g => by
    obtain ⟨hok, hnet⟩ := rrWatch_foldl tr (g.next ev)
    refine ⟨?_, fun a => ?_⟩
    · rw [List.foldl_cons, hok, rrWatch_next_countsOk, List.forall_mem_cons, and_assoc]
    · rw [List.foldl_cons, hnet, rrWatch_next_net, netChange, netChange, List.map_cons,
        List.sum_cons, add_assoc]

abbrev rrSpec : Spec DpCall DpCall.Res RrWatch := Prog.watchSpec RrWatch.next RrWatch.countsOk

/-- A call that the watch does not tell apart and that leaves the on-demand counters. -/
def DpCall.OffRr : DpCall → Prop
  | .serviceInfoLookup _ | .schedInfoLookup _ | .serverInfoLookup _ | .atomicRead32 _ => False
  | .readAndIncSingleCtr _ | .decSingleCtr _ | .readAndDecSingleCtr _ => False
  | _ => True

theorem silent_offRr : Silent rrSpec DpCall.OffRr := by
  intro g op hop
  refine ⟨trivial, ?_⟩
  rintro r g' ⟨rfl, -⟩
  have hkeep : g.next ⟨op, r⟩ = g.keep ⟨op, r⟩ := by
    cases op <;> first | exact hop.elim | rfl
  have hev : RotationOk ⟨op, r⟩ ∧ ∀ a, counterDelta a ⟨op, r⟩ = 0 := by
    cases op <;> first | exact hop.elim | exact ⟨trivial, fun _ => rfl⟩
  rw [hkeep]
  simp [RrWatch.keep, hev.1, hev.2]

/-- The attempts and the number of entries are the same. -/
structure RrWatch.SameAttempts (g g' : RrWatch) : Prop where
  entries : g'.entries = g.entries
  attempts : g'.attempts = g.attempts

/-! ## One attempt -/

section Attempt

variable {m : Cmem} {g : RrWatch}

/-- A creation counts one connection of the server that was read, or nothing. -/
def RrWatch.Counted (g g' : RrWatch) (j : UInt32) (info : ServerInfoResult) (admitted : Prop) :
    Prop :=
  (admitted → g'.admitted = some (j, info) ∧
    ∀ a, g'.net a = g.net a + if a = info.connTotal then 1 else 0) ∧
  (¬ admitted → ∀ a, g'.net a = g.net a)

theorem rr_overloadOnCreate (i : UInt16) {j : UInt32}
    (hserver : g.server = some (j, m.serverInfoResult)) :
    (alvsServerOverloadOnCreateConn i).wp rrSpec (fun flags m' g' => m' = m ∧
      g.SameAttempts g' ∧
      g.Counted g' j m.serverInfoResult (flags &&& ipVsDestFOverload = 0)) m g := by
  simp only [alvsServerOverloadOnCreateConn, wp_bind, wp_get, wp_call]
  refine ⟨trivial, ?_⟩
  rintro flags _ ⟨rfl, -⟩
  refine ⟨trivial, ?_⟩
  rintro total g₂ ⟨hg₂, -⟩
  have hsame : g.SameAttempts g₂ := by
    subst hg₂
    exact ⟨rfl, rfl⟩
  have hinc : ∀ a, g₂.net a = g.net a + if a = m.serverInfoResult.connTotal then 1 else 0 := by
    intro a
    rw [hg₂, rrWatch_next_net, rrWatch_next_net]
    by_cases ha : a = m.serverInfoResult.connTotal
    · subst ha
      simp [counterDelta, ServerInfoResult.connTotal]
    · have hne : ¬ m.serverInfoResult.connTotal = a := fun h => ha h.symm
      simp only [counterDelta, add_zero, if_neg ha]
      rw [ServerInfoResult.connTotal] at hne
      rw [if_neg hne, add_zero]
  have hadm (h : m.serverInfoResult.AdmitsRead flags (total + 1)) :
      g₂.admitted = some (j, m.serverInfoResult) := by
    rw [hg₂]
    simp [RrWatch.next, RrWatch.keep, hserver, Option.filter_some, ServerInfoResult.connTotal, h]
  -- a call on the flags keeps the watch, one that takes the connection back undoes the count
  have hflags {op : DpCall} {r : op.Res} {g₃ : RrWatch} (h : rrSpec.post g₂ op r g₃)
      (hop : op.OffRr) : g₃ = g₂ := (silent_offRr g₂ op hop).2 r g₃ h
  have hback (g₃ : RrWatch) (h : rrSpec.post g₂ (.decSingleCtr m.serverInfoResult.connTotal) ()
    g₃) :
      g.SameAttempts g₃ ∧ ∀ a, g₃.net a = g.net a := by
    obtain ⟨rfl, -⟩ := h
    refine ⟨⟨hsame.entries, hsame.attempts⟩, fun a => ?_⟩
    rw [rrWatch_next_net, hinc]
    by_cases ha : a = m.serverInfoResult.connTotal
    · simp [counterDelta, ha]
    · have hne : ¬ m.serverInfoResult.connTotal = a := fun h => ha h.symm
      simp [counterDelta, ha, hne]
  have haccept (h : m.serverInfoResult.AdmitsRead flags (total + 1)) {flags' : UInt32}
      (hf : flags' &&& ipVsDestFOverload = 0) :
      g.Counted g₂ j m.serverInfoResult (flags' &&& ipVsDestFOverload = 0) :=
    ⟨fun _ => ⟨hadm h, hinc⟩, fun hne => absurd hf hne⟩
  have hdec (w : UInt32) (hw : w &&& ipVsDestFOverload ≠ 0) :
      (dpCall (.decSingleCtr m.serverInfoResult.connTotal) >>= fun _ => pure w).wp rrSpec
        (fun flags m' g' => m' = m ∧ g.SameAttempts g' ∧
          g.Counted g' j m.serverInfoResult (flags &&& ipVsDestFOverload = 0)) m g₂ := by
    simp only [wp_bind, wp_call, wp_pure]
    refine ⟨trivial, fun _ g₃ h => ?_⟩
    obtain ⟨hsame₃, hnet⟩ := hback g₃ h
    exact ⟨trivial, hsame₃, fun h0 => absurd h0 hw, fun _ => hnet⟩
  refine (wp_ite _ _ _ _).mpr ⟨fun hu => ?_, fun hu => (wp_ite _ _ _ _).mpr ⟨fun heq =>
    (wp_ite _ _ _ _).mpr ⟨fun hf => hdec flags hf, fun hf => ?_⟩, fun hne =>
    (wp_ite _ _ _ _).mpr ⟨fun hgt => ?_, fun hle => (wp_ite _ _ _ _).mpr ⟨fun hl => ?_, fun hl =>
    (wp_ite _ _ _ _).mpr ⟨fun hf => hdec flags hf, fun hf => ?_⟩⟩⟩⟩⟩
  · exact ⟨rfl, hsame, haccept (.inl hu) (show (0 : UInt32) &&& _ = 0 by decide)⟩
  · simp only [wp_bind, wp_call, wp_pure]
    refine ⟨trivial, fun r g₃ h => ?_⟩
    obtain rfl := hflags h trivial
    refine ⟨trivial, hsame, haccept (.inr ?_) (by decide)⟩
    simpa [ServerInfoResult.admits, heq] using not_not.mp hf
  · simp only [wp_bind, wp_call]
    refine ⟨trivial, fun r g₃ h => ?_⟩
    obtain rfl := hflags h trivial
    exact hdec _ (by decide)
  · simp only [wp_bind, wp_call, wp_pure]
    refine ⟨trivial, fun r g₃ h => ?_⟩
    obtain rfl := hflags h trivial
    refine ⟨trivial, hsame, haccept (.inr ?_) (by decide)⟩
    simp only [ServerInfoResult.admits, if_neg hne, if_neg hle, if_pos hl]
  · refine ⟨rfl, hsame, haccept (.inr ?_) (not_not.mp hf)⟩
    simpa [ServerInfoResult.admits, hne, hle, hl] using not_not.mp hf

theorem rr_call {op : DpCall} {r : op.Res} {g' : RrWatch} (h : rrSpec.post g op r g')
    (hop : op.OffRr) : g' = g := (silent_offRr g op hop).2 r g' h

theorem rr_discardAndStats (e : AlvsErrorStats) :
    (alvsDiscardAndStats e).wp rrSpec (fun _ m' g' => m' = m ∧ g' = g) m g := by
  simp only [alvsDiscardAndStats, alvsUpdateDiscardStatistics, alvsDiscardFrame, wp_bind, wp_call]
  refine ⟨trivial, fun _ _ h₁ => ⟨trivial, fun _ _ h₂ => ?_⟩⟩
  obtain rfl := rr_call h₁ trivial
  exact ⟨trivial, rr_call h₂ trivial⟩

/-- What one attempt does : it looks up the given key, and its success is an admission. -/
structure Attempted (m : Cmem) (g : RrWatch) (key : UInt16) (r : AlvsSchedServerResult) (m' : Cmem)
    (g' : RrWatch) : Prop where
  service : m'.serviceInfoResult = m.serviceInfoResult
  entries : g'.entries = g.entries
  attempts : g'.attempts = g.attempts ++ [(g.entries, key)]
  counted : g.Counted g' m'.schedServerIndex m'.serverInfoResult (r = .success)

theorem rr_schedGetServerInfo (key : UInt16) :
    (alvsSchedGetServerInfo key).wp rrSpec (Attempted m g key) m g := by
  have hfail (e : AlvsErrorStats) {m₁ : Cmem} {g₁ : RrWatch}
      (h : Attempted m g key .failed m₁ g₁) :
      (alvsDiscardAndStats e >>= fun _ => pure AlvsSchedServerResult.failed).wp rrSpec
        (Attempted m g key) m₁ g₁ := by
    refine wp_bind_of (rr_discardAndStats e) ?_
    rintro _ _ _ ⟨rfl, rfl⟩
    exact h
  simp only [alvsSchedGetServerInfo, alvsServerSchedLookup, wp_bind]
  refine (wp_call _ _).mpr ⟨trivial, ?_⟩
  rintro r g₁ ⟨hg₁, -⟩
  have hkept {r : AlvsSchedServerResult} (hr : r ≠ .success) {m' : Cmem} {g' : RrWatch}
      (hm' : m'.serviceInfoResult = m.serviceInfoResult) (hsame : g₁.SameAttempts g')
      (hnet : ∀ a, g'.net a = g₁.net a) : Attempted m g key r m' g' := by
    subst hg₁
    refine ⟨hm', hsame.entries, hsame.attempts, fun h => absurd h hr, fun _ a => ?_⟩
    rw [hnet, rrWatch_next_net]
    exact add_zero _
  cases r with
  | notFound => exact hkept (r := .empty) (by simp) rfl ⟨rfl, rfl⟩ fun _ => rfl
  | error => exact hfail _ (hkept (r := .failed) (by simp) rfl ⟨rfl, rfl⟩ fun _ => rfl)
  | found j =>
    simp only [wp_bind, wp_modify, wp_pure, wp_get, alvsServerInfoLookup]
    refine (wp_call _ _).mpr ⟨trivial, ?_⟩
    rintro r g₂ ⟨hg₂, -⟩
    have hsame : g₁.SameAttempts g₂ := by
      subst hg₂
      exact ⟨rfl, rfl⟩
    have hnet : ∀ a, g₂.net a = g₁.net a := fun a => by
      rw [hg₂, rrWatch_next_net]
      exact add_zero _
    cases r with
    | none => exact hfail _ (hkept (r := .failed) (by simp) rfl hsame hnet)
    | some info =>
      simp only [wp_bind, wp_modify, wp_pure, if_true]
      have hserver : g₂.server = some (j, info) := by
        subst hg₂
        rfl
      refine wp_mono (rr_overloadOnCreate _ (by exact hserver)) ?_
      rintro flags m₃ g₃ ⟨rfl, hsame₃, hadm, href⟩
      have hsame' : g₁.SameAttempts g₃ :=
        ⟨hsame₃.entries.trans hsame.entries, hsame₃.attempts.trans hsame.attempts⟩
      refine (wp_ite _ _ _ _).mpr ⟨fun hf => ?_, fun hf => ?_⟩
      · exact hkept (r := .unavailable) (by simp) rfl hsame' fun a => (href hf a).trans (hnet a)
      · obtain ⟨hadmitted, hcount⟩ := hadm (not_not.mp hf)
        subst hg₁
        refine ⟨rfl, hsame'.entries, hsame'.attempts, fun _ => ⟨hadmitted, fun a => ?_⟩, fun h =>
          absurd rfl h⟩
        rw [hcount, hnet, rrWatch_next_net]
        exact congrArg (· + _) (add_zero _)

end Attempt

/-! ## The loop -/

/-- Every attempt reduces the counter by a number of entries from 1 to 256 and looks up an
entry of the service. -/
structure RrWatch.Safe (g : RrWatch) (serviceIndex : UInt8) (n : Nat) : Prop where
  le : g.attempts.length ≤ n
  counts : ∀ p ∈ g.attempts, 0 < p.1.toNat ∧ p.1.toNat ≤ 256
  keys : ∀ p ∈ g.attempts, serviceIndex.toNat * 256 ≤ p.2.toNat ∧
    p.2.toNat ≤ serviceIndex.toNat * 256 + 255

theorem toNat_schedulingIndex (serviceIndex : UInt8) {entry : UInt32} (he : entry.toNat < 256) :
    (schedulingIndex serviceIndex entry).toNat = serviceIndex.toNat * 256 + entry.toNat := by
  have hlt := serviceIndex.toNat_lt
  rw [schedulingIndex, UInt32.toNat_toUInt16, UInt32.toNat_add, UInt32.toNat_mul,
    UInt8.toNat_toUInt32, show alvsSizeOfSchedBucket.toUInt32.toNat = 256 from rfl]
  omega

theorem rrSchedEntry_lt {entries : UInt16} (hpos : 0 < entries.toNat) (hle : entries.toNat ≤ 256)
    (c : UInt32) : (rrSchedEntry c entries).toNat < entries.toNat := by
  rw [rrSchedEntry_toNat hpos hle]
  split <;> exact Nat.mod_lt _ hpos

section Loop

variable {serviceIndex : UInt8} {n : Nat} {m : Cmem} {g : RrWatch}

theorem RrWatch.Safe.mono (h : g.Safe serviceIndex n) {k : Nat} (hk : n ≤ k) :
    g.Safe serviceIndex k := ⟨h.le.trans hk, h.counts, h.keys⟩

theorem RrWatch.Safe.congr (h : g.Safe serviceIndex n) {g' : RrWatch}
    (hattempts : g'.attempts = g.attempts) : g'.Safe serviceIndex n :=
  ⟨hattempts ▸ h.le, hattempts ▸ h.counts, hattempts ▸ h.keys⟩

/-- An attempt with a number of entries in range. -/
theorem RrWatch.Safe.attempt (h : g.Safe serviceIndex n) {m' : Cmem} {g' : RrWatch}
    {r : AlvsSchedServerResult} {c : UInt32} (hpos : 0 < g.entries.toNat)
    (hle : g.entries.toNat ≤ 256) (ha : Attempted m g
      (schedulingIndex serviceIndex (rrSchedEntry c g.entries)) r m' g') :
    g'.Safe serviceIndex (n + 1) := by
  have hentry := rrSchedEntry_lt hpos hle c
  have hkey := toNat_schedulingIndex serviceIndex (hentry.trans_le hle)
  constructor
  · rw [ha.attempts, List.length_append, List.length_singleton]
    exact Nat.add_le_add_right h.le 1
  all_goals
    intro p hp
    rw [ha.attempts] at hp
    rcases List.mem_append.mp hp with hp | hp
  · exact h.counts p hp
  · rw [List.mem_singleton.mp hp]
    exact ⟨hpos, hle⟩
  · exact h.keys p hp
  · rw [List.mem_singleton.mp hp, hkey]
    omega

/-- From a number of entries in range, the attempts of the loop are safe, and only its success
counts a connection. -/
theorem rr_schedRrLoop : ∀ (retries : Nat) (c : UInt32) {n : Nat} {m : Cmem} {g : RrWatch},
    m.serviceInfoResult.schedEntriesCount = g.entries → 0 < g.entries.toNat →
    g.entries.toNat ≤ 256 → g.Safe serviceIndex n →
    (alvsSchedRrLoop serviceIndex retries c).wp rrSpec (fun r m' g' =>
      g'.Safe serviceIndex (n + retries) ∧
      g.Counted g' m'.schedServerIndex m'.serverInfoResult (r = some .success)) m g
  | 0, _, _, _, _, _, _, _, hsafe => ⟨hsafe, by simp, fun _ _ => rfl⟩
  | retries + 1, c, n, m, g, hm, hpos, hle, hsafe => by
    rw [alvsSchedRrLoop]
    refine (wp_bind _ _ _).mpr ((wp_get _).mpr ?_)
    rw [hm]
    refine wp_bind_of (rr_schedGetServerInfo _) ?_
    intro r m₁ g₁ ha
    have hsafe₁ := hsafe.attempt hpos hle ha
    have hmono : n + 1 ≤ n + (retries + 1) := by omega
    by_cases hr : r = .empty
    · subst hr
      have hnet := ha.counted.2 (by simp)
      have hfail (e : AlvsErrorStats) {m₂ : Cmem} {g₂ : RrWatch}
          (hattempts : g₂.attempts = g₁.attempts) (hnet₂ : ∀ a, g₂.net a = g₁.net a) :
          (alvsDiscardAndStats e >>= fun _ => pure none).wp rrSpec
            (fun (r : Option AlvsSchedServerResult) m' g' =>
              g'.Safe serviceIndex (n + (retries + 1)) ∧
              g.Counted g' m'.schedServerIndex m'.serverInfoResult (r = some .success)) m₂ g₂ := by
        refine wp_bind_of (rr_discardAndStats e) ?_
        rintro _ _ _ ⟨rfl, rfl⟩
        exact ⟨(hsafe₁.congr hattempts).mono hmono, by simp, fun _ a => (hnet₂ a).trans (hnet a)⟩
      rw [if_pos rfl]
      simp only [alvsServiceInfoLookup, wp_bind]
      refine (wp_call _ _).mpr ⟨trivial, ?_⟩
      rintro r g₂ ⟨hg₂, hok⟩
      have hnet₂ : ∀ a, g₂.net a = g₁.net a := fun a => by
        rw [hg₂, rrWatch_next_net]
        exact add_zero _
      cases r with
      | none =>
        have hattempts : g₂.attempts = g₁.attempts := by
          subst hg₂
          rfl
        exact hfail _ hattempts hnet₂
      | some info =>
        have hattempts : g₂.attempts = g₁.attempts := by
          subst hg₂
          rfl
        have hentries : g₂.entries = info.schedEntriesCount := by
          subst hg₂
          rfl
        have hcount : info.schedEntriesCount.toNat ≤ 256 := by
          subst hg₂
          exact hok.2
        simp only [wp_bind, wp_modify, wp_pure, if_true]
        refine (wp_bind _ _ _).mpr ((wp_get _).mpr ?_)
        refine (wp_ite _ _ _ _).mpr ⟨fun hzero => ?_, fun hzero => ?_⟩
        · simp only [wp_bind]
          refine wp_mono (rr_discardAndStats _) ?_
          rintro _ _ _ ⟨rfl, rfl⟩
          exact ⟨(hsafe₁.congr hattempts).mono hmono, by simp, fun _ a => (hnet₂ a).trans (hnet a)⟩
        · have hpos₂ : 0 < g₂.entries.toNat := by
            rw [hentries]
            exact Nat.pos_of_ne_zero fun h => hzero (UInt16.toNat_inj.mp h)
          rw [wp_pure, if_pos rfl]
          refine wp_mono (rr_schedRrLoop retries _ hentries.symm hpos₂ (hentries ▸ hcount)
            (hsafe₁.congr hattempts)) ?_
          rintro r m₃ g₃ ⟨hsafe₃, hadm, href⟩
          refine ⟨hsafe₃.mono (by omega), fun h => ?_, fun h a => ?_⟩
          · obtain ⟨hadmitted, hnet₃⟩ := hadm h
            exact ⟨hadmitted, fun a => by rw [hnet₃, hnet₂, hnet]⟩
          · rw [href h, hnet₂, hnet]
    · rw [if_neg hr]
      refine ⟨hsafe₁.mono hmono, fun h => ?_, fun h => ?_⟩
      · exact ha.counted.1 (Option.some.inj h)
      · exact ha.counted.2 fun h' => h (congrArg some h')

theorem rr_discardFails (e : AlvsErrorStats) {admitted : Prop} (hnot : ¬ admitted) {g' : RrWatch}
    (hsafe : g'.Safe serviceIndex n)
    (hcount : g.Counted g' m.schedServerIndex m.serverInfoResult admitted) :
    (alvsDiscardAndStats e >>= fun _ => pure false).wp rrSpec (fun ok m' g'' =>
      g''.Safe serviceIndex n ∧
      g.Counted g'' m'.schedServerIndex m'.serverInfoResult (ok = true)) m g' := by
  refine wp_bind_of (rr_discardAndStats e) ?_
  rintro _ _ _ ⟨rfl, rfl⟩
  exact ⟨hsafe, nofun, fun _ => hcount.2 hnot⟩

theorem rr_schedRrScheduleConnection (hm : m.serviceInfoResult.schedEntriesCount = g.entries)
    (hpos : 0 < g.entries.toNat) (hle : g.entries.toNat ≤ 256) (hsafe : g.Safe serviceIndex n) :
    (alvsSchedRrScheduleConnection serviceIndex).wp rrSpec (fun ok m' g' =>
      g'.Safe serviceIndex (n + alvsSchedRrRetries) ∧
      g.Counted g' m'.schedServerIndex m'.serverInfoResult (ok = true)) m g := by
  unfold alvsSchedRrScheduleConnection
  refine (wp_bind _ _ _).mpr ((wp_get _).mpr ((wp_bind _ _ _).mpr ((wp_call _ _).mpr
    ⟨trivial, ?_⟩)))
  intro c g₁ h₁
  obtain rfl := rr_call h₁ trivial
  refine wp_bind_of (rr_schedRrLoop _ c hm hpos hle hsafe) ?_
  rintro (_ | r) m' g' ⟨hsafe', hcount⟩
  · exact ⟨hsafe', nofun, fun _ => hcount.2 nofun⟩
  · cases r with
    | success => exact ⟨hsafe', fun _ => hcount.1 rfl, fun h => absurd rfl h⟩
    | failed => exact ⟨hsafe', nofun, fun _ => hcount.2 nofun⟩
    | empty => exact rr_discardFails _ nofun hsafe' hcount
    | unavailable => exact rr_discardFails _ nofun hsafe' hcount

end Loop

/-! ## New connections -/

/-- A call that is no attempt. -/
def DpCall.NoAttempt : DpCall → Prop
  | .schedInfoLookup _ => False
  | _ => True

/-- The program makes no attempt. -/
abbrev NoAttempt {α : Type} (x : Dp α) : Prop := x.Makes DpCall.NoAttempt AnyCmem

theorem noAttempt_discardAndStats (e : AlvsErrorStats) : NoAttempt (alvsDiscardAndStats e) :=
  .bind (.of_call trivial) fun _ => .of_call trivial

theorem noAttempt_overloadOnDeleteConn (i : UInt16) :
    NoAttempt (alvsServerOverloadOnDeleteConn i) :=
  .get_bind fun _ => .bind (.of_call trivial) fun _ =>
    .ite (.of_call trivial) (.ite (.ite (.of_call trivial) (.of_pure _))
      (.ite (.of_call trivial) (.of_pure _)))

theorem noAttempt_connCreateStatistics (st : UInt16) : NoAttempt (alvsConnCreateStatistics st) := by
  have hstats (s a i : Int) : NoAttempt (alvsUpdateConnectionStatistics s a i) :=
    .get_bind fun _ => .bind (.of_call trivial) fun _ => .bind (.of_call trivial) fun _ =>
      .bind (.of_call trivial) fun _ => .of_call trivial
  exact .ite (hstats _ _ _) (hstats _ _ _)

theorem noAttempt_connCreateNewEntry (bound : Bool) (server : UInt32) (port st : UInt16)
    (flags : UInt32) (reset : Bool) :
    NoAttempt (alvsConnCreateNewEntry bound server port st flags reset) := by
  have hmod (f : Cmem → Cmem) : NoAttempt (modify f) := .of_modify fun _ => trivial
  have hfail (e : AlvsErrorStats) :
      NoAttempt (alvsDiscardAndStats e >>= fun _ => pure AlvsServiceOutputResult.ignore) :=
    .bind (noAttempt_discardAndStats e) fun _ => .of_pure _
  refine .bind (.of_call trivial) fun r => ?_
  split
  · exact .bind (noAttempt_overloadOnDeleteConn _) fun _ => hfail _
  · refine .get_bind fun _ => .bind (hmod _) fun _ => .bind (.of_call trivial) fun _ =>
      .bind (hmod _) fun _ => .bind (.of_call trivial) fun _ => .ite ?_ ?_
    · exact .bind (.ite (noAttempt_connCreateStatistics _) (.of_pure _)) fun _ => .of_pure _
    · exact .bind (.of_call trivial) fun _ => .bind (noAttempt_overloadOnDeleteConn _) fun _ =>
        .bind (.of_call trivial) fun _ => hfail _

theorem noAttempt_tcpCreateConnection (tcp : TcpHdr) : NoAttempt (alvsTcpCreateConnection tcp) :=
  .get_bind fun _ => .bind (noAttempt_connCreateNewEntry _ _ _ _ _ _) fun _ =>
    .bind (.of_modify fun _ => trivial) fun _ => .of_pure _

section NewConnection

variable {serviceIndex : UInt8} {n : Nat} {m : Cmem} {g : RrWatch}

theorem NoAttempt.wp_safe {α : Type} {x : Dp α} (hx : NoAttempt x) (hsafe : g.Safe serviceIndex n) :
    x.wp rrSpec (fun _ _ g' => g'.Safe serviceIndex n) m g := by
  refine wp_mono (Makes.wp_keeps (I := (·.Safe serviceIndex n)) ?_ hx m hsafe) fun _ _ _ h => h.2
  intro g op hg hop
  refine ⟨trivial, ?_⟩
  rintro r g' ⟨rfl, -⟩
  refine hg.congr ?_
  cases op
  case schedInfoLookup => exact hop.elim
  case serviceInfoLookup => cases r <;> rfl
  all_goals rfl

/-- The attempts of a new connection of a round robin service. -/
theorem rr_tcpScheduleNewConnection (serviceIndex : UInt8) (ip : IpHdr) (tcp : TcpHdr)
    (hcount : m.serviceInfoResult.schedEntriesCount.toNat ≤ 256)
    (halg : m.serviceInfoResult.schedAlg = .roundRobin ∨
      m.serviceInfoResult.schedAlg = .weightedRoundRobin) :
    (alvsTcpScheduleNewConnection serviceIndex ip tcp).wp rrSpec
      (fun _ _ g' => g'.Safe serviceIndex alvsSchedRrRetries) m
      (.init m.serviceInfoResult.schedEntriesCount) := by
  have hinit : (RrWatch.init m.serviceInfoResult.schedEntriesCount).Safe serviceIndex 0 :=
    ⟨le_rfl, nofun, nofun⟩
  have hinit' := hinit.mono (Nat.zero_le alvsSchedRrRetries)
  unfold alvsTcpScheduleNewConnection
  refine (wp_bind _ _ _).mpr ((wp_bind _ _ _).mpr ((wp_get _).mpr ?_))
  refine (wp_ite _ _ _ _).mpr ⟨fun _ => ?_, fun hne => ?_⟩
  · refine wp_bind_of (rr_discardAndStats _) ?_
    rintro _ _ _ ⟨rfl, rfl⟩
    exact hinit'
  have hpos : 0 < m.serviceInfoResult.schedEntriesCount.toNat :=
    Nat.pos_of_ne_zero fun h => hne (UInt16.toNat_inj.mp h)
  rw [wp_pure, if_pos rfl]
  have hlock : alvsLockConnection.wp rrSpec (fun _ m' g' => m' = m ∧ g' = .init
      m.serviceInfoResult.schedEntriesCount) m (.init m.serviceInfoResult.schedEntriesCount) := by
    simp only [alvsLockConnection, wp_bind, wp_get, wp_call]
    exact ⟨trivial, fun _ _ h => ⟨trivial, rr_call h trivial⟩⟩
  refine wp_bind_of hlock ?_
  rintro h m _ ⟨rfl, rfl⟩
  refine wp_bind_of (Q := fun _ _ g' => g'.Safe serviceIndex alvsSchedRrRetries) ?_
    fun _ _ _ hsafe => wp_bind_of (NoAttempt.wp_safe (.of_call trivial) hsafe) fun _ _ _ h => h
  unfold alvsTcpScheduleLocked
  refine (wp_bind _ _ _).mpr ((wp_get _).mpr ((wp_bind _ _ _).mpr ((wp_call _ _).mpr
    ⟨trivial, ?_⟩)))
  intro r g₁ h₁
  obtain rfl := rr_call h₁ trivial
  have hsched : (alvsScheduleConnection serviceIndex ip tcp).wp rrSpec
      (fun _ _ g' => g'.Safe serviceIndex alvsSchedRrRetries) m
      (.init m.serviceInfoResult.schedEntriesCount) := by
    have hrr := rr_schedRrScheduleConnection rfl hpos hcount hinit
    rw [Nat.zero_add] at hrr
    refine (wp_bind _ _ _).mpr ((wp_get _).mpr ?_)
    obtain halg | halg := halg
    all_goals
      rw [halg]
      exact wp_mono hrr fun _ _ _ h => h.1
  cases r with
  | found i => exact hinit'
  | error =>
    refine wp_bind_of (rr_discardAndStats _) ?_
    rintro _ _ _ ⟨rfl, rfl⟩
    exact hinit'
  | notFound =>
    refine wp_bind_of hsched ?_
    intro ok m' g' hsafe
    refine (wp_ite _ _ _ _).mpr ⟨fun _ => ?_, fun _ => hsafe⟩
    exact (noAttempt_tcpCreateConnection tcp).wp_safe hsafe

end NewConnection

/-! ## All paths -/

theorem mem_divisors {g : RrWatch} {d : UInt16} (hd : d ∈ g.divisors) :
    (∃ p ∈ g.attempts, p.1 = d) ∧ ezdpCountBits d ≠ 1 := by
  obtain ⟨p, hp, hdp⟩ := List.mem_flatMap.mp hd
  split at hdp
  next => exact absurd hdp List.not_mem_nil
  next hbits =>
    obtain rfl : d = p.1 := by simpa using hdp
    exact ⟨⟨p, hp, rfl⟩, hbits⟩

/-- 256 is a power of 2. -/
theorem RrWatch.Safe.divisors {g : RrWatch} {serviceIndex : UInt8} {n : Nat}
    (h : g.Safe serviceIndex n) : ∀ d ∈ g.divisors, 0 < d.toNat ∧ d.toNat < 256 := by
  intro d hd
  obtain ⟨⟨p, hp, rfl⟩, hbits⟩ := mem_divisors hd
  obtain ⟨hpos, hle⟩ := h.counts p hp
  refine ⟨hpos, lt_of_le_of_ne hle fun h256 => hbits ?_⟩
  obtain h : p.1 = 256 := UInt16.toNat_inj.mp h256
  rw [h]
  decide

/-- What holds of all paths that schedule a connection by round robin from the memory `m`,
which holds the service, if every service that is read has at most 256 entries. -/
structure RrSchedules (serviceIndex : UInt8) (m : Cmem) : Prop where
  attempts : ∀ (ip : IpHdr) (tcp : TcpHdr) (tr : List DpEvent) (r : AlvsServiceOutputResult × Cmem),
    ((alvsTcpScheduleNewConnection serviceIndex ip tcp).run m).Path tr r →
    (∀ ev ∈ tr, RotationOk ev) →
    (rrWatch m.serviceInfoResult.schedEntriesCount tr).attempts.length ≤ alvsSchedRrRetries ∧
    (∀ d ∈ (rrWatch m.serviceInfoResult.schedEntriesCount tr).divisors,
      0 < d.toNat ∧ d.toNat < 256) ∧
    ∀ p ∈ (rrWatch m.serviceInfoResult.schedEntriesCount tr).attempts,
      serviceIndex.toNat * 256 ≤ p.2.toNat ∧ p.2.toNat ≤ serviceIndex.toNat * 256 + 255
  outcome : m.serviceInfoResult.schedEntriesCount ≠ 0 →
    ∀ (tr : List DpEvent) (ok : Bool) (m' : Cmem),
    ((alvsSchedRrScheduleConnection serviceIndex).run m).Path tr (ok, m') →
    (∀ ev ∈ tr, RotationOk ev) →
    if ok then
      (rrWatch m.serviceInfoResult.schedEntriesCount tr).admitted =
        some (m'.schedServerIndex, m'.serverInfoResult) ∧
      ∀ a, netChange a tr = if a = m'.serverInfoResult.connTotal then 1 else 0
    else (∀ a, netChange a tr = 0) ∧ disposals tr = 1
  noEntries : m.serviceInfoResult.schedEntriesCount = 0 →
    ∀ (ip : IpHdr) (tcp : TcpHdr) (tr : List DpEvent) (r : AlvsServiceOutputResult × Cmem),
    ((alvsTcpScheduleNewConnection serviceIndex ip tcp).run m).Path tr r →
    (∀ a, netChange a tr = 0) ∧ disposals tr = 1

/-- Whatever the control plane changes between the attempts of a round robin scheduling :
at most 10 attempts are made, each looks up an entry of the service and divides by a number
from 1 to 255; success leaves the server that admitted the connection, whose counter alone has
grown by one; a failure changes no counter and discards the frame once. -/
theorem rrSchedule_safe (serviceIndex : UInt8) (m : Cmem)
    (hcount : m.serviceInfoResult.schedEntriesCount.toNat ≤ 256)
    (halg : m.serviceInfoResult.schedAlg = .roundRobin ∨
      m.serviceInfoResult.schedAlg = .weightedRoundRobin) : RrSchedules serviceIndex m := by
  have hok : ∀ (g : RrWatch) (ev : DpEvent), (g.next ev).countsOk → g.countsOk :=
    fun g ev h => ((rrWatch_next_countsOk g ev).mp h).1
  have hend {tr : List DpEvent} (h : ∀ ev ∈ tr, RotationOk ev) :
      (tr.foldl RrWatch.next (.init m.serviceInfoResult.schedEntriesCount)).countsOk :=
    (rrWatch_foldl tr _).1.mpr ⟨trivial, h⟩
  have hnet (tr : List DpEvent) (a : SumAddr) :
      (rrWatch m.serviceInfoResult.schedEntriesCount tr).net a = netChange a tr :=
    ((rrWatch_foldl tr _).2 a).trans (zero_add _)
  constructor
  · intro ip tcp tr r hp hcounts
    have hsafe := Prog.of_wp_watch hok
      (rr_tcpScheduleNewConnection serviceIndex ip tcp hcount halg) hp
      (hend hcounts)
    exact ⟨hsafe.le, hsafe.divisors, hsafe.keys⟩
  · intro hne tr ok m' hp hcounts
    have hpos : 0 < m.serviceInfoResult.schedEntriesCount.toNat :=
      Nat.pos_of_ne_zero fun h => hne (UInt16.toNat_inj.mp h)
    have hinit : (RrWatch.init m.serviceInfoResult.schedEntriesCount).Safe serviceIndex 0 :=
      ⟨le_rfl, nofun, nofun⟩
    obtain ⟨-, hadm, href⟩ := Prog.of_wp_watch hok
      (rr_schedRrScheduleConnection rfl hpos hcount hinit) hp (hend hcounts)
    cases ok with
    | true =>
      obtain ⟨hadmitted, hone⟩ := hadm rfl
      exact ⟨hadmitted, fun a => (hnet tr a).symm.trans ((hone a).trans (zero_add _))⟩
    | false =>
      exact ⟨fun a => (hnet tr a).symm.trans (href nofun a),
        disposals_of_fails (sched_rrScheduleConnection serviceIndex) hp⟩
  · intro hzero ip tcp tr r hp
    have hrun : (alvsTcpScheduleNewConnection serviceIndex ip tcp).run m =
        .call (.addPostedCtr (alvsErrorStatsAddr .noActiveServers) 1) fun _ =>
          .call .frameFree fun _ => .ret (.ignore, m) := by
      simp only [alvsTcpScheduleNewConnection, alvsSchedCheckActiveServers, StateT.run_bind,
        StateT.run_get, pure_bind, hzero, if_true]
      rfl
    rw [hrun] at hp
    obtain ⟨_, _, rfl, hp₁⟩ := Prog.path_call_iff.mp hp
    obtain ⟨_, _, rfl, hp₂⟩ := Prog.path_call_iff.mp hp₁
    cases hp₂
    exact ⟨fun _ => rfl, rfl⟩

/-- A thread that has looked up a round robin service with three entries. -/
def exampleRrCmem : Cmem :=
  { Cmem.zero with serviceInfoResult :=
    { Cmem.zero.serviceInfoResult with schedEntriesCount := 3 } }

theorem rrSchedule_safe_three : RrSchedules 0 exampleRrCmem :=
  rrSchedule_safe 0 exampleRrCmem (by decide) (.inl rfl)

end Alvs
