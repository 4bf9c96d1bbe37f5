import Alvs.Cp.Starvation
import Alvs.Dp.Quiet

/-!
# Weighted round robin from the weights to the packets

The control plane gives each server of a weighted round robin service as many entries of
the scheduling table as its divided weight, and the data plane takes the entries in turn :
each value of the scheduling counter of the service leads to one lookup (`wp_round`), and
as many consecutive values as there are entries lead to each entry once, as long as the
upper half of the counter does not change (`rrSchedEntry_window`).
-/

namespace Alvs

open ProgLogic LProg

/-! ## The entries that the counter selects -/

/-- A number of entries with one bit is a power of 2. -/
theorem exists_pow_of_countBits : ∀ n < 257, ezdpCountBits (UInt16.ofNat n) = 1 →
    ∃ m < 9, n = 2 ^ m := by
  decide +kernel

theorem ezdpMod_toNat (x y offset : UInt32) (h : offset.toNat < 32) :
    (ezdpMod x y offset).toNat = x.toNat / 2 ^ offset.toNat % 65536 % y.toNat := by
  rw [ezdpMod, UInt32.toNat_mod, UInt32.toNat_and, UInt32.toNat_shiftRight,
    Nat.mod_eq_of_lt h, Nat.shiftRight_eq_div_pow]
  exact congrArg (· % y.toNat) (Nat.and_two_pow_sub_one_eq_mod _ 16)

/-- The entry that the counter selects is that of its value modulo the number of entries,
with an offset that only its upper half determines. -/
theorem rrSchedEntry_toNat {entries : UInt16} (hpos : 0 < entries.toNat)
    (hle : entries.toNat ≤ 256) (c : UInt32) : (rrSchedEntry c entries).toNat =
      if ezdpCountBits entries = 1 then c.toNat % entries.toNat
      else (c.toNat % 65536 + c.toNat / 65536 % entries.toNat) % entries.toNat := by
  have hentries : entries.toUInt32.toNat = entries.toNat := UInt16.toNat_toUInt32 entries
  rw [rrSchedEntry]
  split
  next hbits =>
    obtain ⟨m, -, hm⟩ := exists_pow_of_countBits entries.toNat (by omega)
      (by rwa [UInt16.ofNat_toNat])
    have hone : (1 : UInt32) ≤ entries.toUInt32 := UInt32.le_iff_toNat_le.mpr
      (by rw [hentries]; exact hpos)
    rw [UInt32.toNat_and, UInt32.toNat_sub_of_le _ _ hone, hentries, hm]
    exact Nat.and_two_pow_sub_one_eq_mod _ m
  next =>
    have hlt := fun x => Nat.mod_lt x hpos
    rw [ezdpMod_toNat _ _ 0 (by decide), UInt32.toNat_add, ezdpMod_toNat _ _ 0 (by decide),
      ezdpMod_toNat _ _ 16 (by decide), hentries]
    have h₁ := hlt (c.toNat % 65536)
    have h₂ := hlt (c.toNat / 65536)
    have hupper : c.toNat / 65536 < 65536 := by
      have := c.toNat_lt
      omega
    simp only [UInt32.toNat_zero, Nat.pow_zero, Nat.div_one, show UInt32.toNat 16 = 16 from rfl,
      show 2 ^ 16 = 65536 from rfl, Nat.mod_eq_of_lt hupper]
    rw [Nat.mod_eq_of_lt (a := c.toNat % 65536 % entries.toNat +
      c.toNat / 65536 % entries.toNat) (by omega), Nat.mod_eq_of_lt (b := 65536) (by omega),
      Nat.mod_add_mod]

/-- As many values of a counter from `c` on as there are entries, none with another upper
half. -/
def InBlock (c : UInt32) (entries : UInt16) : Prop := c.toNat % 65536 + entries.toNat ≤ 65536

/-- They select each entry once. -/
theorem rrSchedEntry_window {entries : UInt16} (hpos : 0 < entries.toNat)
    (hle : entries.toNat ≤ 256) {c : UInt32} (hc : InBlock c entries) :
    ((List.range entries.toNat).map fun k =>
      (rrSchedEntry (c + UInt32.ofNat k) entries).toNat).Perm (List.range entries.toNat) := by
  have hvalue : ∀ k < entries.toNat, (c + UInt32.ofNat k).toNat = c.toNat + k := by
    intro k hk
    have hlt := c.toNat_lt
    unfold InBlock at hc
    rw [UInt32.toNat_add, UInt32.toNat_ofNat', Nat.mod_eq_of_lt (a := k) (by omega)]
    omega
  -- the values are those of a window, whichever way the entry is selected
  obtain ⟨a, ha⟩ : ∃ a, ∀ k < entries.toNat,
      (rrSchedEntry (c + UInt32.ofNat k) entries).toNat = (a + k) % entries.toNat := by
    by_cases hbits : ezdpCountBits entries = 1
    · refine ⟨c.toNat, fun k hk => ?_⟩
      rw [rrSchedEntry_toNat hpos hle, if_pos hbits, hvalue k hk]
    · refine ⟨c.toNat % 65536 + c.toNat / 65536 % entries.toNat, fun k hk => ?_⟩
      unfold InBlock at hc
      rw [rrSchedEntry_toNat hpos hle, if_neg hbits, hvalue k hk,
        show (c.toNat + k) % 65536 = c.toNat % 65536 + k by omega,
        show (c.toNat + k) / 65536 = c.toNat / 65536 by omega, Nat.add_right_comm]
  have hperm := window_perm a entries.toNat
  rw [List.range'_eq_map_range, List.map_map] at hperm
  rwa [List.map_congr_left fun k hk => ha k (List.mem_range.mp hk)]

/-! ## Watching the lookups -/

/-- The call is answered by the tables, and the counter has the given value. -/
def Answered (nps : Nps) (c : UInt32) : DpEvent → Prop
  | ⟨.schedInfoLookup i, r⟩ => ∀ j, nps.schedInfo i = some j → r = LookupRes.found j
  | ⟨.atomicReadAndInc32 _, value⟩ => value = c
  | _ => True

/-- The key of a lookup in the scheduling table. -/
def schedKey : DpEvent → Option UInt16
  | ⟨.schedInfoLookup i, _⟩ => some i
  | _ => none

/-- The keys that a path looks up in the scheduling table. -/
def schedLookups (tr : List DpEvent) : List UInt16 := tr.filterMap schedKey

/-- What is looked up on a path, and whether its calls are answered by the tables. -/
structure RoundWatch where
  looked : List UInt16
  answered : Prop

def RoundWatch.next (nps : Nps) (c : UInt32) (g : RoundWatch) (ev : DpEvent) : RoundWatch :=
  ⟨g.looked ++ (schedKey ev).toList, g.answered ∧ Answered nps c ev⟩

theorem roundWatch_foldl (nps : Nps) (c : UInt32) : ∀ (tr : List DpEvent) (g : RoundWatch),
    tr.foldl (RoundWatch.next nps c) g =
      ⟨g.looked ++ schedLookups tr, g.answered ∧ ∀ ev ∈ tr, Answered nps c ev⟩
  | [], g => by simp [schedLookups]
  | ev :: tr, g => by
    rw [List.foldl_cons, roundWatch_foldl nps c tr]
    simp only [RoundWatch.next, schedLookups, List.forall_mem_cons, and_assoc, List.append_assoc,
      List.filterMap_cons]
    cases schedKey ev <;> rfl

abbrev roundSpec (nps : Nps) (c : UInt32) : Spec DpCall DpCall.Res RoundWatch :=
  Prog.watchSpec (RoundWatch.next nps c) RoundWatch.answered

/-- A call that is neither a lookup in the scheduling table nor a read of its counter. -/
def DpCall.OffRound : DpCall → Prop
  | .schedInfoLookup _ | .atomicReadAndInc32 _ => False
  | _ => True

theorem silent_offRound (nps : Nps) (c : UInt32) : Silent (roundSpec nps c) DpCall.OffRound := by
  intro g op hop
  refine ⟨trivial, ?_⟩
  rintro r g' ⟨rfl, -⟩
  have hkey : schedKey ⟨op, r⟩ = none ∧ Answered nps c ⟨op, r⟩ := by
    cases op <;> first | exact hop.elim | exact ⟨rfl, trivial⟩
  simp [RoundWatch.next, hkey.1, hkey.2]

/-- The index of the server that was scheduled is the same. -/
def SameSched (l l' : Cmem) : Prop := l'.schedServerIndex = l.schedServerIndex

instance : Std.Refl SameSched := ⟨fun _ => rfl⟩

instance : IsTrans Cmem SameSched := ⟨fun _ _ _ h h' => Eq.trans h' h⟩

/-- A program that keeps the scheduled index and has no part in a round. -/
abbrev OffRound {α : Type} (x : Dp α) : Prop := x.Makes DpCall.OffRound SameSched

theorem offRound_discardAndStats (e : AlvsErrorStats) : OffRound (alvsDiscardAndStats e) :=
  .bind (.of_call trivial) fun _ => .of_call trivial

theorem offRound_overloadOnCreateConn (i : UInt16) :
    OffRound (alvsServerOverloadOnCreateConn i) := by
  refine .get_bind fun _ => .bind (.of_call trivial) fun _ => .bind (.of_call trivial) fun _ => ?_
  refine .ite (.of_pure _) (.ite (.ite ?_ ?_) (.ite ?_ (.ite ?_ (.ite ?_ (.of_pure _)))))
  all_goals repeat refine .bind (.of_call trivial) fun _ => ?_
  all_goals exact .of_pure _

theorem offRound_serverInfoLookup (i : UInt32) : OffRound (alvsServerInfoLookup i) := by
  refine .bind (.of_call trivial) fun r => ?_
  split
  · exact .of_pure _
  · exact .bind (.of_modify fun _ => rfl) fun _ => .of_pure _

/-! ## One round -/

section Round

variable {nps : Nps} {c : UInt32} {key : UInt16} {j : UInt32}

/-- The entry of the key is looked up and gives the server, whatever becomes of it. -/
theorem wp_getServerInfo (hj : nps.schedInfo key = some j) (m : Cmem) (g : RoundWatch) :
    (alvsSchedGetServerInfo key).wp (roundSpec nps c) (fun res m' g' => res ≠ .empty ∧
      m'.schedServerIndex = j ∧ g'.looked = g.looked ++ [key]) m g := by
  simp only [alvsSchedGetServerInfo, alvsServerSchedLookup, wp_bind]
  refine (wp_call _ _).mpr ⟨trivial, ?_⟩
  rintro r g' ⟨rfl, -, hanswered⟩
  obtain rfl := hanswered j hj
  simp only [wp_bind, wp_modify, wp_pure, wp_get]
  refine wp_mono ((offRound_serverInfoLookup _).wp (silent_offRound nps c) _ _) ?_
  rintro found m' _ ⟨hsched, rfl⟩
  refine (wp_ite _ _ _ _).mpr ⟨fun _ => ?_, fun _ => ?_⟩
  · refine wp_bind_of ((offRound_overloadOnCreateConn _).wp (silent_offRound nps c) _ _) ?_
    rintro flags m'' _ ⟨hsched', rfl⟩
    refine (wp_ite _ _ _ _).mpr ⟨fun _ => ⟨by simp, ?_, rfl⟩, fun _ => ⟨by simp, ?_, rfl⟩⟩
    all_goals exact hsched'.trans hsched
  · refine wp_bind_of ((offRound_discardAndStats _).wp (silent_offRound nps c) _ _) ?_
    rintro _ m'' _ ⟨hsched', rfl⟩
    exact ⟨by simp, hsched'.trans hsched, rfl⟩

/-- A counter value whose entry is present leads to one lookup. -/
theorem wp_round (serviceIndex : UInt8) (m : Cmem) (g : RoundWatch)
    (hj : nps.schedInfo (schedulingIndex serviceIndex
      (rrSchedEntry c m.serviceInfoResult.schedEntriesCount)) = some j) :
    (alvsSchedRrScheduleConnection serviceIndex).wp (roundSpec nps c) (fun _ m' g' =>
      m'.schedServerIndex = j ∧ g'.looked = g.looked ++ [schedulingIndex serviceIndex
        (rrSchedEntry c m.serviceInfoResult.schedEntriesCount)]) m g := by
  simp only [alvsSchedRrScheduleConnection, wp_bind, wp_get]
  refine (wp_call _ _).mpr ⟨trivial, ?_⟩
  rintro value _ ⟨rfl, -, rfl⟩
  rw [show alvsSchedRrRetries = 9 + 1 from rfl, alvsSchedRrLoop]
  simp only [wp_bind, wp_get]
  refine wp_mono (wp_getServerInfo hj m _) ?_
  rintro res m' g' ⟨hne, hsched, hlooked⟩
  rw [if_neg hne]
  have hlooked : g'.looked = g.looked ++ [schedulingIndex serviceIndex
      (rrSchedEntry value m.serviceInfoResult.schedEntriesCount)] := by
    rw [hlooked]
    simp [RoundWatch.next, schedKey]
  have hdiscard : ∀ e : AlvsErrorStats, (do alvsDiscardAndStats e; pure false : Dp Bool).wp
      (roundSpec nps value) (fun _ m' g' => m'.schedServerIndex = j ∧ g'.looked =
        g.looked ++ [schedulingIndex serviceIndex
          (rrSchedEntry value m.serviceInfoResult.schedEntriesCount)]) m' g' := fun e => by
    refine wp_bind_of ((offRound_discardAndStats e).wp (silent_offRound nps value) m' g') ?_
    rintro _ m'' _ ⟨hsched', rfl⟩
    exact ⟨hsched'.trans hsched, hlooked⟩
  cases res with
  | success => exact ⟨hsched, hlooked⟩
  | unavailable => exact hdiscard _
  | empty => exact hdiscard _
  | failed => exact ⟨hsched, hlooked⟩

end Round

/-! ## A whole window -/

/-- The key that a value of the scheduling counter of a service leads to. -/
def rrKey (v : DbService) (count : UInt16) (c : UInt32) : UInt16 :=
  schedulingIndex (buildNpsServiceInfoKey v) (rrSchedEntry c count)

theorem schedulingIndex_eq {npsIndex : UInt32} (hs : npsIndex.toNat < 256) {entry : UInt32}
    (he : entry.toNat < 256) :
    schedulingIndex npsIndex.toUInt8 entry = schedIndex npsIndex entry.toNat := by
  rw [← UInt16.toNat_inj, schedIndex_toNat hs he, schedulingIndex, UInt32.toNat_toUInt16,
    UInt32.toNat_add, UInt32.toNat_mul, UInt8.toNat_toUInt32, UInt32.toNat_toUInt8,
    show alvsSizeOfSchedBucket.toUInt32.toNat = 256 from rfl]
  omega

/-- What the tables `nps` mean for a weighted round robin service with servers `l` whose
number of entries is `count`. -/
structure WeightedRounds (nps : Nps) (v : DbService) (l : List DbServer) (count : UInt16) :
    Prop where
  count_eq : count.toNat = ∑ i ∈ Finset.range l.length, reducedAt l i
  filled : ∀ k < 256, (nps.schedInfo (schedIndex v.npsIndex k)).isSome = true ↔ k < count.toNat
  shares : ∀ i (hi : i < l.length), ((List.range 256).map fun k =>
    nps.schedInfo (schedIndex v.npsIndex k)).count (some l[i].npsIndex) = reducedAt l i
  round : ∀ (c : UInt32) (m m' : Cmem) (tr : List DpEvent) (res : Bool),
    m.serviceInfoResult.schedEntriesCount = count →
    ((alvsSchedRrScheduleConnection (buildNpsServiceInfoKey v)).run m).Path tr (res, m') →
    (∀ ev ∈ tr, Answered nps c ev) →
    schedLookups tr = [rrKey v count c] ∧
      nps.schedInfo (rrKey v count c) = some m'.schedServerIndex
  window : ∀ c, InBlock c count → ((List.range count.toNat).map fun k =>
    rrKey v count (c + UInt32.ofNat k)).Perm
      ((List.range count.toNat).map (schedIndex v.npsIndex))
  chosen : ∀ c, InBlock c count → ∀ i (hi : i < l.length), ((List.range count.toNat).map fun k =>
    nps.schedInfo (rrKey v count (c + UInt32.ofNat k))).count (some l[i].npsIndex) = reducedAt l i

/-- The positions of a list with distinct servers that a bucket holds. -/
theorem count_positions {l : List DbServer} (hnodup : (l.map (·.npsIndex)).Nodup) {ps : List Nat}
    (hps : ∀ p ∈ ps, p < l.length) {i : Nat} (hi : i < l.length) :
    (ps.map fun i => l[i]?.map (·.npsIndex)).count (some l[i].npsIndex) = ps.count i := by
  rw [List.count, List.countP_map, List.count]
  refine List.countP_congr fun p hp => ?_
  have hlt := hps p hp
  simp only [Function.comp_apply, List.getElem?_eq_getElem hlt, Option.map_some, beq_iff_eq,
    Option.some_inj]
  constructor
  · exact eq_of_npsIndex hnodup hlt hi
  · rintro rfl
    rfl

/-- The places of a list, as far as it goes. -/
theorem map_getElem?_range {α β : Type} (b : List α) (f : α → β) : ∀ {n : Nat}, b.length ≤ n →
    (List.range n).map (fun k => b[k]?.map f) =
      b.map (fun x => some (f x)) ++ List.replicate (n - b.length) none := by
  intro n hn
  ext1 k
  rw [List.getElem?_map, List.getElem?_append, List.length_map, List.getElem?_map,
    List.getElem?_replicate]
  by_cases hk : k < b.length
  · rw [List.getElem?_range (by omega), if_pos hk, List.getElem?_eq_getElem hk]
    simp [hk]
  · rw [if_neg hk]
    by_cases hkn : k < n
    · rw [List.getElem?_range hkn, if_pos (by omega), Option.map_some,
        List.getElem?_eq_none (by omega), Option.map_none]
    · rw [List.getElem?_eq_none (by simpa using hkn), if_neg (by omega)]
      rfl

/-- A table with the entries of a bucket that is made of whole shares. -/
theorem weightedRounds_of_bucket {nps : Nps} {v : DbService} {l b : List DbServer}
    {count : UInt16} {ps : List Nat} (hidx : v.npsIndex.toNat < 256)
    (hentry : ∀ k < 256, nps.schedInfo (schedIndex v.npsIndex k) = b[k]?.map (·.npsIndex))
    (hlen : b.length = count.toNat) (hpos : 0 < count.toNat) (hle : count.toNat ≤ 256)
    (hsum : count.toNat = ∑ i ∈ Finset.range l.length, reducedAt l i)
    (hmap : b.map (fun s => some s.npsIndex) = ps.map fun i => l[i]?.map (·.npsIndex))
    (hps : ∀ i (hi : i < l.length), (ps.map fun i => l[i]?.map (·.npsIndex)).count
      (some l[i].npsIndex) = reducedAt l i) : WeightedRounds nps v l count := by
  have hkey : ∀ c, rrKey v count c = schedIndex v.npsIndex (rrSchedEntry c count).toNat ∧
      (rrSchedEntry c count).toNat < count.toNat := by
    intro c
    have hlt : (rrSchedEntry c count).toNat < count.toNat := by
      rw [rrSchedEntry_toNat hpos hle]
      split <;> exact Nat.mod_lt _ hpos
    exact ⟨schedulingIndex_eq hidx (hlt.trans_le hle), hlt⟩
  have hshares : ∀ {n : Nat}, count.toNat ≤ n → n ≤ 256 → ∀ i (hi : i < l.length),
      ((List.range n).map fun k => nps.schedInfo (schedIndex v.npsIndex k)).count
        (some l[i].npsIndex) = reducedAt l i := by
    intro n hcn hn i hi
    rw [List.map_congr_left fun k hk => hentry k ((List.mem_range.mp hk).trans_le hn),
      map_getElem?_range b _ (hlen ▸ hcn), List.count_append, hmap, hps i hi,
      List.count_eq_zero_of_not_mem (by simp), Nat.add_zero]
  have hwindow : ∀ c, InBlock c count → ((List.range count.toNat).map fun k =>
      rrKey v count (c + UInt32.ofNat k)).Perm
        ((List.range count.toNat).map (schedIndex v.npsIndex)) := by
    intro c hc
    have hperm := (rrSchedEntry_window hpos hle hc).map (schedIndex v.npsIndex)
    rw [List.map_map] at hperm
    rwa [List.map_congr_left fun k _ => (hkey (c + UInt32.ofNat k)).1]
  constructor
  · exact hsum
  · intro k hk
    rw [hentry k hk, ← hlen]
    simp
  · exact hshares hle le_rfl
  · intro c m m' tr res hm hpath hanswered
    obtain ⟨hkeyc, hlt⟩ := hkey c
    have hentryc := hentry _ (hlt.trans_le hle)
    rw [List.getElem?_eq_getElem (hlen ▸ hlt), Option.map_some, ← hkeyc] at hentryc
    have hround := @wp_round nps c _ (buildNpsServiceInfoKey v) m ⟨[], True⟩
      (by rw [hm]; exact hentryc)
    have hend := Prog.of_wp_watch (fun g ev h => h.1) hround hpath
      (by rw [roundWatch_foldl]; exact ⟨trivial, hanswered⟩)
    rw [roundWatch_foldl, hm] at hend
    exact ⟨hend.2, hentryc.trans (congrArg some hend.1.symm)⟩
  · exact hwindow
  · intro c hc i hi
    have hperm := (hwindow c hc).map nps.schedInfo
    rw [List.map_map, List.map_map] at hperm
    exact (hperm.count_eq _).trans (hshares le_rfl hle i hi)

/-- A recalculation of a weighted round robin service whose divided weights have room. -/
theorem weightedRounds_recalculate (s : Sys) (hinv : s.cp.Inv) (v : DbService)
    (hv : v ∈ s.cp.services) (halg : v.schedAlg = .weightedRoundRobin)
    (hne : s.cp.scheduled v ≠ [])
    (hsum : ∑ i ∈ Finset.range (s.cp.scheduled v).length, reducedAt (s.cp.scheduled v) i ≤ 256)
    (pick : Nat) :
    (s.runCp pick (alvsDbRecalculateSchedulingInfo v)).1.1 = .ok ∧
    WeightedRounds (s.runCp pick (alvsDbRecalculateSchedulingInfo v)).2.nps v (s.cp.scheduled v)
      (s.runCp pick (alvsDbRecalculateSchedulingInfo v)).1.2.schedEntriesCount := by
  have hidx : v.npsIndex.toNat < 256 := (hinv.services_index v hv).1
  have hpos : ∀ w ∈ s.cp.scheduled v, w.weight ≠ 0 := fun _ => weight_scheduled
  rw [runCp_recalculate s pick v (hinv.algs v hv)]
  refine ⟨rfl, ?_⟩
  dsimp only
  have hlen : (s.cp.bucket v).length = _ := length_bucket_scheduled hinv hv
  have hcount := entriesCount_toNat s.cp v
  rw [halg] at hlen
  have hlen := hlen.trans (Nat.min_eq_right hsum)
  -- the bucket of the service, by the positions of its servers
  have hb := bucket_scheduled hinv hv
  rw [halg] at hb
  unfold serversBuckets at hb
  rw [if_neg (by simpa using hne)] at hb
  obtain ⟨ps, hps, hmap⟩ := wrrFillBuckets_eq hpos
  rw [Option.some.inj hb] at hmap
  refine weightedRounds_of_bucket hidx (fun k hk => recalculated_schedIndex s hidx hk)
    hcount.symm ?_ ?_ (hcount.trans hlen) hmap fun i hi => ?_
  · have hi := List.length_pos_of_ne_nil hne
    rw [hcount, hlen]
    exact (reducedAt_pos hpos hi).trans_le
      (Finset.single_le_sum (fun _ _ => Nat.zero_le _) (Finset.mem_range.mpr hi))
  · rw [hcount, hlen]
    exact hsum
  · have hlt := fun p hp => Finset.mem_range.mp (hps.subset p hp)
    rw [count_positions (nodup_scheduled hinv) hlt hi]
    exact hps.count_eq hsum i (Finset.mem_range.mpr hi)

/-- A weighted round robin service with servers of weights 4 and 2. -/
def twoWeights : List CpOp :=
  [.addService { exampleService with schedName := "wrr" },
    .addServer { exampleService with schedName := "wrr" } (exampleServer 0 4),
    .addServer { exampleService with schedName := "wrr" } (exampleServer 1 2)]

/-- Its row. -/
def twoWeightsService : DbService :=
  { newService { exampleService with schedName := "wrr" } 0 with schedEntriesCount := 3 }

theorem weightedRounds_recalculate_two :
    let s := twoWeights.foldl Sys.cpStep Sys.init
    (s.runCp 0 (alvsDbRecalculateSchedulingInfo twoWeightsService)).1.1 = .ok ∧
    WeightedRounds (s.runCp 0 (alvsDbRecalculateSchedulingInfo twoWeightsService)).2.nps
      twoWeightsService (s.cp.scheduled twoWeightsService)
      (s.runCp 0 (alvsDbRecalculateSchedulingInfo twoWeightsService)).1.2.schedEntriesCount :=
  weightedRounds_recalculate _ (activeAtMost_run twoWeights).1 twoWeightsService
    (by decide +kernel) rfl (by decide +kernel) (by decide +kernel) 0

end Alvs
