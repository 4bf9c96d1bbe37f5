import Alvs.Cp.FibMoves

/-!
# Longest-prefix match

The TCAM answers an address with the entry that matches at the lowest index. In a FIB that is an
entry of the longest prefix that the address has (`FibInv.lookup`). While a route is added,
deleted or changed, every address is answered as before or as afterwards (`fib_hitless`).
-/

namespace Alvs

open ProgLogic Prog

/-- A route is in the internal table. -/
def NwState.HasRoute (s : NwState) (e : FibRoute) : Prop := ∃ r ∈ s.fibEntries, r.route = e

/-- The answer is the result of a route that has the longest prefix of the address. -/
def LongestPrefixMatch (routes : FibRoute → Prop) (addr : UInt32) (answer : Option NwFibResult) :
    Prop :=
  ∃ r : Option FibRoute, IsLongest (·.maskLength.toNat) routes (fun e => decide (e.Covers addr)) r ∧
    answer = r.map (·.result)

/-! ## The answers of a list of routes -/

/-- The answer of a table for an address. -/
def tcamAnswer (t : Nat → Option NwFibTcamEntry) (addr : UInt32) : Option NwFibResult :=
  (firstMatch (·.matches addr) t nwFibTcamMaxSize.toNat).map (·.result)

theorem tcamLookup_eq (s : NwState) (addr : UInt32) :
    s.tcamLookup addr = tcamAnswer s.tcam addr := rfl

section Answers

variable {l : List FibRoute} {t : Nat → Option NwFibTcamEntry}

/-- The first entry that matches has the longest prefix, also where one entry is there twice. -/
theorem FibList.lookup_dup (h : FibList l) {k : Nat}
    (hsize : (dup (tcamList l) k).length ≤ nwFibTcamMaxSize.toNat)
    (ht : Lists t (dup (tcamList l) k)) (addr : UInt32) :
    LongestPrefixMatch (· ∈ l) addr (tcamAnswer t addr) := by
  refine ⟨l.find? fun e => e.tcamEntry.matches addr, ?_, ?_⟩
  · refine (isLongest_find? h.sorted).congr (fun _ => Iff.rfl) fun e he => ?_
    exact matches_iff (h.maskLength e he) addr
  · rw [tcamAnswer, ht.firstMatch hsize, find?_dup, List.find?_map, Option.map_map]
    rfl

theorem FibList.lookup (h : FibList l) (ht : Lists t (tcamList l)) (addr : UInt32) :
    LongestPrefixMatch (· ∈ l) addr (tcamAnswer t addr) := by
  have hdup := dup_length (tcamList l)
  refine h.lookup_dup (k := (tcamList l).length) ?_ ?_ addr
  · rw [hdup, List.length_map]
    exact h.size
  · rwa [hdup]

end Answers

theorem length_dup_le {α : Type} (l : List α) (k : Nat) : (dup l k).length ≤ l.length + 1 := by
  rw [dup, List.length_append, List.length_take, List.length_drop]
  omega

/-! ## Operations -/

/-- A change of the FIB. -/
inductive FibOp
  | add (routeEntry : RtnlRoute)
  | delete (routeEntry : RtnlRoute)
  | modify (routeEntry : RtnlRoute)

namespace FibOp

def prog : FibOp → NwProg NwDbRc
  | add routeEntry => nwDbAddFibEntry routeEntry true
  | delete routeEntry => nwDbDeleteFibEntry routeEntry
  | modify routeEntry => nwDbModifyFibEntry routeEntry

/-- The routes after a change. A route to a prefix that is there, or to a full table, is not
added. -/
def routes (full : Prop) (S : FibRoute → Prop) : FibOp → FibRoute → Prop
  | add routeEntry, e =>
    S e ∨ ¬ full ∧ e = routeEntry.fibRoute ∧ ∀ e', S e' → e'.key ≠ routeEntry.key
  | delete routeEntry, e => S e ∧ e.key ≠ routeEntry.key
  | modify routeEntry, e => S e ∧ e.key ≠ routeEntry.key ∨
    ∃ d, S d ∧ d.key = routeEntry.key ∧ e = routeEntry.modified d

end FibOp

/-- The state after a change. -/
def NwState.fibStep (s : NwState) (op : FibOp) : NwState := (op.prog.exec nwHandle s).2

/-- Every address is answered as by `l` or as by `l'`. -/
def Answers (l l' : List FibRoute) (t : Nat → Option NwFibTcamEntry) : Prop :=
  ∀ addr, LongestPrefixMatch (· ∈ l) addr (tcamAnswer t addr) ∨
    LongestPrefixMatch (· ∈ l') addr (tcamAnswer t addr)

section Ops

variable {s : NwState} {l : List FibRoute}

theorem FibOf.hasRoute (h : FibOf l s) (e : FibRoute) : s.HasRoute e ↔ e ∈ l := by
  constructor
  · rintro ⟨r, hr, rfl⟩
    obtain ⟨i, e, hi, rfl⟩ := (mem_rows_iff h.rows).mp hr
    exact List.mem_of_getElem? hi
  · intro he
    obtain ⟨i, hi⟩ := List.mem_iff_getElem?.mp he
    exact ⟨e.atIndex i, (mem_rows_iff h.rows).mpr ⟨i, e, hi, rfl⟩, rfl⟩

theorem FibOf.full_iff (h : FibOf l s) :
    s.fibEntryCount = nwFibTcamMaxSize ↔ l.length = nwFibTcamMaxSize.toNat := by
  rw [← UInt32.toNat_inj, h.count]

/-- The routes of a list with a prefix. -/
theorem FibList.mem_key {A C : List FibRoute} {d : FibRoute} (h : FibList (A ++ d :: C))
    (e : FibRoute) : e ∈ A ++ d :: C ∧ e.key ≠ d.key ↔ e ∈ A ++ C := by
  have hkeys := h.keys
  rw [List.map_append, List.map_cons, List.nodup_middle, List.nodup_cons,
    ← List.map_append] at hkeys
  constructor
  · rintro ⟨he, hne⟩
    rcases List.mem_append.mp he with he | he
    · exact List.mem_append_left _ he
    · rcases List.mem_cons.mp he with rfl | he
      · exact absurd rfl hne
      · exact List.mem_append_right _ he
  · intro he
    refine ⟨((List.sublist_cons_self d C).append_left A).subset he, fun heq => ?_⟩
    exact hkeys.1 (heq ▸ List.mem_map_of_mem he)

/-- What a change does to a FIB, with every address answered in between. -/
theorem fibOp_spec (h : FibOf l s) (op : FibOp) :
    ∃ l', (∀ e, e ∈ l' ↔ op.routes (s.fibEntryCount = nwFibTcamMaxSize) (· ∈ l) e) ∧
      op.prog.wp (tcamSpec (Answers l l')) (fun _ s' => FibOf l' s') s := by
  have hstart (l' : List FibRoute) : Answers l l' s.tcam := fun addr =>
    .inl (h.list.lookup h.tcam addr)
  cases op with
  | add routeEntry =>
    obtain ⟨hnone, hk⟩ | ⟨A, d, C, rfl, hd, hfound⟩ := h.find?_key routeEntry.key
    · have hget : s.fibEntries.find? (·.key = (NwDbFibEntry.ofDst routeEntry.dst).key) = none :=
        hnone
      by_cases hfull : s.fibEntryCount = nwFibTcamMaxSize
      · refine ⟨l, fun e => ⟨.inl, fun he => he.resolve_right fun hadded => hadded.1 hfull⟩, ?_⟩
        simp only [FibOp.prog, nwDbAddFibEntry, wp_bind, wp_internalDbGetFibEntry, hget,
          wp_getFibEntryCount, if_pos hfull, wp_pure]
        exact ⟨hstart l, hstart l, h⟩
      · obtain ⟨A, M, rfl, hA, hM⟩ := exists_cut routeEntry.fibRoute.maskLength h.list.sorted
        have hsize : (A ++ M).length < nwFibTcamMaxSize.toNat :=
          lt_of_le_of_ne h.list.size fun heq => hfull (h.full_iff.mpr heq)
        have hlen : routeEntry.fibRoute.maskLength.toNat ≤ 32 :=
          fibRoute_maskLength.trans_le routeEntry.dst.prefixlen_le
        have hkey : routeEntry.fibRoute.key ∉ (A ++ M).map (·.key) := by
          rwa [fibRoute_key]
        have hl' := h.list.insert hA hM hlen hkey hsize
        refine ⟨A ++ routeEntry.fibRoute :: M, fun e => ?_, wp_mono
          (wp_nwDbAddFibEntry h hk hsize hA hM (fun t k ht addr => ?_)
            fun t ht addr => .inr (hl'.lookup ht addr)) fun _ _ h' => h'.2⟩
        · have hnew : ∀ e' ∈ A ++ M, e'.key ≠ routeEntry.key := fun e' he' heq =>
            hk (List.mem_map.mpr ⟨e', he', heq⟩)
          simp only [FibOp.routes, hfull, not_false_eq_true, true_and, List.mem_append,
            List.mem_cons] at hnew ⊢
          tauto
        · have hle := length_dup_le (tcamList (A ++ M)) k
          rw [List.length_map] at hle
          exact .inl (h.list.lookup_dup (by omega) ht addr)
    · refine ⟨A ++ d :: C, fun e => ⟨.inl, fun he => he.resolve_right ?_⟩, ?_⟩
      · exact fun hadded => hadded.2.2 d (by simp) hd
      · have hget : s.fibEntries.find? (·.key = (NwDbFibEntry.ofDst routeEntry.dst).key) =
            some (d.atIndex A.length) := hfound
        simp only [FibOp.prog, nwDbAddFibEntry, wp_bind, wp_internalDbGetFibEntry, hget, wp_pure]
        exact ⟨hstart _, h⟩
  | delete routeEntry =>
    obtain ⟨hnone, hk⟩ | ⟨A, d, C, rfl, hd, -⟩ := h.find?_key routeEntry.key
    · refine ⟨l, fun e => ?_, ?_⟩
      · refine ⟨fun he => ⟨he, fun heq => hk (List.mem_map.mpr ⟨e, he, heq⟩)⟩, And.left⟩
      · have hget : s.fibEntries.find? (·.key = (NwDbFibEntry.ofDst routeEntry.dst).key) = none :=
          hnone
        simp only [FibOp.prog, nwDbDeleteFibEntry, wp_bind, wp_internalDbGetFibEntry, hget, wp_pure]
        exact ⟨hstart l, h⟩
    · refine ⟨A ++ C, fun e => ?_, wp_mono (wp_nwDbDeleteFibEntry h hd (hstart _) ?_)
        fun _ _ h' => h'.2⟩
      · rw [FibOp.routes, ← hd]
        exact (h.list.mem_key e).symm
      · intro t k ht addr
        have hle := length_dup_le (tcamList (A ++ C)) k
        have hsize := h.list.size
        rw [List.length_map, List.length_append] at hle
        rw [List.length_append, List.length_cons] at hsize
        exact .inr (h.list.erase.lookup_dup (by omega) ht addr)
  | modify routeEntry =>
    obtain ⟨hnone, hk⟩ | ⟨A, d, C, rfl, hd, -⟩ := h.find?_key routeEntry.key
    · refine ⟨l, fun e => ?_, ?_⟩
      · constructor
        · exact fun he => .inl ⟨he, fun heq => hk (List.mem_map.mpr ⟨e, he, heq⟩)⟩
        · rintro (⟨he, -⟩ | ⟨d, hd, hkey, -⟩)
          · exact he
          · exact absurd (List.mem_map.mpr ⟨d, hd, hkey⟩) hk
      · have hget : s.fibEntries.find? (·.key = (NwDbFibEntry.ofDst routeEntry.dst).key) = none :=
          hnone
        simp only [FibOp.prog, nwDbModifyFibEntry, wp_bind, wp_internalDbGetFibEntry, hget, wp_pure]
        exact ⟨hstart l, h⟩
    · refine ⟨A ++ routeEntry.modified d :: C, fun e => ?_,
        wp_mono (wp_nwDbModifyFibEntry h hd (hstart _)) fun _ _ h' => h'.2⟩
      have hkept := h.list.mem_key e
      have hsame : (∃ d', d' ∈ A ++ d :: C ∧ d'.key = d.key ∧ e = routeEntry.modified d') ↔
          e = routeEntry.modified d := by
        constructor
        · rintro ⟨d', hd', hkey, rfl⟩
          by_cases heq : d' = d
          · rw [heq]
          · exact absurd (List.inj_on_of_nodup_map h.list.keys hd' (by simp) hkey) heq
        · rintro rfl
          exact ⟨d, by simp, rfl, rfl⟩
      rw [FibOp.routes, ← hd, hkept, hsame, List.mem_append, List.mem_cons, List.mem_append]
      tauto

/-- While a change is made, every address is answered with a longest-prefix match of the routes
before it or of the routes after it, and afterwards with one of the routes after it. -/
structure Hitless (s : NwState) (op : FibOp) : Prop where
  inv : FibInv (s.fibStep op)
  routes : ∀ e, (s.fibStep op).HasRoute e ↔
    op.routes (s.fibEntryCount = nwFibTcamMaxSize) s.HasRoute e
  during : ∀ s' ∈ op.prog.states nwHandle s, ∀ addr,
    LongestPrefixMatch s.HasRoute addr (s'.tcamLookup addr) ∨
    LongestPrefixMatch (s.fibStep op).HasRoute addr (s'.tcamLookup addr)
  after : ∀ addr, LongestPrefixMatch (s.fibStep op).HasRoute addr ((s.fibStep op).tcamLookup addr)

theorem fibStep_hitless (h : FibInv s) (op : FibOp) : Hitless s op := by
  obtain ⟨l, hl⟩ := h.fibOf
  obtain ⟨l', hroutes, hwp⟩ := fibOp_spec hl op
  have hl' : FibOf l' (s.fibStep op) := exec_of_wp nwHandle _ op.prog hwp
  have hbefore : s.HasRoute = (· ∈ l) := funext fun e => propext (hl.hasRoute e)
  have hafter : (s.fibStep op).HasRoute = (· ∈ l') := funext fun e => propext (hl'.hasRoute e)
  rw [← hbefore] at hroutes
  refine ⟨hl'.fibInv, fun e => ?_, ?_, fun addr => ?_⟩
  · rw [hl'.hasRoute]
    exact hroutes e
  · intro s' hs' addr
    have hend : op.prog.wp (tcamSpec (Answers l l')) (fun _ s' => Answers l l' s'.tcam) s :=
      wp_mono hwp fun _ s' hs' addr => .inr (hs'.list.lookup hs'.tcam addr)
    have hanswers : Answers l l' s'.tcam := states_of_wp hend s' hs'
    rw [hbefore, hafter, tcamLookup_eq]
    exact hanswers addr
  · rw [hafter, tcamLookup_eq]
    exact hl'.list.lookup hl'.tcam addr

end Ops

theorem fibInv_init : FibInv .init where
  indexes := .nil
  sorted := fun _ he => absurd he List.not_mem_nil
  tcam := fun _ => rfl
  keys := .nil
  maskLength := fun _ he => absurd he List.not_mem_nil
  size := by decide

theorem fibInv_run : ∀ (ops : List FibOp) {s : NwState}, FibInv s →
    FibInv (ops.foldl NwState.fibStep s)
  | [], _, h => h
  | op :: ops, _, h => fibInv_run ops (fibStep_hitless h op).inv

/-- The FIB keeps its invariant along every run, and every change of it is hitless. -/
theorem fib_hitless (ops : List FibOp) :
    FibInv (ops.foldl NwState.fibStep .init) ∧ ∀ s, FibInv s → ∀ op, Hitless s op :=
  ⟨fibInv_run ops fibInv_init, fun _ h op => fibStep_hitless h op⟩

end Alvs
