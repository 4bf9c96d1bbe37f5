import Alvs.Cp.FibTable
import Mathlib.Data.List.Induction

/-!
# Changes of the FIB

`nw_db_add_fib_entry` makes room for a route by moving the shorter prefixes one index up, from
the last one on, and `nw_db_delete_fib_entry` moves the entries after a deleted one down. Each
is proved against `tcamSpec I`, where what the TCAM holds meets `I` whenever a call is issued.
In between one entry of the TCAM is there twice.

`wp_nwDbAddFibEntry`, `wp_nwDbDeleteFibEntry`, `wp_nwDbModifyFibEntry` : the routes afterwards.
-/

namespace Alvs

open ProgLogic Prog

/-- The TCAM meets `I` at each call. -/
abbrev tcamSpec (I : (Nat → Option NwFibTcamEntry) → Prop) : Spec NwCall NwCall.Res NwState :=
  handlerSpec nwHandle fun s _ => I s.tcam

/-- The entries of the TCAM for a list of routes. -/
abbrev tcamList (l : List FibRoute) : List NwFibTcamEntry := l.map (·.tcamEntry)

/-! ## The calls -/

section Calls

variable {I : (Nat → Option NwFibTcamEntry) → Prop} {s : NwState}

@[simp] theorem wp_internalDbAddFibEntry {e : NwDbFibEntry} {Q : Bool → NwState → Prop}
    (h : e.key ∉ s.fibEntries.map (·.key)) :
    (internalDbAddFibEntry e).wp (tcamSpec I) Q s ↔
      I s.tcam ∧ Q true { s with fibEntries := s.fibEntries ++ [e] } := by
  have hnew : ¬ s.fibEntries.any (·.key = e.key) = true := by
    rw [List.any_eq_true]
    rintro ⟨r, hr, hkey⟩
    exact h (List.mem_map.mpr ⟨r, hr, of_decide_eq_true hkey⟩)
  refine (wp_perform_handler _ _ _ _ _).trans ?_
  simp only [nwHandle, if_neg hnew]

@[simp] theorem wp_internalDbModifyFibEntry {e : NwDbFibEntry} {Q : Bool → NwState → Prop} :
    (internalDbModifyFibEntry e).wp (tcamSpec I) Q s ↔
      I s.tcam ∧ Q true { s with fibEntries := s.fibEntries.map e.update } :=
  wp_perform_handler _ _ _ _ _

@[simp] theorem wp_internalDbRemoveFibEntry {e : NwDbFibEntry} {Q : Bool → NwState → Prop} :
    (internalDbRemoveFibEntry e).wp (tcamSpec I) Q s ↔
      I s.tcam ∧ Q true { s with fibEntries := s.fibEntries.filter (·.key ≠ e.key) } :=
  wp_perform_handler _ _ _ _ _

@[simp] theorem wp_internalDbGetFibEntry {e : NwDbFibEntry}
    {Q : Option (Option NwDbFibEntry) → NwState → Prop} :
    (internalDbGetFibEntry e).wp (tcamSpec I) Q s ↔
      I s.tcam ∧ Q (some (s.fibEntries.find? (·.key = e.key))) s :=
  wp_perform_handler _ _ _ _ _

@[simp] theorem wp_selectShorter {maskLength : UInt16}
    {Q : Option (List NwDbFibEntry) → NwState → Prop} :
    (selectShorter maskLength).wp (tcamSpec I) Q s ↔ I s.tcam ∧
      Q (some ((s.fibEntries.filter (·.maskLength < maskLength)).insertionSort
        fun r r' => r'.npsIndex ≤ r.npsIndex)) s :=
  wp_perform_handler _ _ _ _ _

@[simp] theorem wp_selectAbove {npsIndex : UInt16}
    {Q : Option (List NwDbFibEntry) → NwState → Prop} :
    (selectAbove npsIndex).wp (tcamSpec I) Q s ↔ I s.tcam ∧
      Q (some ((s.fibEntries.filter (npsIndex < ·.npsIndex)).insertionSort
        fun r r' => r.npsIndex ≤ r'.npsIndex)) s :=
  wp_perform_handler _ _ _ _ _

@[simp] theorem wp_sqliteStep {Q : Bool → NwState → Prop} :
    sqliteStep.wp (tcamSpec I) Q s ↔ I s.tcam ∧ Q true s :=
  wp_perform_handler _ _ _ _ _

@[simp] theorem wp_getFibEntryCount {Q : UInt32 → NwState → Prop} :
    getFibEntryCount.wp (tcamSpec I) Q s ↔ I s.tcam ∧ Q s.fibEntryCount s :=
  wp_perform_handler _ _ _ _ _

@[simp] theorem wp_setFibEntryCount {count : UInt32} {Q : Unit → NwState → Prop} :
    (setFibEntryCount count).wp (tcamSpec I) Q s ↔
      I s.tcam ∧ Q () { s with fibEntryCount := count } :=
  wp_perform_handler _ _ _ _ _

@[simp] theorem wp_addFibEntryToNps {e : NwDbFibEntry} {Q : Bool → NwState → Prop} :
    (addFibEntryToNps e).wp (tcamSpec I) Q s ↔ I s.tcam ∧
      Q true { s with tcam := Function.update s.tcam e.npsIndex.toNat (some e.tcamEntry) } :=
  wp_perform_handler _ _ _ _ _

@[simp] theorem wp_deleteFibEntryFromNps {e : NwDbFibEntry} {Q : Bool → NwState → Prop} :
    (deleteFibEntryFromNps e).wp (tcamSpec I) Q s ↔ I s.tcam ∧
      Q true { s with tcam := Function.update s.tcam e.npsIndex.toNat none } :=
  wp_perform_handler _ _ _ _ _

end Calls

/-! ## The loops -/

section Moves

variable {I : (Nat → Option NwFibTcamEntry) → Prop} {s : NwState} {l : List FibRoute}

/-- One row is moved. -/
theorem wp_moveEntries_cons (move : UInt16 → UInt16) {x : FibRoute} {i j : Nat}
    (hmove : move (.ofNat i) = .ofNat j) (hj : j < 2 ^ 16) {rows : List NwDbFibEntry}
    {tmp : NwDbFibEntry} {Q : Except NwDbRc NwDbFibEntry → NwState → Prop} (hI : I s.tcam)
    (hI' : I (Function.update s.tcam j (some x.tcamEntry)))
    (hrest : (moveEntries move rows (x.atIndex j)).wp (tcamSpec I) Q
      { s with
        fibEntries := s.fibEntries.map (x.atIndex j).update
        tcam := Function.update s.tcam j (some x.tcamEntry) }) :
    (moveEntries move (x.atIndex i :: rows) tmp).wp (tcamSpec I) Q s := by
  have hrow : { x.atIndex i with npsIndex := move (x.atIndex i).npsIndex } = x.atIndex j := by
    rw [FibRoute.atIndex, FibRoute.atIndex, hmove]
  have hindex : (x.atIndex j).npsIndex.toNat = j := npsIndex_atIndex hj
  rw [moveEntries, hrow]
  simp only [wp_bind, wp_internalDbModifyFibEntry, wp_addFibEntryToNps, wp_sqliteStep, if_true,
    hindex, tcamEntry_atIndex]
  exact ⟨hI, hI, hI', hrest⟩

end Moves

/-! ## Rows of other routes -/

section Rows

variable {A B : List FibRoute} {x : FibRoute}

theorem FibList.key_notMem (h : FibList (A ++ x :: B)) (n m : Nat) :
    x.key ∉ (rowsFrom n A ++ rowsFrom m B).map (·.key) := by
  have hkeys := h.keys
  rw [List.map_append, List.map_cons, List.nodup_middle, List.nodup_cons] at hkeys
  rw [List.map_append, keys_rowsFrom, keys_rowsFrom]
  exact hkeys.1

/-- The row of a prefix gets another index or another result. -/
theorem perm_update {R R' S : List NwDbFibEntry} {d : FibRoute} {i j : Nat} (hd : d.key = x.key)
    (hperm : S.Perm (R ++ d.atIndex i :: R')) (hkey : x.key ∉ (R ++ R').map (·.key)) :
    (S.map (x.atIndex j).update).Perm (R ++ x.atIndex j :: R') := by
  have hself : (x.atIndex j).update (d.atIndex i) = x.atIndex j := by
    have hip : d.destIp = x.destIp := congrArg Prod.fst hd
    have hmask : d.maskLength = x.maskLength := congrArg Prod.snd hd
    rw [NwDbFibEntry.update, key_atIndex, key_atIndex, if_pos hd]
    simp only [FibRoute.atIndex, hip, hmask]
  have hupdate : (R ++ d.atIndex i :: R').map (x.atIndex j).update =
      R ++ (x.atIndex j).update (d.atIndex i) :: R' := map_update_rows _ _ hkey
  rw [hself] at hupdate
  exact (hperm.map _).trans (.of_eq hupdate)

end Rows

/-! ## What the statements select -/

section Select

variable {s : NwState} {l : List FibRoute}

instance : Std.Total fun r r' : NwDbFibEntry => r'.npsIndex ≤ r.npsIndex :=
  ⟨fun r r' => Nat.le_total r'.npsIndex.toNat r.npsIndex.toNat⟩

instance : IsTrans NwDbFibEntry fun r r' => r'.npsIndex ≤ r.npsIndex :=
  ⟨fun _ _ _ h h' => UInt16.le_trans h' h⟩

theorem rowsFrom_sorted {n : Nat} (h : n + l.length ≤ 2 ^ 16) :
    (rowsFrom n l).Pairwise fun r r' => r.npsIndex ≤ r'.npsIndex := by
  have hindexes : ((rowsFrom n l).map (·.npsIndex.toNat)).Pairwise (· < ·) := by
    rw [indexes_rowsFrom n l h]
    exact List.pairwise_lt_range'
  exact (List.pairwise_map.mp hindexes).imp fun hlt => UInt16.le_iff_toNat_le.mpr hlt.le

/-- Rows with the same index are the same. -/
theorem FibOf.row_eq (h : FibOf l s) {r r' : NwDbFibEntry} (hr : r ∈ s.fibEntries)
    (hr' : r' ∈ s.fibEntries) (hidx : r.npsIndex = r'.npsIndex) : r = r' :=
  List.inj_on_of_nodup_map ((h.list.indexes h.rows).nodup_iff.mpr List.nodup_range) hr hr'
    (congrArg UInt16.toNat hidx)

/-- The rows of shorter prefixes, the last one first. -/
theorem FibOf.selectShorter {A M : List FibRoute} {len : UInt16} (h : FibOf (A ++ M) s)
    (hA : ∀ e ∈ A, len ≤ e.maskLength) (hM : ∀ e ∈ M, e.maskLength < len) :
    (s.fibEntries.filter (·.maskLength < len)).insertionSort
      (fun r r' => r'.npsIndex ≤ r.npsIndex) = (rowsFrom A.length M).reverse := by
  have hfilterA : (rowsFrom 0 A).filter (·.maskLength < len) = [] := by
    refine List.filter_eq_nil_iff.mpr fun r hr => ?_
    obtain ⟨i, e, hi, rfl⟩ := mem_rowsFrom.mp hr
    simpa using hA e (List.mem_of_getElem? hi)
  have hfilterM : (rowsFrom A.length M).filter (·.maskLength < len) = rowsFrom A.length M := by
    refine List.filter_eq_self.mpr fun r hr => ?_
    obtain ⟨i, e, hi, rfl⟩ := mem_rowsFrom.mp hr
    exact decide_eq_true (hM e (List.mem_of_getElem? hi))
  have hperm : (s.fibEntries.filter (·.maskLength < len)).Perm (rowsFrom A.length M) := by
    refine (h.rows.filter _).trans (.of_eq ?_)
    rw [rowsFrom_append, List.filter_append, hfilterA, Nat.zero_add, hfilterM, List.nil_append]
  have hsub : ∀ r ∈ rowsFrom A.length M, r ∈ s.fibEntries := fun r hr =>
    List.mem_of_mem_filter (hperm.mem_iff.mpr hr)
  have hsize : A.length + M.length ≤ 2 ^ 16 := by
    have hlt := h.list.rows_lt
    rwa [Nat.zero_add, List.length_append] at hlt
  refine @List.Perm.eq_of_pairwise _ (fun r r' => r'.npsIndex ≤ r.npsIndex) _ _ ?_
    (List.pairwise_insertionSort _ _) (List.pairwise_reverse.mpr (rowsFrom_sorted hsize)) ?_
  · intro r r' hr hr' hle hle'
    have hr := hperm.mem_iff.mp ((List.perm_insertionSort _ _).mem_iff.mp hr)
    exact h.row_eq (hsub r hr) (hsub r' (List.mem_reverse.mp hr')) (UInt16.le_antisymm hle' hle)
  · exact (List.perm_insertionSort _ _).trans (hperm.trans (List.reverse_perm _).symm)

/-- The rows after an entry, in order. -/
theorem FibOf.selectAbove {A C : List FibRoute} {d : FibRoute} (h : FibOf (A ++ d :: C) s) :
    (s.fibEntries.filter ((d.atIndex A.length).npsIndex < ·.npsIndex)).insertionSort
      (fun r r' => r.npsIndex ≤ r'.npsIndex) = rowsFrom (A.length + 1) C := by
  have hsize := h.list.rows_lt
  rw [Nat.zero_add, List.length_append, List.length_cons] at hsize
  have hd : (d.atIndex A.length).npsIndex.toNat = A.length := npsIndex_atIndex (by omega)
  have hfilterA : (rowsFrom 0 (A ++ [d])).filter ((d.atIndex A.length).npsIndex < ·.npsIndex) =
      [] := by
    refine List.filter_eq_nil_iff.mpr fun r hr => ?_
    obtain ⟨i, e, hi, rfl⟩ := mem_rowsFrom.mp hr
    have hlt := (List.getElem?_eq_some_iff.mp hi).1
    rw [List.length_append, List.length_singleton] at hlt
    have hidx : (e.atIndex (0 + i)).npsIndex.toNat = 0 + i := npsIndex_atIndex (by omega)
    rw [decide_eq_true_eq, UInt16.lt_iff_toNat_lt, hd, hidx]
    omega
  have hfilterC : (rowsFrom (A.length + 1) C).filter
      ((d.atIndex A.length).npsIndex < ·.npsIndex) = rowsFrom (A.length + 1) C := by
    refine List.filter_eq_self.mpr fun r hr => ?_
    obtain ⟨i, e, hi, rfl⟩ := mem_rowsFrom.mp hr
    have hlt := (List.getElem?_eq_some_iff.mp hi).1
    have hidx : (e.atIndex (A.length + 1 + i)).npsIndex.toNat = A.length + 1 + i :=
      npsIndex_atIndex (by omega)
    rw [decide_eq_true_eq, UInt16.lt_iff_toNat_lt, hd, hidx]
    omega
  have hperm : (s.fibEntries.filter ((d.atIndex A.length).npsIndex < ·.npsIndex)).Perm
      (rowsFrom (A.length + 1) C) := by
    refine (h.rows.filter _).trans (.of_eq ?_)
    rw [List.append_cons, rowsFrom_append, List.filter_append, hfilterA, Nat.zero_add,
      List.length_append, List.length_singleton, hfilterC, List.nil_append]
  have hsub : ∀ r ∈ rowsFrom (A.length + 1) C, r ∈ s.fibEntries := fun r hr =>
    List.mem_of_mem_filter (hperm.mem_iff.mpr hr)
  refine @List.Perm.eq_of_pairwise _ (fun r r' => r.npsIndex ≤ r'.npsIndex) _ _ ?_
    (List.pairwise_insertionSort _ _) (rowsFrom_sorted (by omega)) ?_
  · intro r r' hr hr' hle hle'
    have hr := hperm.mem_iff.mp ((List.perm_insertionSort _ _).mem_iff.mp hr)
    exact h.row_eq (hsub r hr) (hsub r' hr') (UInt16.le_antisymm hle hle')
  · exact (List.perm_insertionSort _ _).trans hperm

end Select

/-! ## Room for a new entry -/

/-- The routes of `A` are at their positions, those of `B` one index up. -/
structure PushedUp (A B : List FibRoute) (s : NwState) : Prop where
  rows : s.fibEntries.Perm (rowsFrom 0 A ++ rowsFrom (A.length + 1) B)
  count : s.fibEntryCount.toNat = (A ++ B).length
  tcam : Lists s.tcam (dup (tcamList (A ++ B)) A.length)

section Up

variable {I : (Nat → Option NwFibTcamEntry) → Prop} {s : NwState}

/-- The routes of `M` are moved up, the last one first. -/
theorem wp_moveUp {A : List FibRoute} : ∀ (M B : List FibRoute) {s : NwState} {tmp : NwDbFibEntry},
    FibList (A ++ M ++ B) → (A ++ M ++ B).length < nwFibTcamMaxSize.toNat →
    (∀ t k, Lists t (dup (tcamList (A ++ M ++ B)) k) → I t) → PushedUp (A ++ M) B s →
    (M = [] → tmp.npsIndex = .ofNat (A.length + 1)) →
    (moveEntries (· + 1) (rowsFrom A.length M).reverse tmp).wp (tcamSpec I) (fun r s' =>
      ∃ last : NwDbFibEntry, r = .ok last ∧ PushedUp A (M ++ B) s' ∧
        last.npsIndex = .ofNat (A.length + 1)) s := by
  intro M
  induction M using List.reverseRecOn with
  | nil =>
    intro B s tmp _ _ _ h htmp
    rw [List.append_nil] at h
    exact ⟨tmp, rfl, h, htmp rfl⟩
  | append_singleton M x ih =>
    intro B s tmp hl hsize hI h _
    have hlist : A ++ (M ++ [x]) ++ B = A ++ M ++ x :: B := by simp
    have hmax : nwFibTcamMaxSize.toNat = 8192 := rfl
    have hindex : (A ++ M).length = A.length + M.length := List.length_append
    rw [hlist] at hl hsize hI
    have hlen : (A ++ M ++ x :: B).length = (A ++ M).length + (B.length + 1) := List.length_append
    have hlength : (A ++ (M ++ [x])).length = (A ++ M).length + 1 := by
      rw [← List.append_assoc, List.length_append, List.length_singleton]
    have htcam : Lists s.tcam (dup (tcamList (A ++ M ++ x :: B)) ((A ++ M).length + 1)) := by
      have hcopy := h.tcam
      rwa [hlist, hlength] at hcopy
    have hentry : (tcamList (A ++ M ++ x :: B))[(A ++ M).length]? = some x.tcamEntry := by
      simp [tcamList]
    have hwritten := htcam.write_up hentry
    have hrow : (rowsFrom A.length (M ++ [x])).reverse =
        x.atIndex (A ++ M).length :: (rowsFrom A.length M).reverse := by
      rw [rowsFrom_append, List.reverse_append, hindex]
      rfl
    have hmove : UInt16.ofNat (A ++ M).length + 1 = .ofNat ((A ++ M).length + 1) :=
      (UInt16.ofNat_add _ 1).symm
    have hrows : s.fibEntries.Perm (rowsFrom 0 (A ++ M) ++ x.atIndex (A ++ M).length ::
        rowsFrom ((A ++ M).length + 1 + 1) B) := by
      have hperm := h.rows
      rwa [hlength, ← List.append_assoc, rowsFrom_append, List.append_assoc, Nat.zero_add] at hperm
    rw [hrow]
    refine wp_moveEntries_cons (· + 1) hmove (by omega) (hI _ _ htcam) (hI _ _ hwritten) ?_
    have hpushed : PushedUp (A ++ M) (x :: B)
        { s with
          fibEntries := s.fibEntries.map (x.atIndex ((A ++ M).length + 1)).update
          tcam := Function.update s.tcam ((A ++ M).length + 1) (some x.tcamEntry) } := by
      refine ⟨perm_update rfl hrows (hl.key_notMem _ _), ?_, hwritten⟩
      rw [← hlist]
      exact h.count
    have hlast : M = [] → (x.atIndex ((A ++ M).length + 1)).npsIndex = .ofNat (A.length + 1) := by
      rintro rfl
      rw [List.append_nil]
      rfl
    have hrest := ih (x :: B) hl hsize hI hpushed hlast
    rwa [List.append_cons] at hrest

theorem wp_fibReorderPushEntriesUp {A M : List FibRoute} {e : NwDbFibEntry} (h : FibOf (A ++ M) s)
    (hsize : (A ++ M).length < nwFibTcamMaxSize.toNat) (hA : ∀ x ∈ A, e.maskLength ≤ x.maskLength)
    (hM : ∀ x ∈ M, x.maskLength < e.maskLength)
    (hI : ∀ t k, Lists t (dup (tcamList (A ++ M)) k) → I t) :
    (fibReorderPushEntriesUp e).wp (tcamSpec I) (fun r s' =>
      r = .ok { e with npsIndex := .ofNat A.length } ∧ PushedUp A M s') s := by
  have htcam : Lists s.tcam (dup (tcamList (A ++ M)) (tcamList (A ++ M)).length) := by
    rw [dup_length]
    exact h.tcam
  have hstart : PushedUp (A ++ M) [] s := by
    refine ⟨?_, ?_, ?_⟩
    · rw [rowsFrom, List.append_nil]
      exact h.rows
    · rw [List.append_nil]
      exact h.count
    · simpa using htcam
  have hIs : I s.tcam := hI _ _ htcam
  simp only [fibReorderPushEntriesUp, wp_bind, wp_selectShorter, h.selectShorter hA hM]
  refine ⟨hIs, ?_⟩
  cases hrows : (rowsFrom A.length M).reverse with
  | nil =>
    obtain rfl : M = [] := by
      cases M with
      | nil => rfl
      | cons x M => simp [rowsFrom] at hrows
    rw [List.append_nil] at hstart
    simp only [wp_bind, wp_getFibEntryCount, wp_pure]
    refine ⟨hIs, ?_, hstart⟩
    have hcount : s.fibEntryCount.toUInt16 = .ofNat A.length := by
      have hlen := hstart.count
      rw [List.append_nil] at hlen
      rw [← hlen]
      rfl
    rw [hcount]
  | cons row rows =>
    have hne : M ≠ [] := by
      rintro rfl
      cases hrows
    have hmoved := @wp_moveUp I A M [] s .zero (by rw [List.append_nil]; exact h.list)
      (by rw [List.append_nil]; exact hsize) (by rw [List.append_nil]; exact hI) hstart
      fun hnil => absurd hnil hne
    rw [hrows, List.append_nil] at hmoved
    refine wp_bind_of hmoved ?_
    rintro r s' ⟨last, rfl, hpushed, hlast⟩
    refine ⟨?_, hpushed⟩
    rw [hlast, UInt16.ofNat_add]
    simp

end Up

/-! ## The gap of a deleted entry -/

/-- The routes of `B` are moved down over the one of `d`, those of `C` not yet. The row of `d`
keeps its index. -/
structure PulledDown (A : List FibRoute) (d : FibRoute) (B C : List FibRoute) (s : NwState) :
    Prop where
  rows : s.fibEntries.Perm (rowsFrom 0 A ++ d.atIndex A.length :: (rowsFrom A.length B ++
    rowsFrom (A.length + B.length + 1) C))
  count : s.fibEntryCount.toNat = (A ++ d :: B ++ C).length
  tcam : Lists s.tcam (dup (tcamList (A ++ B ++ C)) (A.length + B.length - 1))

section Down

variable {I : (Nat → Option NwFibTcamEntry) → Prop} {s : NwState}

/-- The next route is moved. -/
theorem wp_moveDown_cons {A : List FibRoute} {d x : FibRoute} {B C : List FibRoute}
    (hl : FibList (A ++ d :: B ++ x :: C))
    (hrows : s.fibEntries.Perm (rowsFrom 0 A ++ d.atIndex A.length :: (rowsFrom A.length B ++
      rowsFrom (A.length + B.length + 1) (x :: C))))
    (hcount : s.fibEntryCount.toNat = (A ++ d :: B ++ x :: C).length)
    (hwritten : Lists (Function.update s.tcam (A.length + B.length) (some x.tcamEntry))
      (dup (tcamList (A ++ B ++ x :: C)) (A.length + B.length))) {tmp : NwDbFibEntry}
    {Q : Except NwDbRc NwDbFibEntry → NwState → Prop} (hI : I s.tcam)
    (hI' : ∀ t k, Lists t (dup (tcamList (A ++ B ++ x :: C)) k) → I t)
    (hrest : ∀ s', PulledDown A d (B ++ [x]) C s' → (moveEntries (· - 1)
      (rowsFrom (A.length + B.length + 2) C) (x.atIndex (A.length + B.length))).wp (tcamSpec I)
        Q s') :
    (moveEntries (· - 1) (rowsFrom (A.length + B.length + 1) (x :: C)) tmp).wp (tcamSpec I) Q
      s := by
  have hmax : nwFibTcamMaxSize.toNat = 8192 := rfl
  have hsize := hl.size
  have hlen : (A ++ d :: B ++ x :: C).length = A.length + (B.length + 1) + (C.length + 1) := by
    simp only [List.length_append, List.length_cons]
  have hmove : UInt16.ofNat (A.length + B.length + 1) - 1 = .ofNat (A.length + B.length) := by
    rw [UInt16.ofNat_add]
    simp
  have hlist : A ++ (B ++ [x]) ++ C = A ++ B ++ x :: C := by simp
  refine wp_moveEntries_cons (· - 1) hmove (by omega) hI (hI' _ _ hwritten) (hrest _ ⟨?_, ?_, ?_⟩)
  · have hkeys := hl.keys
    rw [List.map_append, List.map_cons, List.nodup_middle, List.nodup_cons] at hkeys
    have hkey : x.key ∉ (rowsFrom 0 A ++ d.atIndex A.length :: rowsFrom A.length B ++
        rowsFrom (A.length + B.length + 1 + 1) C).map (·.key) := by
      simpa only [List.map_append, List.map_cons, keys_rowsFrom, key_atIndex] using hkeys.1
    have hperm := @perm_update x (rowsFrom 0 A ++ d.atIndex A.length :: rowsFrom A.length B) _
      s.fibEntries x _ (A.length + B.length) rfl (by simpa [rowsFrom] using hrows) hkey
    rw [rowsFrom_append, List.length_append, List.length_singleton, ← Nat.add_assoc A.length]
    simpa [rowsFrom] using hperm
  · refine hcount.trans ?_
    simp only [List.length_append, List.length_cons, List.length_nil]
    omega
  · have hindex : A.length + (B ++ [x]).length - 1 = A.length + B.length := by
      rw [List.length_append, List.length_singleton]
      omega
    rw [hlist, hindex]
    exact hwritten

/-- The routes of `C` are moved down, the first one first. -/
theorem wp_moveDown {A : List FibRoute} {d : FibRoute} : ∀ (C B : List FibRoute) {s : NwState}
    {tmp : NwDbFibEntry}, B ≠ [] → FibList (A ++ d :: B ++ C) →
    (∀ t k, Lists t (dup (tcamList (A ++ B ++ C)) k) → I t) → PulledDown A d B C s →
    (moveEntries (· - 1) (rowsFrom (A.length + B.length + 1) C) tmp).wp (tcamSpec I) (fun r s' =>
      ∃ last : NwDbFibEntry, r = .ok last ∧ PulledDown A d (B ++ C) [] s') s
  | [], B, s, tmp, _, _, _, h => by
    rw [List.append_nil]
    exact ⟨tmp, rfl, h⟩
  | x :: C, B, s, tmp, hB, hl, hI, h => by
    have hpos : 0 < B.length := List.length_pos_iff.mpr hB
    have hentry : (tcamList (A ++ B ++ x :: C))[A.length + B.length - 1 + 1]? =
        some x.tcamEntry := by
      have hindex : A.length + B.length - 1 + 1 = (tcamList (A ++ B)).length := by
        rw [List.length_map, List.length_append]
        omega
      rw [tcamList, List.map_append, hindex]
      simp
    have hwritten := h.tcam.write_down hentry
    have hindex : A.length + B.length - 1 + 1 = A.length + B.length := by omega
    rw [hindex] at hwritten
    refine wp_moveDown_cons hl h.rows h.count hwritten (hI _ _ h.tcam) hI fun s' h' => ?_
    have hlist : A ++ d :: (B ++ [x]) ++ C = A ++ d :: B ++ x :: C := by simp
    have hlist' : A ++ (B ++ [x]) ++ C = A ++ B ++ x :: C := by simp
    have hstart : A.length + (B ++ [x]).length + 1 = A.length + B.length + 2 := by
      rw [List.length_append, List.length_singleton]
      omega
    have hrest := @wp_moveDown A d C (B ++ [x]) s' (x.atIndex (A.length + B.length)) (by simp)
      (by rw [hlist]; exact hl) (by rw [hlist']; exact hI) h'
    rwa [hstart, ← List.append_cons] at hrest

theorem wp_fibReorderPushEntriesDown {A C : List FibRoute} {d : FibRoute}
    (h : FibOf (A ++ d :: C) s) (hC : C ≠ []) (hI : I s.tcam)
    (hI' : ∀ t k, Lists t (dup (tcamList (A ++ C)) k) → I t) :
    (fibReorderPushEntriesDown (d.atIndex A.length)).wp (tcamSpec I) (fun r s' =>
      r = .ok (d.atIndex (A ++ C).length) ∧ PulledDown A d C [] s') s := by
  simp only [fibReorderPushEntriesDown, wp_bind, wp_selectAbove, h.selectAbove]
  refine ⟨hI, ?_⟩
  cases C with
  | nil => exact absurd rfl hC
  | cons x C =>
    have hlist : A ++ [d] ++ x :: C = A ++ d :: x :: C := by simp
    have hentry : (tcamList (A ++ d :: x :: C))[A.length + 1]? = some x.tcamEntry := by
      have hindex : A.length + 1 = (tcamList (A ++ [d])).length := by simp
      rw [← hlist, tcamList, List.map_append, hindex]
      simp
    have herase : (tcamList (A ++ d :: x :: C)).eraseIdx A.length = tcamList (A ++ x :: C) := by
      have hindex : A.length = (tcamList A).length := (List.length_map _).symm
      rw [tcamList, List.map_append, hindex, List.eraseIdx_append_of_length_le (Nat.le_refl _),
        Nat.sub_self]
      simp
    have hwritten := h.tcam.write_over hentry
    rw [herase] at hwritten
    have hrows : s.fibEntries.Perm (rowsFrom 0 A ++ d.atIndex A.length ::
        rowsFrom (A.length + 1) (x :: C)) := by
      have hperm := h.rows
      rwa [rowsFrom_append, Nat.zero_add] at hperm
    have hmoved : (moveEntries (· - 1) (rowsFrom (A.length + 1) (x :: C)) .zero).wp (tcamSpec I)
        (fun r s' => ∃ last : NwDbFibEntry, r = .ok last ∧ PulledDown A d (x :: C) [] s') s := by
      refine @wp_moveDown_cons I s A d x [] C (by rw [hlist]; exact h.list) hrows
        (by rw [hlist]; exact h.count) (by rw [List.append_nil]; exact hwritten) _ _ hI
        (by rw [List.append_nil]; exact hI') fun s' h' => ?_
      have hlist' : A ++ d :: [x] ++ C = A ++ d :: x :: C := by simp
      exact @wp_moveDown I A d C [x] s' _ (by simp) (by rw [hlist']; exact h.list)
        (by rw [List.append_assoc]; exact hI') h'
    refine wp_mono hmoved ?_
    rintro r s' ⟨last, rfl, hpulled⟩
    simp only [wp_bind, wp_getFibEntryCount, wp_pure]
    have htcam := hpulled.tcam
    rw [List.append_nil] at htcam
    have hcount : (s'.fibEntryCount - 1).toUInt16 = .ofNat (A ++ x :: C).length := by
      have hlen := hpulled.count
      simp only [List.append_nil, List.length_append, List.length_cons] at hlen
      have hcountEq : s'.fibEntryCount = .ofNat ((A ++ x :: C).length + 1) := by
        rw [← UInt32.ofNat_toNat (x := s'.fibEntryCount), hlen, List.length_append,
          List.length_cons]
        rfl
      rw [hcountEq, UInt32.ofNat_add]
      simp
    refine ⟨hI' _ _ htcam, ?_, hpulled⟩
    rw [hcount]
    rfl

end Down

/-! ## The functions -/

/-- The entry that a route gets. -/
def RtnlRoute.fibRoute (routeEntry : RtnlRoute) : FibRoute :=
  (setFibParams routeEntry (.ofDst routeEntry.dst)).route

/-- The prefix of a route. -/
def RtnlRoute.key (routeEntry : RtnlRoute) : UInt32 × UInt16 :=
  (NwDbFibEntry.ofDst routeEntry.dst).key

section Functions

variable {I : (Nat → Option NwFibTcamEntry) → Prop} {s : NwState} {routeEntry : RtnlRoute}

/-- `set_fib_params` leaves the prefix and the index. -/
theorem setFibParams_key (e : NwDbFibEntry) : (setFibParams routeEntry e).key = e.key ∧
    (setFibParams routeEntry e).npsIndex = e.npsIndex := by
  unfold setFibParams
  split
  · split
    · exact ⟨rfl, rfl⟩
    · split <;> exact ⟨rfl, rfl⟩
  · exact ⟨rfl, rfl⟩

theorem fibRoute_key (routeEntry : RtnlRoute) : routeEntry.fibRoute.key = routeEntry.key :=
    (setFibParams_key _).1

theorem fibRoute_maskLength : routeEntry.fibRoute.maskLength.toNat = routeEntry.dst.prefixlen := by
  have hkey : routeEntry.fibRoute.maskLength = .ofNat routeEntry.dst.prefixlen :=
    congrArg Prod.snd (fibRoute_key routeEntry)
  have hlen := routeEntry.dst.prefixlen_le
  rw [hkey]
  exact Nat.mod_eq_of_lt (by omega)

/-- The row of a prefix. -/
theorem FibOf.find?_key {l : List FibRoute} (h : FibOf l s) (k : UInt32 × UInt16) :
    s.fibEntries.find? (·.key = k) = none ∧ k ∉ l.map (·.key) ∨
    ∃ A d C, l = A ++ d :: C ∧ d.key = k ∧
      s.fibEntries.find? (·.key = k) = some (d.atIndex A.length) := by
  by_cases hk : k ∈ l.map (·.key)
  · obtain ⟨d, hd, rfl⟩ := List.mem_map.mp hk
    obtain ⟨A, C, rfl⟩ := List.append_of_mem hd
    have hmem : d.atIndex A.length ∈ s.fibEntries :=
      (mem_rows_iff h.rows).mpr ⟨A.length, d, by simp, rfl⟩
    exact .inr ⟨A, d, C, rfl, rfl, find?_of_nodup_map h.fibInv.keys hmem⟩
  · refine .inl ⟨List.find?_eq_none.mpr fun r hr hrk => hk ?_, hk⟩
    obtain ⟨i, e, hi, rfl⟩ := (mem_rows_iff h.rows).mp hr
    exact List.mem_map.mpr ⟨e, List.mem_of_getElem? hi, of_decide_eq_true hrk⟩

/-- A list of routes is cut where a prefix of length `len` belongs. -/
theorem exists_cut (len : UInt16) : ∀ {l : List FibRoute},
    l.Pairwise (fun e e' => e'.maskLength.toNat ≤ e.maskLength.toNat) →
    ∃ A M, l = A ++ M ∧ (∀ e ∈ A, len ≤ e.maskLength) ∧ ∀ e ∈ M, e.maskLength < len
  | [], _ => ⟨[], [], rfl, by simp, by simp⟩
  | e :: l, h => by
    obtain ⟨he, hl⟩ := List.pairwise_cons.mp h
    by_cases hlen : len ≤ e.maskLength
    · obtain ⟨A, M, rfl, hA, hM⟩ := exists_cut len hl
      exact ⟨e :: A, M, rfl, List.forall_mem_cons.mpr ⟨hlen, hA⟩, hM⟩
    · have hlt : e.maskLength < len := UInt16.not_le.mp hlen
      refine ⟨[], e :: l, rfl, by simp, List.forall_mem_cons.mpr ⟨hlt, fun e' he' => ?_⟩⟩
      exact UInt16.lt_of_le_of_lt (UInt16.le_iff_toNat_le.mpr (he e' he')) hlt

theorem FibList.insert {A M : List FibRoute} {e : FibRoute} (h : FibList (A ++ M))
    (hA : ∀ x ∈ A, e.maskLength ≤ x.maskLength) (hM : ∀ x ∈ M, x.maskLength < e.maskLength)
    (hlen : e.maskLength.toNat ≤ 32) (hkey : e.key ∉ (A ++ M).map (·.key))
    (hsize : (A ++ M).length < nwFibTcamMaxSize.toNat) : FibList (A ++ e :: M) := by
  obtain ⟨hsortedA, hsortedM, hAM⟩ := List.pairwise_append.mp h.sorted
  refine ⟨List.pairwise_append.mpr ⟨hsortedA, List.pairwise_cons.mpr ⟨?_, hsortedM⟩, ?_⟩, ?_,
    ?_, ?_⟩
  · exact fun x hx => (UInt16.lt_iff_toNat_lt.mp (hM x hx)).le
  · intro x hx y hy
    rcases List.mem_cons.mp hy with rfl | hy
    · exact UInt16.le_iff_toNat_le.mp (hA x hx)
    · exact hAM x hx y hy
  · have hkeys := h.keys
    rw [List.map_append] at hkeys hkey
    rw [List.map_append, List.map_cons, List.nodup_middle, List.nodup_cons]
    exact ⟨hkey, hkeys⟩
  · intro x hx
    rcases List.mem_append.mp hx with hx | hx
    · exact h.maskLength x (List.mem_append_left _ hx)
    · rcases List.mem_cons.mp hx with rfl | hx
      · exact hlen
      · exact h.maskLength x (List.mem_append_right _ hx)
  · rw [List.length_append, List.length_cons]
    rw [List.length_append] at hsize
    omega

theorem FibList.erase {A C : List FibRoute} {d : FibRoute} (h : FibList (A ++ d :: C)) :
    FibList (A ++ C) := by
  have hsub : (A ++ C).Sublist (A ++ d :: C) := (List.sublist_cons_self d C).append_left A
  exact ⟨h.sorted.sublist hsub, h.keys.sublist (hsub.map _),
    fun e he => h.maskLength e (hsub.subset he), hsub.length_le.trans h.size⟩

theorem wp_nwDbAddFibEntry {A M : List FibRoute} (h : FibOf (A ++ M) s)
    (hnew : routeEntry.key ∉ (A ++ M).map (·.key))
    (hsize : (A ++ M).length < nwFibTcamMaxSize.toNat)
    (hA : ∀ x ∈ A, routeEntry.fibRoute.maskLength ≤ x.maskLength)
    (hM : ∀ x ∈ M, x.maskLength < routeEntry.fibRoute.maskLength)
    (hI : ∀ t k, Lists t (dup (tcamList (A ++ M)) k) → I t)
    (hI' : ∀ t, Lists t (tcamList (A ++ routeEntry.fibRoute :: M)) → I t) :
    (nwDbAddFibEntry routeEntry true).wp (tcamSpec I) (fun rc s' =>
      rc = .ok ∧ FibOf (A ++ routeEntry.fibRoute :: M) s') s := by
  have hIs : I s.tcam := hI _ (tcamList (A ++ M)).length (by rw [dup_length]; exact h.tcam)
  have hfind : s.fibEntries.find? (·.key = (NwDbFibEntry.ofDst routeEntry.dst).key) = none := by
    obtain ⟨hnone, -⟩ | ⟨A', d, C, hl, hd, -⟩ := h.find?_key routeEntry.key
    · exact hnone
    · exact absurd (List.mem_map.mpr ⟨d, by simp [hl], hd⟩) hnew
  have hfull : s.fibEntryCount ≠ nwFibTcamMaxSize := by
    intro hmax
    have hcount := h.count
    rw [hmax] at hcount
    omega
  simp only [nwDbAddFibEntry, wp_bind, wp_internalDbGetFibEntry, hfind, wp_getFibEntryCount,
    if_neg hfull, if_true]
  refine ⟨hIs, hIs, wp_mono (wp_fibReorderPushEntriesUp h hsize hA hM hI) ?_⟩
  rintro r s₁ ⟨rfl, hpushed⟩
  have hrow : { setFibParams routeEntry (.ofDst routeEntry.dst) with
      npsIndex := .ofNat A.length } = routeEntry.fibRoute.atIndex A.length := rfl
  have hI₁ := hI _ _ hpushed.tcam
  have hlen : (A ++ M).length = A.length + M.length := List.length_append
  have hmax : nwFibTcamMaxSize.toNat = 8192 := rfl
  have hindex : (routeEntry.fibRoute.atIndex A.length).npsIndex.toNat = A.length :=
    npsIndex_atIndex (by omega)
  have hkey : (routeEntry.fibRoute.atIndex A.length).key ∉ s₁.fibEntries.map (·.key) := by
    rw [key_atIndex, fibRoute_key, (hpushed.rows.map _).mem_iff, List.map_append, keys_rowsFrom,
      keys_rowsFrom, ← List.map_append]
    exact hnew
  have hinserted := hpushed.tcam.insert (x := routeEntry.fibRoute.tcamEntry) (by simp)
  have htcam : Lists (Function.update s₁.tcam A.length (some routeEntry.fibRoute.tcamEntry))
      (tcamList (A ++ routeEntry.fibRoute :: M)) := by
    simpa [tcamList] using hinserted
  simp only [hrow, wp_bind, wp_internalDbAddFibEntry hkey, if_true, wp_addFibEntryToNps, hindex,
    tcamEntry_atIndex, wp_getFibEntryCount, wp_setFibEntryCount, wp_pure]
  refine ⟨hI₁, hI₁, hI' _ htcam, hI' _ htcam, trivial, ?_, ?_, ?_, htcam⟩
  · refine h.list.insert hA hM ?_ (by rwa [fibRoute_key]) hsize
    rw [fibRoute_maskLength]
    exact routeEntry.dst.prefixlen_le
  · rw [rowsFrom_append, Nat.zero_add]
    exact (hpushed.rows.append_right _).trans
      ((List.perm_append_singleton _ _).trans List.perm_middle.symm)
  · have hcount := hpushed.count
    rw [UInt32.toNat_add, hcount, List.length_append, List.length_append, List.length_cons]
    have hone : (1 : UInt32).toNat = 1 := rfl
    omega

/-- The row of `d` and the last entry of the TCAM are deleted. -/
theorem FibList.deleteLast {A C : List FibRoute} {d : FibRoute} (hl : FibList (A ++ d :: C))
    (hrows : s.fibEntries.Perm (rowsFrom 0 A ++ d.atIndex A.length :: rowsFrom A.length C))
    (hcount : s.fibEntryCount.toNat = (A ++ C).length + 1) {x : NwFibTcamEntry}
    (htcam : Lists s.tcam (tcamList (A ++ C) ++ [x])) :
    FibOf (A ++ C)
      { fibEntries := s.fibEntries.filter (·.key ≠ d.key)
        fibEntryCount := s.fibEntryCount - 1
        tcam := Function.update s.tcam (A ++ C).length none } := by
  refine ⟨hl.erase, ?_, ?_, ?_⟩
  · have hkey := hl.key_notMem 0 A.length
    have hkept (R : List NwDbFibEntry) (hR : ∀ r ∈ R, r ∈ rowsFrom 0 A ++ rowsFrom A.length C) :
        R.filter (·.key ≠ d.key) = R :=
      List.filter_eq_self.mpr fun r hr => decide_eq_true fun heq =>
        hkey (List.mem_map.mpr ⟨r, hR r hr, heq⟩)
    have hfilter : (rowsFrom 0 A ++ d.atIndex A.length :: rowsFrom A.length C).filter
        (·.key ≠ d.key) = rowsFrom 0 (A ++ C) := by
      rw [List.filter_append, List.filter_cons_of_neg (by simp),
        hkept _ fun r hr => List.mem_append_left _ hr,
        hkept _ fun r hr => List.mem_append_right _ hr, rowsFrom_append, Nat.zero_add]
    exact hfilter ▸ hrows.filter _
  · have hone : (1 : UInt32).toNat = 1 := rfl
    rw [UInt32.toNat_sub_of_le _ _ (UInt32.le_iff_toNat_le.mpr (by omega)), hcount]
    rfl
  · have hpopped := htcam.pop
    rwa [List.length_map] at hpopped

/-- Once the entries after the deleted one are moved. -/
theorem wp_removeLastEntry {A C : List FibRoute} {d : FibRoute} (hl : FibList (A ++ d :: C))
    (hrows : s.fibEntries.Perm (rowsFrom 0 A ++ d.atIndex A.length :: rowsFrom A.length C))
    (hcount : s.fibEntryCount.toNat = (A ++ C).length + 1) {x : NwFibTcamEntry}
    (htcam : Lists s.tcam (tcamList (A ++ C) ++ [x])) (hI : I s.tcam) :
    (removeLastEntry (d.atIndex (A ++ C).length)).wp (tcamSpec I) (fun rc s' =>
      rc = .ok ∧ FibOf (A ++ C) s') s := by
  have hmax : nwFibTcamMaxSize.toNat = 8192 := rfl
  have hsize := hl.size
  rw [List.length_append, List.length_cons] at hsize
  have hindex : (d.atIndex (A ++ C).length).npsIndex.toNat = (A ++ C).length :=
    npsIndex_atIndex (by rw [List.length_append]; omega)
  simp only [removeLastEntry, wp_bind, wp_getFibEntryCount, wp_setFibEntryCount,
    wp_internalDbRemoveFibEntry, if_true, wp_deleteFibEntryFromNps, wp_pure, hindex, key_atIndex]
  exact ⟨hI, hI, hI, hI, trivial, hl.deleteLast hrows hcount htcam⟩

theorem wp_nwDbDeleteFibEntry {A C : List FibRoute} {d : FibRoute} (h : FibOf (A ++ d :: C) s)
    (hd : d.key = routeEntry.key) (hI : I s.tcam)
    (hI' : ∀ t k, Lists t (dup (tcamList (A ++ C)) k) → I t) :
    (nwDbDeleteFibEntry routeEntry).wp (tcamSpec I) (fun rc s' =>
      rc = .ok ∧ FibOf (A ++ C) s') s := by
  have hmax : nwFibTcamMaxSize.toNat = 8192 := rfl
  have hone : (1 : UInt32).toNat = 1 := rfl
  have hsize := h.list.size
  have hcount := h.count
  rw [List.length_append, List.length_cons] at hsize hcount
  have hfind : s.fibEntries.find? (·.key = (NwDbFibEntry.ofDst routeEntry.dst).key) =
      some (d.atIndex A.length) := by
    have hmem : d.atIndex A.length ∈ s.fibEntries :=
      (mem_rows_iff h.rows).mpr ⟨A.length, d, by simp, rfl⟩
    have hfound := find?_of_nodup_map h.fibInv.keys hmem
    rwa [key_atIndex, hd] at hfound
  have hindex : (d.atIndex A.length).npsIndex.toUInt32.toNat = A.length := by
    rw [UInt16.toNat_toUInt32, npsIndex_atIndex (by omega)]
  have hlast : (s.fibEntryCount - 1).toNat = A.length + C.length := by
    rw [UInt32.toNat_sub_of_le _ _ (UInt32.le_iff_toNat_le.mpr (by omega)), hcount]
    rfl
  unfold nwDbDeleteFibEntry
  simp only [wp_bind, wp_internalDbGetFibEntry, hfind, wp_getFibEntryCount]
  refine ⟨hI, hI, ?_⟩
  by_cases hC : C = []
  · subst hC
    have hsame : (d.atIndex A.length).npsIndex.toUInt32 = s.fibEntryCount - 1 :=
      UInt32.toNat_inj.mp (hindex.trans hlast.symm)
    have hrows : s.fibEntries.Perm (rowsFrom 0 A ++ [d.atIndex A.length]) := by
      have hperm := h.rows
      rwa [rowsFrom_append, Nat.zero_add] at hperm
    have htcam : Lists s.tcam (tcamList (A ++ []) ++ [d.tcamEntry]) := by
      have hlists := h.tcam
      rwa [List.map_append, ← List.append_nil A] at hlists
    have hremoved := wp_removeLastEntry (I := I) h.list hrows
      (by rw [hcount, List.append_nil]; rfl) htcam hI
    have hlength : (A ++ ([] : List FibRoute)).length = A.length := by rw [List.append_nil]
    rw [hlength] at hremoved
    simp only [hsame, ne_eq, not_true_eq_false, if_false]
    exact hremoved
  · have hne : (d.atIndex A.length).npsIndex.toUInt32 ≠ s.fibEntryCount - 1 := by
      intro heq
      have hlen := congrArg UInt32.toNat heq
      rw [hindex, hlast] at hlen
      exact hC (List.length_eq_zero_iff.mp (by omega))
    simp only [hne, ne_eq, not_false_eq_true, if_true]
    refine wp_bind_of (wp_fibReorderPushEntriesDown h hC hI hI') ?_
    rintro r s₁ ⟨rfl, hpulled⟩
    have hcount₁ : s₁.fibEntryCount.toNat = (A ++ C).length + 1 := by
      have hlen := hpulled.count
      simp only [List.append_nil, List.length_append, List.length_cons] at hlen ⊢
      omega
    have hrows : s₁.fibEntries.Perm
        (rowsFrom 0 A ++ d.atIndex A.length :: rowsFrom A.length C) := by
      have hperm := hpulled.rows
      rwa [rowsFrom, List.append_nil] at hperm
    have htcam := hpulled.tcam
    rw [List.append_nil] at htcam
    have hpos : 0 < C.length := List.length_pos_iff.mpr hC
    have hlength : (tcamList (A ++ C)).length = A.length + C.length := by
      rw [List.length_map, List.length_append]
    obtain ⟨x, hx⟩ : ∃ x, (tcamList (A ++ C))[A.length + C.length - 1]? = some x :=
      ⟨_, List.getElem?_eq_getElem (by omega)⟩
    have hlists := htcam
    rw [dup_last hx (by omega)] at hlists
    exact wp_removeLastEntry h.list hrows hcount₁ hlists (hI' _ _ htcam)

/-- The route `d` with the result of another route to its prefix. -/
def RtnlRoute.modified (routeEntry : RtnlRoute) (d : FibRoute) : FibRoute :=
  (setFibParams routeEntry (d.atIndex 0)).route

theorem setFibParams_atIndex (d : FibRoute) (i : Nat) :
    setFibParams routeEntry (d.atIndex i) = (routeEntry.modified d).atIndex i := by
  unfold RtnlRoute.modified setFibParams
  split
  · split
    · rfl
    · split <;> rfl
  · rfl

theorem modified_key (routeEntry : RtnlRoute) (d : FibRoute) : (routeEntry.modified d).key =
    d.key :=
  (setFibParams_key (d.atIndex 0)).1

theorem FibList.replace {A C : List FibRoute} {d e : FibRoute} (h : FibList (A ++ d :: C))
    (hkey : e.key = d.key) : FibList (A ++ e :: C) := by
  have hmask : e.maskLength = d.maskLength := congrArg Prod.snd hkey
  have hsorted := h.sorted
  refine ⟨?_, ?_, ?_, ?_⟩
  · rw [List.pairwise_append, List.pairwise_cons] at hsorted ⊢
    simpa only [List.forall_mem_cons, hmask] using hsorted
  · have hkeys := h.keys
    rwa [List.map_append, List.map_cons, ← hkey, ← List.map_cons, ← List.map_append] at hkeys
  · intro x hx
    rcases List.mem_append.mp hx with hx | hx
    · exact h.maskLength x (List.mem_append_left _ hx)
    · rcases List.mem_cons.mp hx with rfl | hx
      · exact hmask ▸ h.maskLength d (by simp)
      · exact h.maskLength x (List.mem_append_right _ (List.mem_cons_of_mem _ hx))
  · have hsize := h.size
    rwa [List.length_append, List.length_cons] at hsize ⊢

theorem wp_nwDbModifyFibEntry {A C : List FibRoute} {d : FibRoute} (h : FibOf (A ++ d :: C) s)
    (hd : d.key = routeEntry.key) (hI : I s.tcam) :
    (nwDbModifyFibEntry routeEntry).wp (tcamSpec I) (fun rc s' =>
      rc = .ok ∧ FibOf (A ++ routeEntry.modified d :: C) s') s := by
  have hmax : nwFibTcamMaxSize.toNat = 8192 := rfl
  have hsize := h.list.size
  rw [List.length_append, List.length_cons] at hsize
  have hfind : s.fibEntries.find? (·.key = (NwDbFibEntry.ofDst routeEntry.dst).key) =
      some (d.atIndex A.length) := by
    have hmem : d.atIndex A.length ∈ s.fibEntries :=
      (mem_rows_iff h.rows).mpr ⟨A.length, d, by simp, rfl⟩
    have hfound := find?_of_nodup_map h.fibInv.keys hmem
    rwa [key_atIndex, hd] at hfound
  have hindex : ((routeEntry.modified d).atIndex A.length).npsIndex.toNat = A.length :=
    npsIndex_atIndex (by omega)
  simp only [nwDbModifyFibEntry, wp_bind, wp_internalDbGetFibEntry, hfind, setFibParams_atIndex,
    wp_internalDbModifyFibEntry, if_true, wp_addFibEntryToNps, hindex, tcamEntry_atIndex, wp_pure]
  refine ⟨hI, hI, hI, trivial, h.list.replace (modified_key routeEntry d), ?_, ?_, ?_⟩
  · have hrows : s.fibEntries.Perm (rowsFrom 0 A ++ d.atIndex A.length ::
        rowsFrom (A.length + 1) C) := by
      have hperm := h.rows
      rwa [rowsFrom_append, Nat.zero_add] at hperm
    rw [rowsFrom_append, Nat.zero_add]
    have hkey := modified_key routeEntry d
    exact perm_update hkey.symm hrows (hkey ▸ h.list.key_notMem _ _)
  · have hcount := h.count
    rwa [List.length_append, List.length_cons] at hcount ⊢
  · have hset := h.tcam.set (x := (routeEntry.modified d).tcamEntry) (k := A.length) (by simp)
    simpa [tcamList] using hset

end Functions

end Alvs
