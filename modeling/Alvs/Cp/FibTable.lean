import Alvs.Cp.Fib
import Mathlib.Data.List.Nodup
import Mathlib.Tactic.IntervalCases

/-!
# The FIB as a list of routes

A FIB entry without its index is a `FibRoute`. `FibOf l s` : the routes of `l` are the rows of
the internal table, each with its position as index, and the entries of the TCAM. `fibInv_iff`
: that is the invariant `FibInv`, which speaks of the rows and their indexes.

The TCAM compares the key under the mask that `build_nps_fib_key_and_mask` makes. `matches_iff`
: an entry matches the addresses that have its prefix.
-/

namespace Alvs

open ProgLogic

/-! ## Prefixes -/

section Bits

theorem getLsbD_bswap32 (x : UInt32) (k : Nat) (hk : k < 32) :
    (bswap32 x).toBitVec.getLsbD k = x.toBitVec.getLsbD (8 * (3 - k / 8) + k % 8) := by
  have h8 : (8 : UInt32).toBitVec % 32 = 8#32 := rfl
  have h24 : (24 : UInt32).toBitVec % 32 = 24#32 := rfl
  have hmask (j : Nat) :
      (0xff00 : UInt32).toBitVec.getLsbD j = (decide (8 ≤ j) && decide (j < 16)) := by
    by_cases hj : j < 32
    · revert j
      decide
    · rw [BitVec.getLsbD_of_ge _ _ (Nat.not_lt.mp hj), decide_eq_false (p := j < 16) (by omega),
        Bool.and_false]
  simp only [bswap32, UInt32.toBitVec_or, UInt32.toBitVec_shiftLeft, UInt32.toBitVec_shiftRight,
    UInt32.toBitVec_and, BitVec.getLsbD_or, BitVec.getLsbD_and, BitVec.getLsbD_shiftLeft,
    BitVec.getLsbD_ushiftRight, hmask, BitVec.shiftLeft_eq', BitVec.ushiftRight_eq', h8, h24]
  interval_cases k <;> simp

theorem bswap32_and (x y : UInt32) : bswap32 (x &&& y) = bswap32 x &&& bswap32 y := by
  apply UInt32.toBitVec_inj.mp
  refine BitVec.eq_of_getLsbD_eq fun k hk => ?_
  rw [UInt32.toBitVec_and, BitVec.getLsbD_and, getLsbD_bswap32 _ k hk, getLsbD_bswap32 _ k hk,
    getLsbD_bswap32 _ k hk, UInt32.toBitVec_and, BitVec.getLsbD_and]

theorem bswap32_bswap32 (x : UInt32) : bswap32 (bswap32 x) = x := by
  apply UInt32.toBitVec_inj.mp
  refine BitVec.eq_of_getLsbD_eq fun k hk => ?_
  rw [getLsbD_bswap32 _ k hk, getLsbD_bswap32 _ _ (by omega)]
  congr 1
  omega

theorem bswap32_inj {x y : UInt32} : bswap32 x = bswap32 y ↔ x = y := by
  refine ⟨fun h => ?_, congrArg bswap32⟩
  rw [← bswap32_bswap32 x, h, bswap32_bswap32]

/-- Two values agree above bit `n` exactly if they are the same under the mask of these bits. -/
theorem and_highBits_iff {x y n : UInt32} (hn : n < 32) :
    x &&& (0xffffffff <<< n) = y &&& (0xffffffff <<< n) ↔
      x.toNat / 2 ^ n.toNat = y.toNat / 2 ^ n.toNat := by
  have hmod : (n.toBitVec % 32).toNat = n.toNat := by
    rw [BitVec.toNat_umod]
    exact Nat.mod_eq_of_lt hn
  have hones (j : Nat) (hj : j < 32) : (0xffffffff : UInt32).toBitVec.getLsbD j = true := by
    revert j; decide
  have hbits : (x &&& (0xffffffff <<< n) = y &&& (0xffffffff <<< n)) ↔
      x.toBitVec >>> n.toNat = y.toBitVec >>> n.toNat := by
    rw [← UInt32.toBitVec_inj, UInt32.toBitVec_and, UInt32.toBitVec_and,
      UInt32.toBitVec_shiftLeft, BitVec.shiftLeft_eq', hmod]
    constructor
    · intro h
      refine BitVec.eq_of_getLsbD_eq fun k hk => ?_
      rw [BitVec.getLsbD_ushiftRight, BitVec.getLsbD_ushiftRight]
      by_cases hkn : n.toNat + k < 32
      · have hbit := congrArg (·.getLsbD (n.toNat + k)) h
        have hmaskBit :
            ((0xffffffff : UInt32).toBitVec <<< n.toNat).getLsbD (n.toNat + k) = true := by
          rw [BitVec.getLsbD_shiftLeft, decide_eq_true hkn, Nat.add_sub_cancel_left, hones k hk,
            decide_eq_false (Nat.not_lt.mpr (Nat.le_add_right _ _))]
          rfl
        rwa [BitVec.getLsbD_and, BitVec.getLsbD_and, hmaskBit, Bool.and_true, Bool.and_true] at hbit
      · rw [BitVec.getLsbD_of_ge _ _ (Nat.not_lt.mp hkn),
          BitVec.getLsbD_of_ge _ _ (Nat.not_lt.mp hkn)]
    · intro h
      refine BitVec.eq_of_getLsbD_eq fun k hk => ?_
      rw [BitVec.getLsbD_and, BitVec.getLsbD_and, BitVec.getLsbD_shiftLeft]
      by_cases hkn : k < n.toNat
      · simp [hkn]
      · have hbit := congrArg (·.getLsbD (k - n.toNat)) h
        simp only [BitVec.getLsbD_ushiftRight, Nat.add_sub_cancel' (Nat.not_lt.mp hkn)] at hbit
        rw [hbit]
  rw [hbits, ← BitVec.toNat_inj, BitVec.toNat_ushiftRight, BitVec.toNat_ushiftRight,
    Nat.shiftRight_eq_div_pow, Nat.shiftRight_eq_div_pow]
  rfl

end Bits

/-- A FIB entry without its index. -/
structure FibRoute where
  destIp : UInt32
  maskLength : UInt16
  resultType : NwFibType
  nextHop : UInt32
  deriving DecidableEq

namespace FibRoute

variable (e : FibRoute)

/-- The prefix of a route. -/
def key : UInt32 × UInt16 := (e.destIp, e.maskLength)

/-- The entry at index `i`. -/
def atIndex (i : Nat) : NwDbFibEntry :=
  ⟨e.destIp, e.maskLength, e.resultType, e.nextHop, .ofNat i⟩

def result : NwFibResult := ⟨e.resultType, e.nextHop⟩

def tcamEntry : NwFibTcamEntry := (e.atIndex 0).tcamEntry

/-- The address has the prefix : its first `maskLength` bits are those of `destIp`. Both are in
network order. -/
def Covers (addr : UInt32) : Prop :=
  (bswap32 addr).toNat / 2 ^ (32 - e.maskLength.toNat) =
    (bswap32 e.destIp).toNat / 2 ^ (32 - e.maskLength.toNat)

instance (addr : UInt32) : Decidable (e.Covers addr) := inferInstanceAs (Decidable (_ = _))

end FibRoute

/-- The route of an entry. -/
def NwDbFibEntry.route (e : NwDbFibEntry) : FibRoute :=
  ⟨e.destIp, e.maskLength, e.resultType, e.nextHop⟩

section Prefix

variable {e : FibRoute}

@[simp] theorem key_atIndex (i : Nat) : (e.atIndex i).key = e.key := rfl

@[simp] theorem route_atIndex (i : Nat) : (e.atIndex i).route = e := rfl

@[simp] theorem tcamEntry_atIndex (i : Nat) : (e.atIndex i).tcamEntry = e.tcamEntry := rfl

@[simp] theorem maskLength_atIndex (i : Nat) : (e.atIndex i).maskLength = e.maskLength := rfl

@[simp] theorem tcamEntry_result : e.tcamEntry.result = e.result := rfl

theorem npsIndex_atIndex {i : Nat} (hi : i < 2 ^ 16) : (e.atIndex i).npsIndex.toNat = i :=
  Nat.mod_eq_of_lt hi

/-- An entry matches the addresses that have its prefix. -/
theorem matches_iff (hlen : e.maskLength.toNat ≤ 32) (addr : UInt32) :
    e.tcamEntry.matches addr = decide (e.Covers addr) := by
  refine decide_eq_decide.mpr ?_
  change addr &&& buildNpsFibMask e.maskLength = e.destIp &&& buildNpsFibMask e.maskLength ↔ _
  rw [buildNpsFibMask, FibRoute.Covers]
  split
  next hzero =>
    rw [hzero, UInt32.and_zero, UInt32.and_zero]
    refine iff_of_true rfl ?_
    have hwidth : 32 - (0 : UInt16).toNat = 32 := rfl
    rw [hwidth, Nat.div_eq_of_lt (UInt32.toNat_lt _), Nat.div_eq_of_lt (UInt32.toNat_lt _)]
  next hzero =>
    have hpos : 0 < e.maskLength.toNat := Nat.pos_of_ne_zero fun h => hzero (UInt16.toNat_inj.mp h)
    have hn : (32 - e.maskLength.toUInt32 : UInt32).toNat = 32 - e.maskLength.toNat := by
      rw [UInt32.toNat_sub_of_le _ _ (UInt32.le_iff_toNat_le.mpr (by simpa using hlen))]
      simp
    have hlt : 32 - e.maskLength.toUInt32 < 32 := by
      rw [UInt32.lt_iff_toNat_lt, hn]
      exact Nat.sub_lt (by decide) hpos
    rw [← bswap32_inj, bswap32_and, bswap32_and, bswap32_bswap32, and_highBits_iff hlt, hn]

end Prefix

/-! ## The rows of a list of routes -/

/-- The rows of the routes, with the indexes from `n` on. -/
def rowsFrom : Nat → List FibRoute → List NwDbFibEntry
  | _, [] => []
  | n, e :: l => e.atIndex n :: rowsFrom (n + 1) l

section Rows

variable {n : Nat} {l l' : List FibRoute} {e : FibRoute}

theorem rowsFrom_append : ∀ (n : Nat) (l l' : List FibRoute),
    rowsFrom n (l ++ l') = rowsFrom n l ++ rowsFrom (n + l.length) l'
  | _, [], _ => rfl
  | n, e :: l, l' => by
    rw [List.cons_append, rowsFrom, rowsFrom, rowsFrom_append (n + 1) l l', List.length_cons,
      Nat.add_right_comm, Nat.add_assoc n, List.cons_append]

theorem mem_rowsFrom {r : NwDbFibEntry} : ∀ {n : Nat} {l : List FibRoute},
    r ∈ rowsFrom n l ↔ ∃ (i : Nat) (e : FibRoute), l[i]? = some e ∧ r = e.atIndex (n + i)
  | n, [] => by
    refine iff_of_false List.not_mem_nil ?_
    rintro ⟨i, e, hi, -⟩
    cases hi
  | n, e :: l => by
    rw [rowsFrom, List.mem_cons, mem_rowsFrom]
    constructor
    · rintro (rfl | ⟨i, e', hi, rfl⟩)
      · exact ⟨0, e, rfl, rfl⟩
      · exact ⟨i + 1, e', hi, congrArg e'.atIndex (by omega)⟩
    · rintro ⟨_ | i, e', hi, rfl⟩
      · cases hi
        exact .inl rfl
      · exact .inr ⟨i, e', hi, congrArg e'.atIndex (by omega)⟩

/-- What does not depend on the index. -/
theorem map_rowsFrom {β : Type} {g : NwDbFibEntry → β} {g' : FibRoute → β}
    (hg : ∀ (e : FibRoute) (i : Nat), g (e.atIndex i) = g' e) :
    ∀ (n : Nat) (l : List FibRoute), (rowsFrom n l).map g = l.map g'
  | _, [] => rfl
  | n, e :: l => by rw [rowsFrom, List.map_cons, List.map_cons, hg, map_rowsFrom hg (n + 1) l]

theorem keys_rowsFrom (n : Nat) (l : List FibRoute) :
    (rowsFrom n l).map (·.key) = l.map (·.key) :=
  map_rowsFrom (fun _ _ => rfl) n l

theorem indexes_rowsFrom : ∀ (n : Nat) (l : List FibRoute), n + l.length ≤ 2 ^ 16 →
    (rowsFrom n l).map (·.npsIndex.toNat) = List.range' n l.length
  | _, [], _ => rfl
  | n, e :: l, h => by
    rw [List.length_cons] at h ⊢
    rw [rowsFrom, List.map_cons, List.range'_succ, indexes_rowsFrom (n + 1) l (by omega),
      npsIndex_atIndex (by omega)]

/-- An update changes no row of another key. -/
theorem map_update_rows {R R' : List NwDbFibEntry} (row r : NwDbFibEntry)
    (hR : r.key ∉ (R ++ R').map (·.key)) :
    (R ++ row :: R').map r.update = R ++ r.update row :: R' := by
  have hother : ∀ x ∈ R ++ R', r.update x = x := fun x hx =>
    if_neg fun h => hR (List.mem_map.mpr ⟨x, hx, h⟩)
  rw [List.map_append, List.map_cons,
    List.map_congr_left fun x hx => hother x (List.mem_append_left R' hx), List.map_id'',
    List.map_congr_left fun x hx => hother x (List.mem_append_right R hx), List.map_id'']
  all_goals exact fun _ => rfl

end Rows

/-! ## The FIB of a list of routes -/

/-- The routes can be the entries of a FIB : no prefix is there twice, and longer prefixes come
first. -/
structure FibList (l : List FibRoute) : Prop where
  sorted : l.Pairwise fun e e' => e'.maskLength.toNat ≤ e.maskLength.toNat
  keys : (l.map (·.key)).Nodup
  maskLength : ∀ e ∈ l, e.maskLength.toNat ≤ 32
  size : l.length ≤ nwFibTcamMaxSize.toNat

/-- The routes are the FIB, each at its position. -/
structure FibOf (l : List FibRoute) (s : NwState) : Prop where
  list : FibList l
  rows : s.fibEntries.Perm (rowsFrom 0 l)
  count : s.fibEntryCount.toNat = l.length
  tcam : Lists s.tcam (l.map (·.tcamEntry))

/-- The state of the FIB : the indexes of the rows are those below `fib_entry_count`, each once,
with longer prefixes first, and the TCAM has the same entries. -/
structure FibInv (s : NwState) : Prop where
  indexes : (s.fibEntries.map (·.npsIndex.toNat)).Perm (List.range s.fibEntryCount.toNat)
  sorted : ∀ e ∈ s.fibEntries, ∀ e' ∈ s.fibEntries, e.npsIndex ≤ e'.npsIndex →
    e'.maskLength ≤ e.maskLength
  tcam : ∀ i, s.tcam i = (s.fibEntries.find? (·.npsIndex.toNat = i)).map (·.tcamEntry)
  keys : (s.fibEntries.map (·.key)).Nodup
  maskLength : ∀ e ∈ s.fibEntries, e.maskLength.toNat ≤ 32
  size : s.fibEntryCount ≤ nwFibTcamMaxSize

section Inv

variable {s : NwState} {l : List FibRoute}

theorem FibList.rows_lt (h : FibList l) : 0 + l.length ≤ 2 ^ 16 := by
  have hsize := h.size
  have hmax : nwFibTcamMaxSize.toNat = 8192 := rfl
  omega

/-- The index of a row is its position. -/
theorem FibList.npsIndex (h : FibList l) {i : Nat} {e : FibRoute} (hi : l[i]? = some e) :
    (e.atIndex i).npsIndex.toNat = i := by
  have hlt := h.rows_lt
  have hil : i < l.length := (List.getElem?_eq_some_iff.mp hi).1
  exact npsIndex_atIndex (by omega)

theorem FibList.indexes (h : FibList l) {R : List NwDbFibEntry} (hR : R.Perm (rowsFrom 0 l)) :
    (R.map (·.npsIndex.toNat)).Perm (List.range l.length) := by
  refine (hR.map _).trans (.of_eq ?_)
  rw [indexes_rowsFrom 0 l h.rows_lt, List.range_eq_range']

theorem mem_rows_iff {R : List NwDbFibEntry} (hR : R.Perm (rowsFrom 0 l)) {r : NwDbFibEntry} :
    r ∈ R ↔ ∃ (i : Nat) (e : FibRoute), l[i]? = some e ∧ r = e.atIndex i := by
  rw [hR.mem_iff, mem_rowsFrom]
  simp only [Nat.zero_add]

/-- The row with an index. -/
theorem FibList.find?_index (h : FibList l) {R : List NwDbFibEntry} (hR : R.Perm (rowsFrom 0 l))
    (i : Nat) : R.find? (·.npsIndex.toNat = i) = l[i]?.map (·.atIndex i) := by
  cases hi : l[i]? with
  | none =>
    refine List.find?_eq_none.mpr fun r hr => ?_
    obtain ⟨j, e, hj, rfl⟩ := (mem_rows_iff hR).mp hr
    rw [decide_eq_true_eq, h.npsIndex hj]
    rintro rfl
    rw [hi] at hj
    cases hj
  | some e =>
    have hmem : e.atIndex i ∈ R := (mem_rows_iff hR).mpr ⟨i, e, hi, rfl⟩
    have hfind := find?_of_nodup_map ((h.indexes hR).nodup_iff.mpr List.nodup_range) hmem
    rwa [h.npsIndex hi] at hfind

theorem FibOf.fibInv (h : FibOf l s) : FibInv s where
  indexes := h.count ▸ h.list.indexes h.rows
  sorted := by
    intro r hr r' hr' hle
    obtain ⟨i, e, hi, rfl⟩ := (mem_rows_iff h.rows).mp hr
    obtain ⟨j, e', hj, rfl⟩ := (mem_rows_iff h.rows).mp hr'
    rw [UInt16.le_iff_toNat_le, h.list.npsIndex hi, h.list.npsIndex hj] at hle
    rw [UInt16.le_iff_toNat_le]
    obtain ⟨hil, rfl⟩ := List.getElem?_eq_some_iff.mp hi
    obtain ⟨hjl, rfl⟩ := List.getElem?_eq_some_iff.mp hj
    rcases Nat.eq_or_lt_of_le hle with rfl | hlt
    · exact Nat.le_refl _
    · exact List.pairwise_iff_getElem.mp h.list.sorted i j hil hjl hlt
  tcam := by
    intro i
    rw [h.tcam i, List.getElem?_map, h.list.find?_index h.rows, Option.map_map]
    rfl
  keys := (h.rows.map _).nodup_iff.mpr (by rw [keys_rowsFrom]; exact h.list.keys)
  maskLength := by
    intro r hr
    obtain ⟨i, e, hi, rfl⟩ := (mem_rows_iff h.rows).mp hr
    exact h.list.maskLength e (List.mem_of_getElem? hi)
  size := by
    rw [UInt32.le_iff_toNat_le, h.count]
    exact h.list.size

/-- Rows with consecutive indexes are the rows of their routes. -/
theorem rowsFrom_map_route : ∀ {n : Nat} {R : List NwDbFibEntry},
    R.map (·.npsIndex.toNat) = List.range' n R.length → rowsFrom n (R.map (·.route)) = R
  | _, [], _ => rfl
  | n, r :: R, h => by
    rw [List.map_cons, List.length_cons, List.range'_succ] at h
    injection h with hr hR
    have hindex : UInt16.ofNat n = r.npsIndex := by
      rw [← hr]
      exact UInt16.ofNat_toNat
    rw [List.map_cons, rowsFrom, rowsFrom_map_route hR, FibRoute.atIndex, hindex]
    rfl

instance : Std.Total fun r r' : NwDbFibEntry => r.npsIndex ≤ r'.npsIndex :=
  ⟨fun r r' => Nat.le_total r.npsIndex.toNat r'.npsIndex.toNat⟩

instance : IsTrans NwDbFibEntry fun r r' => r.npsIndex ≤ r'.npsIndex :=
  ⟨fun _ _ _ h h' => UInt16.le_trans h h'⟩

/-- The rows in the order of their indexes. -/
theorem FibInv.fibOf (h : FibInv s) : ∃ l, FibOf l s := by
  let R := s.fibEntries.insertionSort fun r r' => r.npsIndex ≤ r'.npsIndex
  have hperm : R.Perm s.fibEntries := List.perm_insertionSort _ _
  have hsorted : R.Pairwise fun r r' => r.npsIndex ≤ r'.npsIndex := List.pairwise_insertionSort _ _
  have hindexes : R.map (·.npsIndex.toNat) = List.range s.fibEntryCount.toNat := by
    refine List.Perm.eq_of_pairwise' (r := (· ≤ ·)) ?_ ?_ ((hperm.map _).trans h.indexes)
    · exact List.pairwise_map.mpr hsorted
    · exact List.pairwise_le_range
  have hlen : R.length = s.fibEntryCount.toNat := by
    have hlengths := congrArg List.length hindexes
    rwa [List.length_map, List.length_range] at hlengths
  have hrows : rowsFrom 0 (R.map (·.route)) = R := rowsFrom_map_route <| by
    rw [hindexes, hlen, List.range_eq_range']
  have hlist : FibList (R.map (·.route)) := by
    refine ⟨?_, ?_, ?_, ?_⟩
    · refine List.pairwise_map.mpr (hsorted.imp_of_mem fun hr hr' hle => ?_)
      exact h.sorted _ (hperm.mem_iff.mp hr) _ (hperm.mem_iff.mp hr') hle
    · rw [List.map_map]
      exact (hperm.map _).nodup_iff.mpr h.keys
    · intro e he
      obtain ⟨r, hr, rfl⟩ := List.mem_map.mp he
      exact h.maskLength r (hperm.mem_iff.mp hr)
    · rw [List.length_map, hlen]
      exact h.size
  have hfib : s.fibEntries.Perm (rowsFrom 0 (R.map (·.route))) := by
    rw [hrows]
    exact hperm.symm
  refine ⟨R.map (·.route), hlist, hfib, ?_, ?_⟩
  · rw [List.length_map, hlen]
  · intro i
    rw [List.getElem?_map, h.tcam i, hlist.find?_index hfib, Option.map_map]
    rfl

/-- A FIB is the list of its routes. -/
theorem fibInv_iff : FibInv s ↔ ∃ l, FibOf l s := by
  constructor
  · exact FibInv.fibOf
  · rintro ⟨l, h⟩
    exact h.fibInv

end Inv

end Alvs
