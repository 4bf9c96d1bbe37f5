import Alvs.Dp.CpuList
import Mathlib.Data.List.Induction
import Mathlib.Data.List.Perm.Subperm

/-!
# What a list of cpus denotes

A list of cpus is made of items (`CpuItem`), numbers, ranges and strided ranges, with
commas between them. `CpuItem.members` are the cpus that an item denotes. `Recorded` says what
the array holds after the loops have come to some cpus : each at its first occurrence, and
a cpu that has no bit in the mask at every one.

The function reads four characters of a cpu and ten of a stride, and steps in 32 bits. An
item is `ReadWhole` if that is no loss. The array then is what the list denotes exactly if
every cpu has a bit in the mask (`cpuset_exact`).
-/

namespace Alvs

open ProgLogic

/-! ## Lists of cpus -/

/-- A number as it is written. -/
structure Numeral where
  digits : List Char
  ne_nil : digits ≠ []
  isDigit : ∀ c ∈ digits, c.isDigit = true

def Numeral.value (n : Numeral) : Nat := digitsValue n.digits

inductive CpuItem
  | number (a : Numeral)
  | range (a b : Numeral)
  | strided (a b s : Numeral)

namespace CpuItem

def text : CpuItem → List Char
  | number a => a.digits
  | range a b => a.digits ++ '-' :: b.digits
  | strided a b s => a.digits ++ '-' :: b.digits ++ ':' :: s.digits

def first : CpuItem → Numeral
  | number a => a
  | range a _ => a
  | strided a _ _ => a

def last : CpuItem → Numeral
  | number a => a
  | range _ b => b
  | strided _ b _ => b

def stride : CpuItem → Nat
  | number _ => 1
  | range _ _ => 1
  | strided _ _ s => s.value

end CpuItem

/-- `a`, `a + s`, `a + 2 s` and so on, as far as they are not above `b`. -/
def strideMembers (a b s : Nat) : List Nat :=
  if b < a then [] else (List.range ((b - a) / s + 1)).map fun k => a + k * s

def CpuItem.members (i : CpuItem) : List Nat := strideMembers i.first.value i.last.value i.stride

def cpuListText : List CpuItem → List Char
  | [] => []
  | [i] => i.text
  | i :: j :: is => i.text ++ ',' :: cpuListText (j :: is)

/-- The array holds the cpus of the list `str`, in the order of their first occurrence,
each below the size of the bitmask, and no more than it has room for. -/
def CpusExact (str : List Char) (runCpus : List UInt32) : Prop :=
  ∃ items, str = cpuListText items ∧ runCpus.length ≤ maxNumOfCpus ∧ runCpus.Nodup ∧
    (∀ cpu ∈ runCpus, cpu.toNat < maxNumOfCpus) ∧
    runCpus.map UInt32.toNat = (items.flatMap CpuItem.members).eraseDups

/-- The characters that the conversions read give the numbers, and no step goes beyond
32 bits. -/
structure CpuItem.ReadWhole (i : CpuItem) : Prop where
  first : digitsValue (i.first.digits.take 4) = i.first.value
  last : digitsValue (i.last.digits.take 4) = i.last.value
  stride : ∀ a b s, i = .strided a b s →
    digitsValue (s.digits.take 10) = s.value ∧ s.value < 2 ^ 32
  stride_pos : 0 < i.stride
  noWrap : ∀ m ∈ i.members, m + i.stride < 2 ^ 32

/-! ## Reading an item -/

theorem digitsValue_append (ds : List Char) (c : Char) :
    digitsValue (ds ++ [c]) = 10 * digitsValue ds + (c.toNat - '0'.toNat) := by
  rw [digitsValue, List.foldl_append]
  rfl

theorem isDigit_iff {c : Char} : c.isDigit = true ↔ 48 ≤ c.toNat ∧ c.toNat ≤ 57 := by
  simp only [Char.isDigit, ge_iff_le, Bool.and_eq_true, decide_eq_true_eq, UInt32.le_iff_toNat_le]
  exact Iff.rfl

theorem digitsValue_lt {ds : List Char} (h : ∀ c ∈ ds, c.isDigit = true) :
    digitsValue ds < 10 ^ ds.length := by
  induction ds using List.reverseRecOn with
  | nil => decide
  | append_singleton ds c ih =>
    have hc : c.isDigit = true := h c (by simp)
    have hlt : c.toNat - '0'.toNat < 10 := by
      have hzero : '0'.toNat = 48 := rfl
      have := (isDigit_iff.mp hc).2
      omega
    have := ih fun d hd => h d (by simp [hd])
    rw [digitsValue_append, List.length_append, List.length_singleton, Nat.pow_succ]
    omega

theorem nexttoken_append {w : List Char} {sep : Char} (h : sep ∉ w) (rest : List Char) :
    nexttoken (w ++ rest) sep = nexttoken rest sep := by
  induction w with
  | nil => rfl
  | cons c w ih =>
    rw [List.mem_cons, not_or] at h
    rw [List.cons_append, nexttoken, if_neg (Ne.symm h.1), ih h.2]

theorem nexttoken_cons_self (sep : Char) (rest : List Char) :
    nexttoken (sep :: rest) sep = some rest := by
  rw [nexttoken, if_pos rfl]

/-- The rest is shorter than what it is the rest of. -/
theorem length_nexttoken_lt {p q : List Char} {sep : Char} (h : nexttoken p sep = some q) :
    q.length < p.length := by
  induction p with
  | nil => cases h
  | cons c p ih =>
    rw [nexttoken] at h
    split at h
    · cases h
      simp
    · rw [List.length_cons]
      have := ih h
      omega

/-- What may follow an item : nothing or a comma. -/
def ItemEnd (rest : List Char) : Prop := rest = [] ∨ ∃ q, rest = ',' :: q

/-- A separator behind the end of an item is behind the comma. -/
theorem ItemEnd.before_eq_none {rest : List Char} (h : ItemEnd rest) {sep : Char}
    (hsep : sep ≠ ',') :
    before (nexttoken rest sep) (nexttoken rest ',') = none := by
  obtain rfl | ⟨q, rfl⟩ := h
  · rfl
  · rw [nexttoken_cons_self, nexttoken, if_neg (Ne.symm hsep)]
    cases hq : nexttoken q sep with
    | none => rfl
    | some c1 =>
      have := length_nexttoken_lt hq
      exact if_neg (by omega)

/-- A separator before the end of an item is before the comma. -/
theorem ItemEnd.before_eq_some {rest w : List Char} (h : ItemEnd rest) :
    before (some (w ++ rest)) (nexttoken rest ',') = some (w ++ rest) := by
  obtain rfl | ⟨q, rfl⟩ := h
  · rfl
  · rw [nexttoken_cons_self]
    refine if_pos ?_
    rw [List.length_append, List.length_cons]
    omega

/-- No digit follows. -/
def NoDigit (rest : List Char) : Prop := ∀ c ∈ rest.head?, c.isDigit = false

theorem ItemEnd.noDigit {rest : List Char} (h : ItemEnd rest) : NoDigit rest := by
  obtain rfl | ⟨q, rfl⟩ := h
  · simp [NoDigit]
  · simp [NoDigit]

theorem NoDigit.takeWhile_take {rest : List Char} (h : NoDigit rest) (k : Nat) :
    (rest.take k).takeWhile Char.isDigit = [] := by
  cases rest with
  | nil => simp
  | cons c rest =>
    have hc : c.isDigit = false := h c rfl
    cases k with
    | zero => rfl
    | succ k => rw [List.take_succ_cons, List.takeWhile_cons_of_neg (by simp [hc])]

namespace Numeral

variable (n : Numeral) {rest : List Char} {wide : Nat → UInt32}

theorem not_mem (sep : Char) (hsep : sep.isDigit = false) : sep ∉ n.digits := fun h => by
  rw [n.isDigit sep h] at hsep
  cases hsep

/-- A numeral is read as its value if the characters that are read give that. -/
theorem sscanf_eq {width : Nat} (hwidth : 0 < width)
    (hread : digitsValue (n.digits.take width) = n.value) (hvalue : n.value < 2 ^ 32)
    (hrest : NoDigit rest) : sscanf wide width (n.digits ++ rest) = some (.ofNat n.value) := by
  have hdigits : sscanfDigits wide width (n.digits ++ rest) = some (.ofNat n.value) := by
    have htake : ((n.digits ++ rest).take width).takeWhile Char.isDigit = n.digits.take width := by
      rw [List.take_append, List.takeWhile_append_of_pos fun c hc =>
        n.isDigit c (List.mem_of_mem_take hc), hrest.takeWhile_take, List.append_nil]
    have hne : n.digits.take width ≠ [] := by
      rw [ne_eq, List.take_eq_nil_iff, not_or]
      exact ⟨by omega, n.ne_nil⟩
    rw [sscanfDigits, htake, if_neg hne, hread]
    exact if_pos hvalue
  obtain ⟨c, ds, hds⟩ := List.exists_cons_of_ne_nil n.ne_nil
  have hc : 48 ≤ c.toNat ∧ c.toNat ≤ 57 :=
    isDigit_iff.mp (n.isDigit c (by rw [hds]; exact List.mem_cons_self))
  rw [hds, List.cons_append] at hdigits ⊢
  -- a digit is neither white space nor a sign
  have hspace : isSpace c = false := by
    have hblank : c ≠ ' ' := by
      rintro rfl
      exact absurd hc.1 (by decide)
    have hreturn : '\r'.toNat = 13 := rfl
    simp only [isSpace, Bool.or_eq_false_iff, decide_eq_false_iff_not, Bool.and_eq_false_iff]
    exact ⟨hblank, .inr (by omega)⟩
  rw [sscanf, List.dropWhile_cons_of_neg (by simp [hspace])]
  split
  next heq =>
    cases heq
    exact absurd hc.1 (by decide)
  next heq =>
    cases heq
    exact absurd hc.1 (by decide)
  next => exact hdigits

/-- What four characters give is below `2 ^ 32`. -/
theorem value_lt (hread : digitsValue (n.digits.take 4) = n.value) : n.value < 10 ^ 4 := by
  have hlt : digitsValue (n.digits.take 4) < 10 ^ (n.digits.take 4).length :=
    digitsValue_lt fun c hc => n.isDigit c (List.mem_of_mem_take hc)
  have hpow : 10 ^ (n.digits.take 4).length ≤ 10 ^ 4 :=
    Nat.pow_le_pow_right (by decide) (List.length_take_le 4 _)
  omega

theorem sscanf_four (hread : digitsValue (n.digits.take 4) = n.value) (hrest : NoDigit rest) :
    sscanf wide 4 (n.digits ++ rest) = some (.ofNat n.value) := by
  have := n.value_lt hread
  exact n.sscanf_eq (by decide) hread (by omega) hrest

end Numeral

/-- The range of an item that is read whole. -/
def CpuItem.cpuRange (i : CpuItem) : CpuRange :=
  ⟨.ofNat i.first.value, .ofNat i.last.value, .ofNat i.stride⟩

theorem CpuItem.comma_not_mem (i : CpuItem) : ',' ∉ i.text := by
  have hdigits : ∀ n : Numeral, ',' ∉ n.digits := fun n => n.not_mem ',' (by decide)
  cases i with
  | number a => exact hdigits a
  | range a b => simp [text, hdigits]
  | strided a b s => simp [text, hdigits]

theorem readRange_item {wide : Nat → UInt32} {i : CpuItem} (hi : i.ReadWhole) {rest : List Char}
    (hrest : ItemEnd rest) : readRange wide (i.text ++ rest) = some i.cpuRange := by
  have hcomma := nexttoken_append i.comma_not_mem rest
  have hminus : ∀ n : Numeral, '-' ∉ n.digits := fun n => n.not_mem '-' (by decide)
  have hcolon : ∀ n : Numeral, ':' ∉ n.digits := fun n => n.not_mem ':' (by decide)
  cases i with
  | number a =>
    have ha : sscanf wide 4 (a.digits ++ rest) = some (.ofNat a.value) :=
      a.sscanf_four hi.first hrest.noDigit
    have hrange : before (nexttoken rest '-') (nexttoken rest ',') = none :=
      hrest.before_eq_none (by decide)
    simp only [CpuItem.text] at hcomma
    simp only [readRange, CpuItem.text, ha, nexttoken_append (hminus a), hcomma, hrange]
    rfl
  | range a b =>
    have ha : sscanf wide 4 (a.digits ++ '-' :: (b.digits ++ rest)) = some (.ofNat a.value) :=
      a.sscanf_four hi.first (by simp [NoDigit])
    have hb : sscanf wide 4 (b.digits ++ rest) = some (.ofNat b.value) :=
      b.sscanf_four hi.last hrest.noDigit
    have hstride : before (nexttoken rest ':') (nexttoken rest ',') = none :=
      hrest.before_eq_none (by decide)
    simp only [CpuItem.text, List.append_assoc, List.cons_append] at hcomma
    simp only [readRange, CpuItem.text, List.append_assoc, List.cons_append, ha, hb,
      nexttoken_append (hminus a), nexttoken_cons_self, hcomma, hrest.before_eq_some,
      nexttoken_append (hcolon b), hstride]
    rfl
  | strided a b s =>
    have ha : sscanf wide 4 (a.digits ++ '-' :: (b.digits ++ ':' :: (s.digits ++ rest))) =
        some (.ofNat a.value) :=
      a.sscanf_four hi.first (by simp [NoDigit])
    have hb : sscanf wide 4 (b.digits ++ ':' :: (s.digits ++ rest)) = some (.ofNat b.value) :=
      b.sscanf_four hi.last (by simp [NoDigit])
    obtain ⟨hread, hvalue⟩ := hi.stride a b s rfl
    have hs : sscanf wide 10 (s.digits ++ rest) = some (.ofNat s.value) :=
      s.sscanf_eq (by decide) hread hvalue hrest.noDigit
    have hrange : before (some (b.digits ++ ':' :: (s.digits ++ rest))) (nexttoken rest ',') =
        some (b.digits ++ ':' :: (s.digits ++ rest)) := by
      have := hrest.before_eq_some (w := b.digits ++ ':' :: s.digits)
      simpa only [List.append_assoc, List.cons_append] using this
    simp only [CpuItem.text, List.append_assoc, List.cons_append] at hcomma
    simp only [readRange, CpuItem.text, List.append_assoc, List.cons_append, ha, hb, hs,
      nexttoken_append (hminus a), nexttoken_cons_self, hcomma, hrange,
      nexttoken_append (hcolon b), hrest.before_eq_some]
    rfl

/-! ## What the loops record -/

theorem strideMembers_of_lt {a b : Nat} (h : b < a) (s : Nat) : strideMembers a b s = [] := if_pos h

theorem strideMembers_of_le {a b s : Nat} (hs : 0 < s) (h : a ≤ b) :
    strideMembers a b s = a :: strideMembers (a + s) b s := by
  rw [strideMembers, if_neg (by omega), List.range_succ_eq_map, List.map_cons, List.map_map,
    Nat.zero_mul, Nat.add_zero]
  congr 1
  by_cases hlt : b < a + s
  · rw [strideMembers_of_lt hlt, Nat.div_eq_of_lt (by omega)]
    rfl
  · have hdiv : (b - a) / s = (b - (a + s)) / s + 1 := by
      rw [Nat.div_eq_sub_div hs (by omega), Nat.sub_sub]
    rw [strideMembers, if_neg hlt, hdiv]
    refine List.map_congr_left fun k _ => ?_
    simp only [Function.comp_apply, Nat.succ_mul]
    omega

/-- What the array holds after the cpu `v`. -/
def recordCpu (acc : List Nat) (v : Nat) : List Nat :=
  if v < maxNumOfCpus ∧ v ∈ acc then acc else acc ++ [v]

/-- The mask and the array after the loops have come to the cpus `seen`. -/
structure Recorded (seen : List Nat) (set : CpuSet) : Prop where
  runCpus : set.runCpus.map UInt32.toNat = seen.foldl recordCpu []
  mask : ∀ v, v < maxNumOfCpus → (set.mask v = true ↔ v ∈ seen)

theorem mem_recorded (seen : List Nat) (v : Nat) : v ∈ seen.foldl recordCpu [] ↔ v ∈ seen := by
  induction seen using List.reverseRecOn with
  | nil => rfl
  | append_singleton seen u ih =>
    rw [List.foldl_append, List.mem_append, ← ih, List.foldl_cons, List.foldl_nil, recordCpu]
    split
    next h =>
      rw [List.mem_singleton]
      refine ⟨.inl, ?_⟩
      rintro (hv | rfl)
      · exact hv
      · exact h.2
    next => rw [List.mem_append]

theorem eraseDups_concat (seen : List Nat) (u : Nat) :
    (seen ++ [u]).eraseDups = if u ∈ seen then seen.eraseDups else seen.eraseDups ++ [u] := by
  rw [List.eraseDups_append]
  split
  next hmem => simp [List.removeAll, hmem]
  next hmem => simp [List.removeAll, hmem, List.eraseDups_cons]

theorem nodup_eraseDups (seen : List Nat) : seen.eraseDups.Nodup := by
  induction seen using List.reverseRecOn with
  | nil => exact List.nodup_nil
  | append_singleton seen u ih =>
    rw [eraseDups_concat]
    split
    next => exact ih
    next hmem =>
      rw [List.nodup_append]
      refine ⟨ih, by simp, fun v hv w hw => ?_⟩
      rw [List.mem_singleton] at hw
      rintro rfl
      exact hmem (hw ▸ List.mem_eraseDups.mp hv)

/-- Below the size of the mask, a cpu is recorded at its first occurrence. -/
theorem recorded_eq_eraseDups (seen : List Nat) (h : ∀ v ∈ seen, v < maxNumOfCpus) :
    seen.foldl recordCpu [] = seen.eraseDups := by
  induction seen using List.reverseRecOn with
  | nil => rfl
  | append_singleton seen u ih =>
    have hu : u < maxNumOfCpus := h u (by simp)
    rw [List.foldl_append, List.foldl_cons, List.foldl_nil, recordCpu, eraseDups_concat,
      ih fun v hv => h v (List.mem_append_left _ hv)]
    simp only [hu, true_and, List.mem_eraseDups]

theorem Recorded.empty : Recorded [] .empty := ⟨rfl, fun v _ => by simp [CpuSet.empty]⟩

theorem Recorded.add {seen : List Nat} {set : CpuSet} (h : Recorded seen set) (cpu : UInt32) :
    Recorded (seen ++ [cpu.toNat]) (set.add cpu) := by
  constructor
  · rw [List.foldl_append, List.foldl_cons, List.foldl_nil, recordCpu, ← h.runCpus]
    by_cases hlt : cpu.toNat < maxNumOfCpus
    · have hmask : set.mask cpu.toNat = true ↔ cpu.toNat ∈ set.runCpus.map UInt32.toNat := by
        rw [h.mask _ hlt, h.runCpus, mem_recorded]
      simp only [CpuSet.add, hlt, true_and, hmask]
      split
      · rfl
      · rw [List.map_append]
        rfl
    · simp [CpuSet.add, hlt]
  · intro v hv
    rw [List.mem_append, List.mem_singleton, ← h.mask v hv]
    simp only [CpuSet.add]
    by_cases hcpu : v = cpu.toNat
    · subst hcpu
      simp [hv]
    · split
      · simp [hcpu]
      · simp [hcpu]

/-- The inner loop comes to the members of its range, in their order. -/
theorem addRange_recorded {b s : UInt32} (hs : 0 < s.toNat) {seen : List Nat} {set : CpuSet}
    {a : UInt32} (hset : Recorded seen set)
    (hnoWrap : ∀ m ∈ strideMembers a.toNat b.toNat s.toNat, m + s.toNat < 2 ^ 32) {fuel : Nat}
    {set' : CpuSet} (h : loop (addRangeBody b s) fuel (set, a) = some set') :
    Recorded (seen ++ strideMembers a.toNat b.toNat s.toNat) set' := by
  generalize htarget : seen ++ strideMembers a.toNat b.toNat s.toNat = target
  -- what is still to come completes what has been recorded
  let Inv (p : CpuSet × UInt32) : Prop := ∃ seen, Recorded seen p.1 ∧
    seen ++ strideMembers p.2.toNat b.toNat s.toNat = target ∧
    ∀ m ∈ strideMembers p.2.toNat b.toNat s.toNat, m + s.toNat < 2 ^ 32
  have hgo : ∀ p p', Inv p → addRangeBody b s p = .inl p' → Inv p' := by
    rintro ⟨set, a⟩ p' ⟨seen, hset, hseen, hnoWrap⟩ hbody
    rw [addRangeBody] at hbody
    split at hbody
    next hle =>
      cases hbody
      rw [UInt32.le_iff_toNat_le] at hle
      simp only [strideMembers_of_le hs hle] at hseen hnoWrap
      have hstep : (a + s).toNat = a.toNat + s.toNat := by
        have := hnoWrap a.toNat List.mem_cons_self
        rw [UInt32.toNat_add, Nat.mod_eq_of_lt this]
      refine ⟨seen ++ [a.toNat], hset.add a, ?_, ?_⟩
      · rw [hstep, List.append_assoc]
        exact hseen
      · rw [hstep]
        exact fun m hm => hnoWrap m (List.mem_cons_of_mem _ hm)
    next => cases hbody
  have hleave : ∀ p r, Inv p → addRangeBody b s p = .inr r → Recorded target r := by
    rintro ⟨set, a⟩ r ⟨seen, hset, hseen, -⟩ hbody
    rw [addRangeBody] at hbody
    split at hbody
    next => cases hbody
    next hgt =>
      cases hbody
      rw [UInt32.le_iff_toNat_le, Nat.not_le] at hgt
      simp only [strideMembers_of_lt hgt, List.append_nil] at hseen
      exact hseen ▸ hset
  exact loop_partial hgo hleave ⟨seen, hset, htarget, hnoWrap⟩ h

/-! ## The list -/

/-- The pointer to what is still to be read. -/
def restText : List CpuItem → Option (List Char)
  | [] => none
  | i :: is => some (cpuListText (i :: is))

theorem cpuListText_cons (i : CpuItem) (is : List CpuItem) : ∃ rest,
    cpuListText (i :: is) = i.text ++ rest ∧ ItemEnd rest ∧ nexttoken rest ',' = restText is := by
  cases is with
  | nil => exact ⟨[], (List.append_nil _).symm, .inl rfl, rfl⟩
  | cons j is =>
    exact ⟨',' :: cpuListText (j :: is), rfl, .inr ⟨_, rfl⟩, nexttoken_cons_self ',' _⟩

theorem CpuItem.ReadWhole.toNat_cpuRange {i : CpuItem} (hi : i.ReadWhole) :
    i.cpuRange.a.toNat = i.first.value ∧ i.cpuRange.b.toNat = i.last.value ∧
      i.cpuRange.s.toNat = i.stride := by
  have hfirst := i.first.value_lt hi.first
  have hlast := i.last.value_lt hi.last
  have hstride : i.stride < 2 ^ 32 := by
    cases i with
    | number a => exact Nat.one_lt_two_pow (by decide)
    | range a b => exact Nat.one_lt_two_pow (by decide)
    | strided a b s => exact (hi.stride a b s rfl).2
  refine ⟨UInt32.toNat_ofNat_of_lt ?_, UInt32.toNat_ofNat_of_lt ?_, UInt32.toNat_ofNat_of_lt
    hstride⟩
  · exact hfirst.trans (by decide)
  · exact hlast.trans (by decide)

/-- What the array holds after a list whose items are read whole. -/
theorem cpuset_recorded {wide : Nat → UInt32} {items : List CpuItem}
    (hitems : ∀ i ∈ items, i.ReadWhole) {fuel : Nat} {runCpus : List UInt32}
    (h : cstrToCpuset wide fuel (cpuListText items) = .success runCpus) :
    runCpus.map UInt32.toNat = (items.flatMap CpuItem.members).foldl recordCpu [] := by
  generalize htarget : items.flatMap CpuItem.members = target
  -- what the items still to be read denote completes what has been recorded
  let Inv (st : CpuSet × Option (List Char)) : Prop := ∃ seen items, st.2 = restText items ∧
    (∀ i ∈ items, i.ReadWhole) ∧ Recorded seen st.1 ∧
      seen ++ items.flatMap CpuItem.members = target
  let Q (r : CpusetResult) : Prop :=
    ∀ runCpus, r = .success runCpus → runCpus.map UInt32.toNat = target.foldl recordCpu []
  have hgo : ∀ st st', Inv st → cpusetBody wide fuel st = .inl st' → Inv st' := by
    rintro ⟨set, q⟩ st' ⟨seen, items, hq, hitems, hset, hseen⟩ hbody
    cases items with
    | nil =>
      cases hq
      cases hbody
    | cons i is =>
      obtain ⟨rest, htext, hend, hnext⟩ := cpuListText_cons i is
      have hi : i.ReadWhole := hitems i List.mem_cons_self
      have hread : readRange wide (i.text ++ rest) = some i.cpuRange := readRange_item hi hend
      simp only [restText, htext] at hq
      cases hq
      obtain ⟨hnone, -⟩ | ⟨r, hr, ⟨-, hbody'⟩ | ⟨-, -, hbody'⟩ | ⟨set', -, hloop, hbody'⟩⟩ :=
        cpusetBody_cases wide fuel set (i.text ++ rest)
      · rw [hread] at hnone
        cases hnone
      · rw [hbody'] at hbody
        cases hbody
      · rw [hbody'] at hbody
        cases hbody
      · rw [hbody'] at hbody
        cases hbody
        rw [hread] at hr
        cases hr
        obtain ⟨ha, hb, hs⟩ := hi.toNat_cpuRange
        have hmembers := addRange_recorded (by rw [hs]; exact hi.stride_pos) hset
          (by rw [ha, hb, hs]; exact hi.noWrap) hloop
        rw [ha, hb, hs] at hmembers
        refine ⟨_, is, ?_, fun j hj => hitems j (List.mem_cons_of_mem i hj), hmembers, ?_⟩
        · exact (nexttoken_append i.comma_not_mem rest).trans hnext
        · rw [← hseen, List.flatMap_cons, List.append_assoc]
          rfl
  have hleave : ∀ st r, Inv st → cpusetBody wide fuel st = .inr r → Q r := by
    rintro ⟨set, q⟩ r ⟨seen, items, hq, -, hset, hseen⟩ hbody runCpus rfl
    cases items with
    | nil =>
      cases hq
      cases hbody
      rw [hset.runCpus, ← hseen, List.flatMap_nil, List.append_nil]
    | cons i is =>
      cases hq
      obtain ⟨-, hbody'⟩ | ⟨_, -, ⟨-, hbody'⟩ | ⟨-, -, hbody'⟩ | ⟨_, -, -, hbody'⟩⟩ :=
        cpusetBody_cases wide fuel set (cpuListText (i :: is))
      all_goals
        rw [hbody'] at hbody
        cases hbody
  rw [cstrToCpuset] at h
  cases hloop : loop (cpusetBody wide fuel) fuel (.empty, some (cpuListText items)) with
  | none =>
    rw [hloop] at h
    cases h
  | some r =>
    rw [hloop] at h
    cases items with
    | nil =>
      -- there is no number at the end of the string
      cases fuel with
      | zero => cases hloop
      | succ fuel =>
        have hbody : cpusetBody wide (fuel + 1) (.empty, some (cpuListText [])) = .inr .error := rfl
        rw [loop_inr hbody] at hloop
        cases hloop
        cases h
    | cons i is =>
      exact loop_partial (Q := Q) hgo hleave ⟨[], i :: is, rfl, hitems, .empty, htarget⟩ hloop
        runCpus h

theorem length_le_of_nodup {seen : List Nat} {n : Nat} (hnodup : seen.Nodup)
    (hlt : ∀ v ∈ seen, v < n) : seen.length ≤ n := by
  have hsub : seen ⊆ List.range n := fun v hv => List.mem_range.mpr (hlt v hv)
  simpa using (hnodup.subperm hsub).length_le

/-- A cpu that has no bit in the mask is written to the array each time it is named. -/
theorem cpuset_repeats : ¬∀ wide fuel str runCpus, cstrToCpuset wide fuel str = .success runCpus →
    CpusExact str runCpus := by
  intro hall
  have hrun : cstrToCpuset (fun _ => 0) 10 "5000,5000".toList = .success [5000, 5000] := by
    decide +kernel
  obtain ⟨-, -, -, hnodup, -⟩ := hall _ _ _ _ hrun
  exact absurd hnodup (by decide)

/-- The array is what the list denotes exactly if every cpu of the list has a bit in the
mask, if the items are read whole. What is not a list of cpus denotes nothing. -/
theorem cpuset_exact {wide : Nat → UInt32} {fuel : Nat} {str : List Char} {runCpus : List UInt32}
    (h : cstrToCpuset wide fuel str = .success runCpus) :
    (∀ items, str = cpuListText items → (∀ i ∈ items, i.ReadWhole) →
      (CpusExact str runCpus ↔ ∀ i ∈ items, ∀ m ∈ i.members, m < maxNumOfCpus)) ∧
    ((¬∃ items, str = cpuListText items) → ¬CpusExact str runCpus) := by
  constructor
  · rintro items rfl hitems
    have hrecorded := cpuset_recorded hitems h
    constructor
    · rintro ⟨-, -, -, -, hlt, -⟩ i hi m hm
      have hmem : m ∈ runCpus.map UInt32.toNat := by
        rw [hrecorded, mem_recorded]
        exact List.mem_flatMap.mpr ⟨i, hi, hm⟩
      obtain ⟨cpu, hcpu, rfl⟩ := List.mem_map.mp hmem
      exact hlt cpu hcpu
    · intro hlt
      have hmembers : ∀ v ∈ items.flatMap CpuItem.members, v < maxNumOfCpus := by
        intro v hv
        obtain ⟨i, hi, hv⟩ := List.mem_flatMap.mp hv
        exact hlt i hi v hv
      rw [recorded_eq_eraseDups _ hmembers] at hrecorded
      have hnodup : (runCpus.map UInt32.toNat).Nodup := hrecorded ▸ nodup_eraseDups _
      have hbound : ∀ v ∈ runCpus.map UInt32.toNat, v < maxNumOfCpus := by
        intro v hv
        rw [hrecorded, List.mem_eraseDups] at hv
        exact hmembers v hv
      refine ⟨items, rfl, ?_, ?_, ?_, hrecorded⟩
      · simpa using length_le_of_nodup hnodup hbound
      · exact List.Pairwise.of_map UInt32.toNat (fun a b hne heq => hne (heq ▸ rfl)) hnodup
      · exact fun cpu hcpu => hbound cpu.toNat (List.mem_map_of_mem hcpu)
  · rintro hnone ⟨items, hstr, -⟩
    exact hnone ⟨items, hstr⟩

/-- A range, and a cpu of it once more. -/
theorem cpuset_exact_ranges : CpusExact "1-3,2".toList [1, 2, 3] := by
  have hrun : cstrToCpuset (fun _ => 0) 10 "1-3,2".toList = .success [1, 2, 3] := by decide +kernel
  let one : Numeral := ⟨['1'], by simp, by simp⟩
  let two : Numeral := ⟨['2'], by simp, by simp⟩
  let three : Numeral := ⟨['3'], by simp, by simp⟩
  refine ((cpuset_exact hrun).1 [.range one three, .number two] rfl ?_).mpr (by decide)
  have hrange : (CpuItem.range one three).ReadWhole :=
    ⟨by decide, by decide, fun _ _ _ h => (by cases h), by decide, by decide⟩
  have hnumber : (CpuItem.number two).ReadWhole :=
    ⟨by decide, by decide, fun _ _ _ h => (by cases h), by decide, by decide⟩
  intro i hi
  obtain rfl | rfl : i = .range one three ∨ i = .number two := by simpa using hi
  · exact hrange
  · exact hnumber

end Alvs
