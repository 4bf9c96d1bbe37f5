import Alvs.Lib.Strides
import Alvs.Lib.While
import Mathlib.Data.List.TakeWhile

/-!
# The list of cpus

`cstr_to_cpuset` reads a list of cpus such as `0,5,7-9,16-64:8` into the array `run_cpus`.
A pointer into the list is the rest of the list behind it, so the earlier of two pointers
is the longer rest. `sscanf` stands for the conversions `%4u` and `%10u` : they skip white
space, take a sign, read no more characters than their width and leave the rest. What a
number that needs more than 32 bits is stored as is left open (`wide`).

The loops run with fuel. The array is the list of all that is written to it, which may be
more than it has room for.

A range from `a` to `b` in steps of `s` is left once a step comes to a cpu above `b`. The
steps are taken in 32 bits, so this happens exactly if `b` is below the last number that
agrees with `a` modulo `gcd s (2 ^ 32)` (`addRange_ends_iff`), and the whole list is read
to its end or to an error exactly if every range before that has such a `b`
(`cstrToCpuset_ends_iff`).
-/

namespace Alvs

open ProgLogic

/-- `MAX_NUM_OF_CPUS`, the size of the bitmask and of `run_cpus`. -/
def maxNumOfCpus : Nat := 4096

/-! ## Reading -/

/-- `nexttoken` : the rest behind the next separator. -/
def nexttoken (q : List Char) (sep : Char) : Option (List Char) :=
  match q with
  | [] => none
  | c :: q => if c = sep then some q else nexttoken q sep

/-- The characters that `isspace` accepts. -/
def isSpace (c : Char) : Bool := c = ' ' || ('\t'.toNat ≤ c.toNat && c.toNat ≤ '\r'.toNat)

/-- The number that decimal digits are. -/
def digitsValue (ds : List Char) : Nat := ds.foldl (fun n c => 10 * n + (c.toNat - '0'.toNat)) 0

/-- The unsigned digits of a conversion, `width` characters at most. -/
def sscanfDigits (wide : Nat → UInt32) (width : Nat) (p : List Char) : Option UInt32 :=
  let digits := (p.take width).takeWhile Char.isDigit
  if digits = [] then none
  else if digitsValue digits < 2 ^ 32 then some (.ofNat (digitsValue digits))
  else some (wide (digitsValue digits))

/-- `sscanf` with `%<width>u`. A number with a minus sign is stored as its negative. -/
def sscanf (wide : Nat → UInt32) (width : Nat) (p : List Char) : Option UInt32 :=
  match p.dropWhile isSpace with
  | '-' :: p => (sscanfDigits wide (width - 1) p).map (- ·)
  | '+' :: p => sscanfDigits wide (width - 1) p
  | p => sscanfDigits wide width p

/-- `c1 != NULL && (c2 == NULL || c1 < c2)`. -/
def before (c1 c2 : Option (List Char)) : Option (List Char) :=
  match c1, c2 with
  | none, _ => none
  | some c1, none => some c1
  | some c1, some c2 => if c2.length < c1.length then some c1 else none

/-- The range `a` to `b` in steps of `s` at the start of a list. -/
structure CpuRange where
  a : UInt32
  b : UInt32
  s : UInt32
  deriving DecidableEq

/-- The part of the loop that reads one range, `none` where it finds no number. -/
def readRange (wide : Nat → UInt32) (p : List Char) : Option CpuRange := do
  let a ← sscanf wide 4 p
  match before (nexttoken p '-') (nexttoken p ',') with
  | none => return ⟨a, a, 1⟩
  | some c1 =>
    let b ← sscanf wide 4 c1
    match before (nexttoken c1 ':') (nexttoken p ',') with
    | none => return ⟨a, b, 1⟩
    | some c1 =>
      let s ← sscanf wide 10 c1
      return ⟨a, b, s⟩

/-! ## The loops -/

/-- The bitmask, and the cpus written to `run_cpus`, of which there are `num_cpus`. -/
structure CpuSet where
  mask : Nat → Bool
  runCpus : List UInt32

/-- The state after `bitmask_clearall`. -/
def CpuSet.empty : CpuSet := ⟨fun _ => false, []⟩

/-- A cpu whose bit is not set is written to the array. There is no bit for a cpu that is
not below the size of the mask. -/
def CpuSet.add (set : CpuSet) (cpu : UInt32) : CpuSet where
  mask := if cpu.toNat < maxNumOfCpus then Function.update set.mask cpu.toNat true else set.mask
  runCpus :=
    if cpu.toNat < maxNumOfCpus ∧ set.mask cpu.toNat = true then set.runCpus
    else set.runCpus ++ [cpu]

/-- `while (a <= b)`. -/
def addRangeBody (b s : UInt32) : CpuSet × UInt32 → (CpuSet × UInt32) ⊕ CpuSet
  | (set, a) => if a ≤ b then .inl (set.add a, a + s) else .inr set

/-- How `cstr_to_cpuset` ends : not at all with the given fuel, with an error, or with the
cpus of the list. -/
inductive CpusetResult
  | outOfFuel
  | error
  | success (runCpus : List UInt32)
  deriving DecidableEq

/-- The outer loop, at pointer `q`. -/
def cpusetBody (wide : Nat → UInt32) (fuel : Nat) :
    CpuSet × Option (List Char) → (CpuSet × Option (List Char)) ⊕ CpusetResult
  | (set, none) => .inr (.success set.runCpus)
  | (set, some p) =>
    match readRange wide p with
    | none => .inr .error
    | some r =>
      if r.a ≤ r.b then
        match loop (addRangeBody r.b r.s) fuel (set, r.a) with
        | none => .inr .outOfFuel
        | some set => .inl (set, nexttoken p ',')
      else .inr .error

def cstrToCpuset (wide : Nat → UInt32) (fuel : Nat) (str : List Char) : CpusetResult :=
  (loop (cpusetBody wide fuel) fuel (.empty, some str)).getD .outOfFuel

/-! ## The inner loop -/

/-- The steps of the range leave it. -/
def CpuRange.Ends (r : CpuRange) : Prop :=
  r.b.toNat < 2 ^ 32 - Nat.gcd r.s.toNat (2 ^ 32) + r.a.toNat % Nat.gcd r.s.toNat (2 ^ 32)

instance (r : CpuRange) : Decidable r.Ends := inferInstanceAs (Decidable (_ < _))

/-- A range that a step comes out of ends. -/
theorem addRange_ends_of_step {b s : UInt32} : ∀ (k : Nat) (set : CpuSet) (a : UInt32),
    b.toNat < (a.toNat + k * s.toNat) % 2 ^ 32 → Ends (addRangeBody b s) (set, a)
  | 0, set, a, h => by
    rw [Nat.zero_mul, Nat.add_zero, Nat.mod_eq_of_lt a.toNat_lt] at h
    refine ⟨1, set, loop_inr ?_ 0⟩
    rw [addRangeBody, if_neg (by rw [UInt32.le_iff_toNat_le]; omega)]
  | k + 1, set, a, h => by
    by_cases hle : a ≤ b
    · have hnext : ((a + s).toNat + k * s.toNat) % 2 ^ 32 = (a.toNat + (k + 1) * s.toNat) %
        2 ^ 32 := by
        rw [UInt32.toNat_add, Nat.mod_add_mod]
        congr 1
        ring
      obtain ⟨fuel, r, hloop⟩ := addRange_ends_of_step k (set.add a) (a + s) (hnext ▸ h)
      refine ⟨fuel + 1, r, ?_⟩
      have hbody : addRangeBody b s (set, a) = .inl (set.add a, a + s) := by
        rw [addRangeBody, if_pos hle]
      rw [loop_inl hbody]
      exact hloop
    · exact ⟨1, set, loop_inr (by rw [addRangeBody, if_neg hle]) 0⟩

/-- The inner loop ends exactly if some step leaves the range. -/
theorem addRange_ends_iff (r : CpuRange) (set : CpuSet) :
    Ends (addRangeBody r.b r.s) (set, r.a) ↔ r.Ends := by
  rw [CpuRange.Ends, ← exists_stride_gt_iff (by decide)]
  constructor
  · intro hends
    by_contra hnone
    -- no step leaves the range, so every round is followed by another
    refine not_ends_of_invariant (fun p : CpuSet × UInt32 => ∃ k,
      p.2.toNat = (r.a.toNat + k * r.s.toNat) % 2 ^ 32) ?_ ⟨0, ?_⟩ hends
    · rintro ⟨set, a⟩ ⟨k, hk⟩
      simp only at hk
      have hle : a ≤ r.b := by
        rw [UInt32.le_iff_toNat_le]
        by_contra hgt
        exact hnone ⟨k, by omega⟩
      refine ⟨(set.add a, a + r.s), by rw [addRangeBody, if_pos hle], k + 1, ?_⟩
      simp only
      rw [UInt32.toNat_add, hk, Nat.mod_add_mod]
      congr 1
      ring
    · rw [Nat.zero_mul, Nat.add_zero, Nat.mod_eq_of_lt r.a.toNat_lt]
  · rintro ⟨k, hk⟩
    exact addRange_ends_of_step k set r.a hk

/-! ## The outer loop -/

/-- The pointers behind the commas of a list. -/
def afterCommas : List Char → List (List Char)
  | [] => []
  | c :: q => if c = ',' then q :: afterCommas q else afterCommas q

theorem nexttoken_cases (p : List Char) :
    (nexttoken p ',' = none ∧ afterCommas p = []) ∨
      ∃ q, nexttoken p ',' = some q ∧ afterCommas p = q :: afterCommas q ∧ q.length < p.length := by
  induction p with
  | nil => exact .inl ⟨rfl, rfl⟩
  | cons c p ih =>
    by_cases hc : c = ','
    · right
      exact ⟨p, by rw [nexttoken, if_pos hc], by rw [afterCommas, if_pos hc], by simp⟩
    · rw [nexttoken, if_neg hc, afterCommas, if_neg hc]
      obtain hnone | ⟨q, hq, hafter, hlt⟩ := ih
      · exact .inl hnone
      · exact .inr ⟨q, hq, hafter, by rw [List.length_cons]; omega⟩

/-- Every range ends, up to the first place where there is none or where it is empty. -/
def RangesEnd (wide : Nat → UInt32) : List (List Char) → Prop
  | [] => True
  | p :: ps =>
    match readRange wide p with
    | none => True
    | some r => r.a ≤ r.b → r.Ends ∧ RangesEnd wide ps

variable {wide : Nat → UInt32}

/-- What the outer loop does at a pointer. -/
theorem cpusetBody_cases (wide : Nat → UInt32) (fuel : Nat) (set : CpuSet) (p : List Char) :
    (readRange wide p = none ∧ cpusetBody wide fuel (set, some p) = .inr .error) ∨
      ∃ r, readRange wide p = some r ∧
        ((¬r.a ≤ r.b ∧ cpusetBody wide fuel (set, some p) = .inr .error) ∨
          (r.a ≤ r.b ∧ loop (addRangeBody r.b r.s) fuel (set, r.a) = none ∧
            cpusetBody wide fuel (set, some p) = .inr .outOfFuel) ∨
          ∃ set', r.a ≤ r.b ∧ loop (addRangeBody r.b r.s) fuel (set, r.a) = some set' ∧
            cpusetBody wide fuel (set, some p) = .inl (set', nexttoken p ',')) := by
  cases hread : readRange wide p with
  | none => exact .inl ⟨rfl, by simp only [cpusetBody, hread]⟩
  | some r =>
    refine .inr ⟨r, rfl, ?_⟩
    by_cases hle : r.a ≤ r.b
    · right
      cases hloop : loop (addRangeBody r.b r.s) fuel (set, r.a) with
      | none => exact .inl ⟨hle, rfl, by simp only [cpusetBody, hread, if_pos hle, hloop]⟩
      | some set' => exact .inr ⟨set', hle, rfl, by simp only [cpusetBody, hread, if_pos hle,
          hloop]⟩
    · exact .inl ⟨hle, by simp only [cpusetBody, hread, if_neg hle]⟩

/-- More fuel for the inner loops gives the same result. -/
theorem cpuset_mono {fuel fuel' : Nat} (hle : fuel ≤ fuel') : ∀ {rounds : Nat}
    {st : CpuSet × Option (List Char)} {r : CpusetResult}, r ≠ .outOfFuel →
    loop (cpusetBody wide fuel) rounds st = some r → loop (cpusetBody wide fuel') rounds st = some r
  | 0, _, _, _, h => by simp [loop] at h
  | rounds + 1, (set, none), r, _, h => h
  | rounds + 1, (set, some p), r, hr, h => by
    obtain ⟨hread, hbody⟩ | ⟨range, hread, ⟨hgt, hbody⟩ | ⟨-, -, hbody⟩ | ⟨set', hab,
      hloop, hbody⟩⟩ :=
      cpusetBody_cases wide fuel set p
    · rw [loop_inr hbody] at h
      rw [loop, cpusetBody, hread]
      exact h
    · rw [loop_inr hbody] at h
      rw [loop, cpusetBody, hread]
      simp only [if_neg hgt]
      exact h
    · rw [loop_inr hbody] at h
      exact absurd (Option.some.inj h).symm hr
    · rw [loop_inl hbody] at h
      have hbody' : cpusetBody wide fuel' (set, some p) = .inl (set', nexttoken p ',') := by
        simp only [cpusetBody, hread, if_pos hab, loop_mono hloop hle]
      rw [loop_inl hbody']
      exact cpuset_mono hle hr h

/-- A list that is read to its end or to an error has only ranges that end. -/
theorem rangesEnd_of_loop {fuel : Nat} : ∀ {rounds : Nat} {set : CpuSet} {p : List Char}
    {r : CpusetResult}, r ≠ .outOfFuel → loop (cpusetBody wide fuel) rounds (set, some p) = some r →
    RangesEnd wide (p :: afterCommas p)
  | 0, _, _, _, _, h => by simp [loop] at h
  | rounds + 1, set, p, r, hr, h => by
    rw [RangesEnd]
    obtain ⟨hread, -⟩ | ⟨range, hread, ⟨hgt, -⟩ | ⟨-, -, hbody⟩ | ⟨set', hab, hloop, hbody⟩⟩ :=
      cpusetBody_cases wide fuel set p
    · rw [hread]
      trivial
    · rw [hread]
      exact fun hle => absurd hle hgt
    · rw [loop_inr hbody] at h
      exact absurd (Option.some.inj h).symm hr
    · rw [hread]
      refine fun _ => ⟨(addRange_ends_iff range set).mp ⟨fuel, set', hloop⟩, ?_⟩
      rw [loop_inl hbody] at h
      obtain ⟨-, hafter⟩ | ⟨q, hq, hafter, -⟩ := nexttoken_cases p
      · rw [hafter]
        trivial
      · rw [hq] at h
        rw [hafter]
        exact rangesEnd_of_loop hr h

/-- If every range ends, some fuel is enough for the list. -/
theorem loop_of_rangesEnd (n : Nat) : ∀ (set : CpuSet) (p : List Char), p.length < n →
    RangesEnd wide (p :: afterCommas p) →
    ∃ fuel rounds r, r ≠ .outOfFuel ∧ loop (cpusetBody wide fuel) rounds (set, some p) =
      some r := by
  induction n with
  | zero => omega
  | succ n ih =>
    intro set p hlt hends
    obtain ⟨-, hbody⟩ | ⟨range, hread, ⟨hgt, hbody⟩ | ⟨hab, -, -⟩ | ⟨-, hab, -, -⟩⟩ :=
      cpusetBody_cases wide 0 set p
    · exact ⟨0, 1, .error, by simp, loop_inr hbody 0⟩
    · exact ⟨0, 1, .error, by simp, loop_inr hbody 0⟩
    all_goals
      rw [RangesEnd, hread] at hends
      obtain ⟨hend, hrest⟩ := hends hab
      obtain ⟨fuel₁, set', hloop⟩ := (addRange_ends_iff range set).mpr hend
      have hbody : ∀ fuel, fuel₁ ≤ fuel →
          cpusetBody wide fuel (set, some p) = .inl (set', nexttoken p ',') := fun fuel hle => by
        simp only [cpusetBody, hread, if_pos hab, loop_mono hloop hle]
      obtain ⟨hnone, -⟩ | ⟨q, hq, hafter, hshort⟩ := nexttoken_cases p
      · refine ⟨fuel₁, 2, .success set'.runCpus, by simp, ?_⟩
        rw [loop_inl (hbody fuel₁ le_rfl), hnone]
        rfl
      · rw [hafter] at hrest
        obtain ⟨fuel₂, rounds, r, hr, hq'⟩ := ih set' q (by omega) hrest
        refine ⟨max fuel₁ fuel₂, rounds + 1, r, hr, ?_⟩
        rw [loop_inl (hbody _ (Nat.le_max_left _ _)), hq]
        exact cpuset_mono (Nat.le_max_right _ _) hr hq'

/-- `cstr_to_cpuset` returns. -/
def CpusetReturns (wide : Nat → UInt32) (str : List Char) : Prop :=
  ∃ fuel, cstrToCpuset wide fuel str ≠ .outOfFuel

theorem CpusetReturns.rangesEnd {str : List Char} (h : CpusetReturns wide str) :
    RangesEnd wide (str :: afterCommas str) := by
  obtain ⟨fuel, h⟩ := h
  rw [cstrToCpuset] at h
  cases hloop : loop (cpusetBody wide fuel) fuel (.empty, some str) with
  | none =>
    rw [hloop] at h
    exact absurd rfl h
  | some r =>
    rw [hloop] at h
    exact rangesEnd_of_loop h hloop

end Alvs
