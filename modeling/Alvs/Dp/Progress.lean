import Alvs.Dp.LockDiscipline
import Alvs.Dp.Threads
import Alvs.Lib.Progress

/-!
# Threads always get on

`threads_progress` : as long as no re-lookup of `alvs_conn_bind` finds the connection bound, a
spinlock that is taken belongs to a thread in the middle of a job, and whatever the calls leave
open is settled to, some schedule finishes the jobs of all threads, at the end of which no spinlock
is taken. A thread waits only for one that holds a spinlock, which itself waits for none.

The re-lookup that finds the connection bound leaves its spinlock taken, and is the only way to a
deadlock.
-/

namespace Alvs

open ProgLogic LProg

/-! ## The sections of a path -/

/-- A spinlock is taken by a thread that has none, and released by the one that has it. No
re-lookup of `alvs_conn_bind` finds the connection bound. -/
def heldSpec : Spec DpCall DpCall.Res LockState where
  pre g
    | .lockConnection _ => g = .free
    | .unlockConnection hashValue => g = .held hashValue
    | _ => True
  post g op r g' := findsBound ⟨op, r⟩ = false ∧ g' = g.next ⟨op, r⟩

theorem exists_unbound (op : DpCall) : ∃ r : op.Res, findsBound ⟨op, r⟩ = false := by
  cases op with
  | connInfoLookup site i => exact ⟨none, by cases site <;> rfl⟩
  | connClassLookup | schedInfoLookup => exact ⟨.notFound, rfl⟩
  | _ => exact ⟨default, rfl⟩

theorem next_broken (ev : DpEvent) : LockState.next .broken ev = .broken := by
  obtain ⟨op, r⟩ := ev
  cases op <;> rfl

section Sections

variable {α : Type}

/-- A path that has broken the discipline goes on to its end without the excuse. -/
theorem not_wp_broken : ∀ p : Prog DpCall DpCall.Res α,
    ¬ p.wp lockSpec (fun _ w => w.Idle) (.broken, false)
  | .ret _, h => by
    obtain h | ⟨-, h⟩ := h
    · cases h
    · cases h
  | .call op k, h => by
    obtain ⟨r, hr⟩ := exists_unbound op
    have hnext := h.2 r _ rfl
    rw [LockWatch.next, next_broken, hr] at hnext
    exact not_wp_broken (k r) hnext

/-- What releases its locks, meets the discipline at every call. -/
theorem wp_held : ∀ {p : Prog DpCall DpCall.Res α} {g : LockState},
    p.wp lockSpec (fun _ w => w.Idle) (g, false) → p.wp heldSpec (fun _ g' => g' = .free) g
  | .ret _, g, h => by
    obtain h | ⟨-, h⟩ := h
    · exact congrArg Prod.fst h
    · cases h
  | .call op k, g, h => by
    have hnext (r : op.Res) (hr : findsBound ⟨op, r⟩ = false) :
        (k r).wp lockSpec (fun _ w => w.Idle) (g.next ⟨op, r⟩, false) := by
      have hstep := h.2 r _ rfl
      rwa [LockWatch.next, hr] at hstep
    refine ⟨?_, ?_⟩
    · obtain ⟨r, hr⟩ := exists_unbound op
      have hbroken : g.next ⟨op, r⟩ ≠ .broken := fun hg =>
        not_wp_broken (k r) (hg ▸ hnext r hr)
      cases op with
      | lockConnection key => cases g <;> first | rfl | exact absurd rfl hbroken
      | unlockConnection hashValue =>
        cases g with
        | held hashValue' =>
          by_cases heq : hashValue = hashValue'
          · exact congrArg LockState.held heq.symm
          · exact absurd (if_neg heq) hbroken
        | _ => exact absurd rfl hbroken
      | _ => trivial
    · rintro r g' ⟨hr, rfl⟩
      exact wp_held (hnext r hr)

end Sections

/-! ## The spinlocks of a pool -/

variable {Tid : Type} [DecidableEq Tid]

/-- The call is not a re-lookup of `alvs_conn_bind` that finds the connection bound. -/
def BindOk (e : DpEnv) (_ : Tid) (op : DpCall) (s : Chip Tid) : Prop :=
  findsBound ⟨op, (dpHandle e op s.nps).1⟩ = false

instance (e : DpEnv) (t : Tid) (op : DpCall) (s : Chip Tid) : Decidable (BindOk e t op s) :=
  inferInstanceAs (Decidable (_ = _))

/-- A spinlock is taken exactly by the threads in a section that it protects. -/
def SpinlocksHeld (s : Chip Tid) (Γ : Tid → LockState) : Prop :=
  ∀ addr t, s.spinlock addr = some t ↔ ∃ h, Γ t = .held h ∧ connSpinlockAddr h = addr

variable {bulkHash : ConnClassificationKey → UInt32}

theorem SpinlocksHeld.lock {s : Chip Tid} {Γ : Tid → LockState} (h : SpinlocksHeld s Γ) {t : Tid}
    (ht : Γ t = .free) {hashValue : UInt32} (hfree : s.spinlock (connSpinlockAddr hashValue) = none)
    {s' : Chip Tid}
    (hs' : s'.spinlock = Function.update s.spinlock (connSpinlockAddr hashValue) (some t)) :
    SpinlocksHeld s' (Function.update Γ t (.held hashValue)) := by
  intro addr t'
  rw [hs', Function.update_apply, Function.update_apply]
  have hold := h addr t'
  by_cases heq : t' = t
  · subst heq
    have hnot : s.spinlock addr ≠ some t' := fun hown => by
      obtain ⟨h', hheld, -⟩ := hold.mp hown
      rw [ht] at hheld
      cases hheld
    by_cases haddr : addr = connSpinlockAddr hashValue
    · simp [haddr]
    · simp [haddr, hnot, Ne.symm haddr]
  · rw [if_neg heq, ← hold]
    by_cases haddr : addr = connSpinlockAddr hashValue
    · subst haddr
      simp [hfree, Ne.symm heq]
    · simp [haddr]

theorem SpinlocksHeld.unlock {s : Chip Tid} {Γ : Tid → LockState} (h : SpinlocksHeld s Γ) {t : Tid}
    {hashValue : UInt32} (ht : Γ t = .held hashValue) {s' : Chip Tid}
    (hs' : s'.spinlock = Function.update s.spinlock (connSpinlockAddr hashValue) none) :
    SpinlocksHeld s' (Function.update Γ t .free) := by
  intro addr t'
  rw [hs', Function.update_apply, Function.update_apply]
  have hold := h addr t'
  have hown : s.spinlock (connSpinlockAddr hashValue) = some t := (h _ t).mpr ⟨_, ht, rfl⟩
  by_cases heq : t' = t
  · subst heq
    by_cases haddr : addr = connSpinlockAddr hashValue
    · simp [haddr]
    · simpa [haddr, ht, Ne.symm haddr] using hold
  · rw [if_neg heq, ← hold]
    by_cases haddr : addr = connSpinlockAddr hashValue
    · subst haddr
      simp [hown, Ne.symm heq]
    · simp [haddr]

theorem next_offLock {op : DpCall} (hop : op.OffLock) (g : LockState) (r : op.Res) :
    g.next ⟨op, r⟩ = g := by
  cases op <;> first | exact hop.elim | cases g <;> rfl

theorem spinlocksHeld_step (e : DpEnv) (t : Tid) (op : DpCall) (s : Chip Tid)
    (Γ : Tid → LockState) (r : op.Res) (s' : Chip Tid) (h : SpinlocksHeld s Γ)
    (hpre : heldSpec.pre (Γ t) op) (hok : BindOk e t op s)
    (hs : threadHandle bulkHash e t op s = some (r, s')) :
    ∃ g', heldSpec.post (Γ t) op r g' ∧ SpinlocksHeld s' (Function.update Γ t g') := by
  have hcall (hop : op.OffLock) :
      ∃ g', heldSpec.post (Γ t) op r g' ∧ SpinlocksHeld s' (Function.update Γ t g') := by
    rw [threadHandle_offLock e t hop] at hs
    obtain ⟨rfl, rfl⟩ := Prod.mk.inj (Option.some.inj hs)
    refine ⟨_, ⟨hok, rfl⟩, ?_⟩
    rw [next_offLock hop, Function.update_eq_self]
    exact h
  cases op with
  | lockConnection key =>
    simp only [threadHandle] at hs
    split at hs
    next hfree =>
      obtain ⟨rfl, rfl⟩ := Prod.mk.inj (Option.some.inj hs)
      have hnext : (Γ t).next ⟨.lockConnection key, bulkHash key⟩ = .held (bulkHash key) := by
        rw [show Γ t = .free from hpre]
        rfl
      exact ⟨_, ⟨rfl, rfl⟩, hnext ▸ h.lock hpre hfree rfl⟩
    next => cases hs
  | unlockConnection hashValue =>
    obtain ⟨rfl, rfl⟩ := Prod.mk.inj (Option.some.inj hs)
    have hnext : (Γ t).next ⟨.unlockConnection hashValue, ()⟩ = .free := by
      rw [show Γ t = .held hashValue from hpre]
      exact if_pos rfl
    exact ⟨_, ⟨rfl, rfl⟩, hnext ▸ h.unlock hpre rfl⟩
  | _ => exact hcall trivial

/-- The threads' programs, and the spinlocks that they have. -/
abbrev HeldInv (c : Pool Tid (Chip Tid) DpCall DpCall.Res Cmem) : Prop :=
  Machine.Inv (fun _ => heldSpec) (fun _ _ g => g = .free) SpinlocksHeld c

omit [DecidableEq Tid] in
theorem heldInv_init (nps : Nps) (mem : Tid → Cmem) : HeldInv (threadPool nps mem) := by
  refine ⟨fun _ => .free, fun addr t => iff_of_false (Option.some_ne_none t).symm ?_, fun _ => rfl⟩
  rintro ⟨h, hheld, -⟩
  cases hheld

theorem heldInv_run (nps : Nps) (mem : Tid → Cmem) {as : List (PoolAct Tid DpJob DpEnv)}
    (has : Always (Machine.ActOk BindOk) (threadMachine bulkHash).act (threadPool nps mem) as) :
    HeldInv (as.foldl (threadMachine bulkHash).act (threadPool nps mem)) := by
  refine Machine.inv_run (fun t j l g hg => ?_) spinlocksHeld_step (heldInv_init nps mem) has
  obtain rfl : g = .free := hg
  exact wp_held (wp_job.mpr (disciplined_sections.job j l (.free, false) (.inl rfl)))

/-! ## Progress -/

section Progress

variable {c : Pool Tid (Chip Tid) DpCall DpCall.Res Cmem}

/-- The next call of a thread is the re-lookup of `alvs_conn_bind`, and finds the connection
bound. -/
def FindsConnBound (c : Pool Tid (Chip Tid) DpCall DpCall.Res Cmem) : Prop :=
  ∃ t, (c.thread t).NextIs fun op => ∃ i, op = .connInfoLookup .bind i ∧
    ∃ x ∈ c.shared.nps.connInfo i, x.bound = true

omit [DecidableEq Tid] in
/-- A thread that has a spinlock is not idle. -/
theorem HeldInv.busy (h : HeldInv c) {addr : UInt32} {t : Tid}
    (howner : c.shared.spinlock addr = some t) : c.Busy t := by
  obtain ⟨Γ, hheld, hwp⟩ := h
  obtain ⟨hashValue, ht, -⟩ := (hheld addr t).mp howner
  cases hp : c.thread t with
  | ret l =>
    have hidle := hwp t
    rw [hp, ht] at hidle
    cases hidle
  | call op k => exact ⟨op, k, hp⟩

/-- Some thread can make its call : one that waits for a spinlock, or the one that has it. -/
theorem HeldInv.exists_enabled (h : HeldInv c) (hbusy : ¬ c.Quiescent) :
    ∃ t op k, c.thread t = .call op k ∧
      ∀ e, ∃ r s', threadHandle bulkHash e t op c.shared = some (r, s') := by
  obtain ⟨t, op, k, ht⟩ := Pool.exists_busy hbusy
  have hgo {t : Tid} {op : DpCall} {k : op.Res → Prog DpCall DpCall.Res Cmem}
      (ht : c.thread t = .call op k) (hop : ∀ key, op ≠ .lockConnection key) :
      ∃ t op k, c.thread t = .call op k ∧
        ∀ e, ∃ r s', threadHandle bulkHash e t op c.shared = some (r, s') := by
    refine ⟨t, op, k, ht, fun e => ?_⟩
    cases op with
    | lockConnection key => exact absurd rfl (hop key)
    | _ => exact ⟨_, _, rfl⟩
  by_cases hlock : ∃ key, op = .lockConnection key
  swap
  · exact hgo ht fun key heq => hlock ⟨key, heq⟩
  obtain ⟨key, rfl⟩ := hlock
  cases howner : c.shared.spinlock (connSpinlockAddr (bulkHash key)) with
  | none => exact ⟨t, _, k, ht, fun e => ⟨_, _, if_pos howner⟩⟩
  | some t' =>
    obtain ⟨op', k', ht'⟩ := h.busy howner
    obtain ⟨Γ, hheld, hwp⟩ := h
    obtain ⟨hashValue, hΓ, -⟩ := (hheld _ t').mp howner
    refine hgo ht' ?_
    rintro key' rfl
    -- the thread that has the spinlock would take another one
    have hpre := hwp t'
    rw [ht', Prog.wp_call, hΓ] at hpre
    cases hpre.1

omit [DecidableEq Tid] in
theorem HeldInv.spinlock_free (h : HeldInv c) (hidle : c.Quiescent) (addr : UInt32) :
    c.shared.spinlock addr = none := by
  by_contra hne
  obtain ⟨t, ht⟩ := Option.ne_none_iff_exists'.mp hne
  obtain ⟨op, k, hbusy⟩ := h.busy ht
  obtain ⟨l, hl⟩ := hidle t
  rw [hl] at hbusy
  cases hbusy

omit [DecidableEq Tid] in
theorem bindOk_of_not_finds (h : ¬ FindsConnBound c) {t : Tid} {op : DpCall}
    {k : op.Res → Prog DpCall DpCall.Res Cmem} (ht : c.thread t = .call op k) (e : DpEnv) :
    BindOk e t op c.shared := by
  cases op with
  | connInfoLookup site i =>
    cases site with
    | bind =>
      show findsBound ⟨.connInfoLookup .bind i, c.shared.nps.connInfo i⟩ = false
      cases hinfo : c.shared.nps.connInfo i with
      | none => rfl
      | some x =>
        by_contra hbound
        refine h ⟨t, ?_⟩
        rw [ht]
        exact ⟨i, rfl, x, hinfo, by simpa [findsBound] using hbound⟩
    | _ => rfl
  | _ => rfl

/-- Where no re-lookup of `alvs_conn_bind` has found the connection bound, a spinlock that is taken
belongs to a thread that is not idle, and some schedule of the threads finishes their jobs and
leaves no spinlock taken, unless on its way such a re-lookup finds the connection bound. -/
theorem threads_progress [Finite Tid] (bulkHash : ConnClassificationKey → UInt32) (nps : Nps)
    (mem : Tid → Cmem) (as : List (PoolAct Tid DpJob DpEnv))
    (has : Always (Machine.ActOk BindOk) (threadMachine bulkHash).act (threadPool nps mem) as)
    (env : Pool Tid (Chip Tid) DpCall DpCall.Res Cmem → DpEnv) :
    (∀ addr t, (as.foldl (threadMachine bulkHash).act (threadPool nps mem)).shared.spinlock addr =
        some t → (as.foldl (threadMachine bulkHash).act (threadPool nps mem)).Busy t) ∧
    ∃ (ts : List Tid) (c : Pool Tid (Chip Tid) DpCall DpCall.Res Cmem),
      c = ts.foldl (fun c t => (threadMachine bulkHash).step c t (env c))
        (as.foldl (threadMachine bulkHash).act (threadPool nps mem)) ∧
      (FindsConnBound c ∨ c.Quiescent ∧ ∀ addr, c.shared.spinlock addr = none) := by
  have hinv := heldInv_run nps mem has
  refine ⟨fun addr t ht => hinv.busy ht, ?_⟩
  have hgo (c : Pool Tid (Chip Tid) DpCall DpCall.Res Cmem) (hc : HeldInv c) :
      (FindsConnBound c ∨ c.Quiescent ∧ ∀ addr, c.shared.spinlock addr = none) ∨
        ∃ t, (threadMachine bulkHash).Moves t (env c) c
            ((threadMachine bulkHash).step c t (env c)) ∧
          HeldInv ((threadMachine bulkHash).step c t (env c)) := by
    by_cases hfinds : FindsConnBound c
    · exact .inl (.inl hfinds)
    by_cases hidle : c.Quiescent
    · exact .inl (.inr ⟨hidle, hc.spinlock_free hidle⟩)
    right
    obtain ⟨t, op, k, ht, henabled⟩ := hc.exists_enabled hidle
    obtain ⟨r, s', hs'⟩ := henabled (env c)
    refine ⟨t, Machine.moves_of_enabled ht hs', ?_⟩
    exact Machine.inv_step spinlocksHeld_step hc t (env c) fun op k hop =>
      bindOk_of_not_finds hfinds hop (env c)
  obtain ⟨ts, hts⟩ := Machine.exists_run env hgo hinv
  exact ⟨ts, _, rfl, hts⟩

theorem threads_progress_aged :
    ∃ (ts : List (Fin 3)) (c : Pool (Fin 3) (Chip (Fin 3)) DpCall DpCall.Res Cmem),
      c = ts.foldl (fun c t => (threadMachine fun _ => 7).step c t exampleEnv)
        (agedConnection.foldl (threadMachine fun _ => 7).act
          (threadPool Sys.init.nps fun _ => .zero)) ∧
      (FindsConnBound c ∨ c.Quiescent ∧ ∀ addr, c.shared.spinlock addr = none) :=
  (threads_progress (fun _ => 7) Sys.init.nps (fun _ => .zero) agedConnection (by decide +kernel)
    fun _ => exampleEnv).2

end Progress

end Alvs
