import Alvs.Dp.Packet
import Alvs.Lib.Runs
import Alvs.Lib.Tally
import Mathlib.Algebra.Ring.Int.Defs

/-!
# Admission of connections

Any number of threads create and delete connections of one server. A creation counts its
connection in CONNECTION_TOTAL and is admitted or refused by what it read; a deletion takes
a live connection off. `overloadMachine` interleaves the single calls on the counter and on
the word of flags.

`admissionBound_run` : no more connections are admitted than the upper threshold.
-/

namespace Alvs

open ProgLogic LProg

/-! ## Creations and deletions of one server -/

/-- A call on the chip, or the start or the end of the life of a connection. -/
inductive ConnCall
  | chip (op : DpCall)
  | accept
  | remove

@[reducible] def ConnCall.Res : ConnCall → Type
  | chip op => op.Res
  | accept | remove => Unit

/-- The chip and the number of live connections of the server. -/
structure ServerChip where
  nps : Nps
  live : Nat

def connCall (e : DpEnv) : (op : ConnCall) → ServerChip → op.Res × ServerChip
  | .chip op, s => ((dpHandle e op s.nps).1, { s with nps := (dpHandle e op s.nps).2 })
  | .accept, s => ((), { s with live := s.live + 1 })
  | .remove, s => ((), { s with live := s.live - 1 })

/-- A deletion begins only if there is a live connection. -/
def ConnCall.Enabled : ConnCall → ServerChip → Prop
  | remove, s => 0 < s.live
  | _, _ => True

instance : (op : ConnCall) → (s : ServerChip) → Decidable (op.Enabled s)
  | .remove, s => inferInstanceAs (Decidable (0 < s.live))
  | .chip _, _ | .accept, _ => .isTrue trivial

/-- The program of a data plane thread among the calls on connections. -/
def onChip {α : Type} : Prog DpCall DpCall.Res α → Prog ConnCall ConnCall.Res α
  | .ret a => .ret a
  | .call op k => .call (.chip op) fun r => onChip (k r)

inductive ConnJob
  | create
  | delete
  deriving DecidableEq

/-- A creation, up to what `alvs_sched_get_server_info` makes of it, and the part of a
deletion that follows the removal of the entry. The lookup of the server has filled
`server_info_result`. -/
def connJob (info : ServerInfoResult) (serverIndex : UInt16) :
    ConnJob → Cmem → Prog ConnCall ConnCall.Res Cmem
  | .create, m => do
    let (flags, m) ← onChip ((alvsServerOverloadOnCreateConn serverIndex).run
      { m with serverInfoResult := info })
    if flags &&& ipVsDestFOverload ≠ 0 then
      pure m
    else
      let _ ← Prog.perform .accept
      pure m
  | .delete, m => do
    let _ ← Prog.perform .remove
    let (_, m) ← onChip ((alvsServerOverloadOnDeleteConn serverIndex).run
      { m with serverInfoResult := info })
    pure m

/-- Threads that create and delete connections of the server. -/
def overloadMachine (Tid : Type) (info : ServerInfoResult) (serverIndex : UInt16) :
    Machine Tid ServerChip ConnCall ConnCall.Res Cmem ConnJob DpEnv where
  handle e _ op s := if op.Enabled s then some (connCall e op s) else none
  job _ j m := connJob info serverIndex j m

theorem overloadMachine_handle {Tid : Type} {info : ServerInfoResult} {i : UInt16} {e : DpEnv}
    {t : Tid} {op : ConnCall} {s s' : ServerChip} {r : op.Res}
    (h : (overloadMachine Tid info i).handle e t op s = some (r, s')) :
    op.Enabled s ∧ connCall e op s = (r, s') := by
  simp only [overloadMachine] at h
  split at h
  next hen => exact ⟨hen, Option.some.inj h⟩
  next => exact absurd h nofun

def overloadPool {Tid : Type} (s : ServerChip) (mem : Tid → Cmem) :
    Pool Tid ServerChip ConnCall ConnCall.Res Cmem where
  shared := s
  thread t := .ret (mem t)

/-- The server is marked as overloaded. -/
def ServerChip.Overloaded (info : ServerInfoResult) (s : ServerChip) : Prop :=
  s.nps.serverFlagsWord info.serverFlagsDpBase &&& ipVsDestFOverload ≠ 0

instance (info : ServerInfoResult) (s : ServerChip) : Decidable (s.Overloaded info) :=
  inferInstanceAs (Decidable (_ ≠ _))

/-! ## What a creation and a deletion do -/

/-- What a creation that finds the flag and the count `counter` decides. -/
def ServerInfoResult.admits (info : ServerInfoResult) (overloaded : Bool) (counter : UInt64) :
    Bool :=
  if counter = info.uThresh.toUInt64 then !overloaded
  else if info.uThresh.toUInt64 < counter then false
  else if info.lThresh ≠ 0 ∧ counter ≤ info.lThresh.toUInt64 then true
  else !overloaded

/-- A deletion that leaves the count `counter` clears the flag. -/
def ServerInfoResult.clears (info : ServerInfoResult) (counter : UInt64) : Bool :=
  if info.lThresh ≠ 0 then counter < info.lThresh.toUInt64
  else counter * 4 < info.uThresh.toUInt64 * 3

/-- How far a thread is : its creation has read the flag, has counted a connection that is
admitted or refused, or its deletion has removed a connection or is about to clear the
flag. -/
inductive OverloadPhase
  | idle
  | flagRead (overloaded : Bool)
  | admitted
  | refused
  | removed
  | clearing
  deriving DecidableEq

/-- The thread has a connection counted that is not live. -/
def OverloadPhase.counted : OverloadPhase → Int
  | admitted | refused | removed => 1
  | _ => 0

/-- The thread has a connection that will be live. -/
def OverloadPhase.admits : OverloadPhase → Int
  | admitted => 1
  | _ => 0

/-- The phase of a thread after a call. -/
def OverloadPhase.next (info : ServerInfoResult) (g : OverloadPhase) :
    (op : ConnCall) → op.Res → OverloadPhase
  | .chip (.atomicRead32 _), r => .flagRead (r &&& ipVsDestFOverload ≠ 0)
  | .chip (.readAndIncSingleCtr _), r =>
    match g with
    | .flagRead b => if info.admits b (r + 1) then .admitted else .refused
    | g => g
  | .chip (.decSingleCtr _), _ => .idle
  | .chip (.readAndDecSingleCtr _), r => if info.clears (r - 1) then .clearing else .idle
  | .chip (.atomicAnd32 _ _), _ => if g = .clearing then .idle else g
  | .accept, _ => .idle
  | .remove, _ => .removed
  | _, _ => g

section Next

variable (info : ServerInfoResult) (a : SumAddr) (r : UInt64)

theorem counted_next_inc (b : Bool) :
    (OverloadPhase.next info (.flagRead b) (.chip (.readAndIncSingleCtr a)) r).counted = 1 := by
  simp only [OverloadPhase.next]
  split <;> rfl

theorem admits_next_inc (b : Bool) :
    (OverloadPhase.next info (.flagRead b) (.chip (.readAndIncSingleCtr a)) r).admits =
      if info.admits b (r + 1) then 1 else 0 := by
  simp only [OverloadPhase.next]
  split <;> rfl

theorem counted_next_dec (g : OverloadPhase) :
    (g.next info (.chip (.readAndDecSingleCtr a)) r).counted = 0 := by
  simp only [OverloadPhase.next]
  split <;> rfl

theorem admits_next_dec (g : OverloadPhase) :
    (g.next info (.chip (.readAndDecSingleCtr a)) r).admits = 0 := by
  simp only [OverloadPhase.next]
  split <;> rfl

end Next

/-- The calls that a thread makes in a phase. -/
def OverloadPhase.Makes (info : ServerInfoResult) (g : OverloadPhase) : ConnCall → Prop
  | .chip (.atomicRead32 a) => a = info.serverFlagsDpBase ∧ g = .idle
  | .chip (.readAndIncSingleCtr a) => a = info.connTotal ∧ ∃ b, g = .flagRead b
  | .chip (.decSingleCtr a) => a = info.connTotal ∧ g = .refused
  | .chip (.readAndDecSingleCtr a) => a = info.connTotal ∧ g = .removed
  | .chip (.atomicOr32 a v) =>
    a = info.serverFlagsDpBase ∧ v = ipVsDestFOverload ∧ (g = .admitted ∨ g = .refused)
  | .chip (.atomicAnd32 a v) =>
    a = info.serverFlagsDpBase ∧ v = ~~~ipVsDestFOverload ∧ (g = .admitted ∨ g = .clearing)
  | .accept => g = .admitted
  | .remove => g = .idle
  | _ => False

/-- The calls of creations and deletions, as moves of the phase. -/
def overloadSpec (info : ServerInfoResult) : Spec ConnCall ConnCall.Res OverloadPhase where
  pre g op := g.Makes info op
  post g op r g' := g' = g.next info op r

/-- The calls of a data plane program in a specification of the calls on connections. -/
def chipSpec {γ : Type} (S : Spec ConnCall ConnCall.Res γ) : Spec DpCall DpCall.Res γ where
  pre g op := S.pre g (.chip op)
  post g op r g' := S.post g (.chip op) r g'

theorem wp_onChip {γ α : Type} {S : Spec ConnCall ConnCall.Res γ} :
    ∀ (p : Prog DpCall DpCall.Res α) (Q : α → γ → Prop) (g : γ),
    (onChip p).wp S Q g ↔ p.wp (chipSpec S) Q g
  | .ret _, _, _ => Iff.rfl
  | .call _ k, Q, _ =>
    and_congr_right fun _ => forall₃_congr fun r g' _ => wp_onChip (k r) Q g'

theorem wp_overloadOnCreateConn {info : ServerInfoResult} (hU : info.uThresh ≠ 0) (i : UInt16)
    (m : Cmem) (hm : m.serverInfoResult = info) :
    (alvsServerOverloadOnCreateConn i).wp (chipSpec (overloadSpec info)) (fun flags _ g =>
      g = if flags &&& ipVsDestFOverload ≠ 0 then .idle else .admitted) m .idle := by
  subst hm
  have hdec (w : UInt32) (hw : w &&& ipVsDestFOverload ≠ 0) :
      (dpCall (.decSingleCtr m.serverInfoResult.connTotal) >>= fun _ => pure w).wp
        (chipSpec (overloadSpec m.serverInfoResult)) (fun flags _ g =>
          g = if flags &&& ipVsDestFOverload ≠ 0 then .idle else .admitted) m .refused := by
    simp only [wp_bind, wp_call, wp_pure, if_pos hw]
    exact ⟨⟨rfl, rfl⟩, fun _ _ h => h⟩
  simp only [alvsServerOverloadOnCreateConn, wp_bind, wp_get, wp_call]
  refine ⟨⟨rfl, rfl⟩, ?_⟩
  rintro flags _ rfl
  refine ⟨⟨rfl, _, rfl⟩, ?_⟩
  intro total g hg
  change g = if m.serverInfoResult.admits (flags &&& ipVsDestFOverload ≠ 0) (total + 1)
    then .admitted else .refused at hg
  rw [if_neg hU]
  generalize hadm : m.serverInfoResult.admits (flags &&& ipVsDestFOverload ≠ 0) (total + 1) = b
    at hg
  unfold ServerInfoResult.admits at hadm
  refine (wp_ite _ _ _ _).mpr ⟨fun heq => ?_, fun hne => (wp_ite _ _ _ _).mpr ⟨fun hgt => ?_,
    fun hle => (wp_ite _ _ _ _).mpr ⟨fun hl => ?_, fun hl => ?_⟩⟩⟩
  · rw [if_pos heq] at hadm
    refine (wp_ite _ _ _ _).mpr ⟨fun hf => ?_, fun hf => ?_⟩
    · obtain rfl : b = false := by simpa [hf] using hadm.symm
      exact hg ▸ hdec _ hf
    · obtain rfl : b = true := by simpa [hf] using hadm.symm
      subst hg
      simp only [wp_bind, wp_call, wp_pure]
      exact ⟨⟨rfl, rfl, .inl rfl⟩, fun _ _ h => h⟩
  · rw [if_neg hne, if_pos hgt] at hadm
    subst hadm hg
    simp only [wp_bind, wp_call]
    refine ⟨⟨rfl, rfl, .inr rfl⟩, ?_⟩
    rintro - _ rfl
    exact hdec _ (by decide)
  · rw [if_neg hne, if_neg hle, if_pos hl] at hadm
    subst hadm hg
    simp only [wp_bind, wp_call, wp_pure]
    exact ⟨⟨rfl, rfl, .inl rfl⟩, fun _ _ h => h⟩
  · rw [if_neg hne, if_neg hle, if_neg hl] at hadm
    refine (wp_ite _ _ _ _).mpr ⟨fun hf => ?_, fun hf => ?_⟩
    · obtain rfl : b = false := by simpa [hf] using hadm.symm
      exact hg ▸ hdec _ hf
    · obtain rfl : b = true := by simpa [hf] using hadm.symm
      exact hg.trans (if_neg hf).symm

theorem wp_overloadOnDeleteConn {info : ServerInfoResult} (hU : info.uThresh ≠ 0) (i : UInt16)
    (m : Cmem) (hm : m.serverInfoResult = info) :
    (alvsServerOverloadOnDeleteConn i).wp (chipSpec (overloadSpec info)) (fun _ _ g => g = .idle)
      m .removed := by
  subst hm
  have hclear : (dpCall (.atomicAnd32 m.serverInfoResult.serverFlagsDpBase
      (~~~ipVsDestFOverload))).wp (chipSpec (overloadSpec m.serverInfoResult))
      (fun _ _ g => g = .idle) m .clearing :=
    ⟨⟨rfl, rfl, .inr rfl⟩, fun _ _ h => h⟩
  simp only [alvsServerOverloadOnDeleteConn, wp_bind, wp_get, wp_call]
  refine ⟨⟨rfl, rfl⟩, ?_⟩
  intro total g hg
  change g = if m.serverInfoResult.clears (total - 1) then .clearing else .idle at hg
  rw [if_neg hU]
  generalize hcl : m.serverInfoResult.clears (total - 1) = b at hg
  unfold ServerInfoResult.clears at hcl
  refine (wp_ite _ _ _ _).mpr ⟨fun hl => ?_, fun hl => ?_⟩
  all_goals
    refine (wp_ite _ _ _ _).mpr ⟨fun h => ?_, fun h => ?_⟩
  · obtain rfl : b = true := by simpa [hl, h] using hcl.symm
    obtain rfl := hg
    exact hclear
  · obtain rfl : b = false := by simpa [hl, h] using hcl.symm
    exact hg
  · obtain rfl : b = true := by simpa [hl, h] using hcl.symm
    obtain rfl := hg
    exact hclear
  · obtain rfl : b = false := by simpa [hl, h] using hcl.symm
    exact hg

theorem wp_connJob {info : ServerInfoResult} (hU : info.uThresh ≠ 0) (i : UInt16) (j : ConnJob)
    (m : Cmem) {g : OverloadPhase} (hg : g = .idle) :
    (connJob info i j m).wp (overloadSpec info) (fun _ g => g = .idle) g := by
  subst hg
  cases j with
  | create =>
    refine (Prog.wp_bind _ _ _ _).mpr ((wp_onChip _ _ _).mpr ?_)
    refine Prog.wp_mono (wp_overloadOnCreateConn hU i _ rfl) ?_
    rintro ⟨flags, m'⟩ g rfl
    by_cases hf : flags &&& ipVsDestFOverload ≠ 0
    · simp only [if_pos hf]
      rfl
    · simp only [if_neg hf]
      exact ⟨rfl, fun _ _ h => h⟩
  | delete =>
    refine (Prog.wp_bind _ _ _ _).mpr ((Prog.wp_perform _ _ _).mpr ⟨rfl, ?_⟩)
    rintro - _ rfl
    refine (Prog.wp_bind _ _ _ _).mpr ((wp_onChip _ _ _).mpr ?_)
    exact Prog.wp_mono (wp_overloadOnDeleteConn hU i _ rfl) fun _ _ h => h

/-! ## Accounts -/

theorem OverloadPhase.counted_nonneg (g : OverloadPhase) : 0 ≤ g.counted := by
  cases g <;> simp [counted]

section Accounts

variable {Tid : Type} [Fintype Tid] [DecidableEq Tid] {info : ServerInfoResult} {s : ServerChip}
  {Γ : Tid → OverloadPhase} {t : Tid}

/-- CONNECTION_TOTAL is the number of live connections and of those that threads have
counted. -/
def Accounts (info : ServerInfoResult) (s : ServerChip) (Γ : Tid → OverloadPhase) : Prop :=
  s.nps.onDemand info.connTotal = s.live + tally OverloadPhase.counted Γ

omit [DecidableEq Tid] in
/-- Where all threads are idle, the counter has nothing but live connections. -/
theorem accounts_idle (h : ∀ t, Γ t = .idle) :
    (s.live : Int) = s.live + tally OverloadPhase.counted Γ := by
  rw [tally_eq_zero fun t => by rw [h t]; rfl, add_zero]

theorem accounts_step (h : Accounts info s Γ) {op : ConnCall} (hop : (Γ t).Makes info op)
    (hen : op.Enabled s) (e : DpEnv) : Accounts info (connCall e op s).2
      (Function.update Γ t ((Γ t).next info op (connCall e op s).1)) := by
  unfold Accounts at h ⊢
  rw [tally_update]
  cases op with
  | accept =>
    have hg : Γ t = .admitted := hop
    simp only [connCall, OverloadPhase.next, hg, OverloadPhase.counted, h]
    omega
  | remove =>
    have hg : Γ t = .idle := hop
    have hlive : 0 < s.live := hen
    simp only [connCall, OverloadPhase.next, hg, OverloadPhase.counted, h]
    omega
  | chip op =>
    cases op
    case atomicRead32 a =>
      obtain ⟨-, hg⟩ := hop
      simp only [connCall, dpHandle, OverloadPhase.next, hg, OverloadPhase.counted, h]
      omega
    case readAndIncSingleCtr a =>
      obtain ⟨rfl, b, hg⟩ := hop
      rw [hg, counted_next_inc]
      simp only [connCall, dpHandle, Nps.addOnDemand, Function.update_self, OverloadPhase.counted,
        h]
      omega
    case decSingleCtr a =>
      obtain ⟨rfl, hg⟩ := hop
      simp only [connCall, dpHandle, OverloadPhase.next, hg, Nps.addOnDemand,
        Function.update_self, OverloadPhase.counted, h]
      omega
    case readAndDecSingleCtr a =>
      obtain ⟨rfl, hg⟩ := hop
      rw [hg, counted_next_dec]
      simp only [connCall, dpHandle, Nps.addOnDemand, Function.update_self, OverloadPhase.counted,
        h]
      omega
    case atomicOr32 a v =>
      simp only [connCall, dpHandle, OverloadPhase.next, h]
      omega
    case atomicAnd32 a v =>
      obtain ⟨-, -, hg | hg⟩ := hop
      all_goals
        simp only [connCall, dpHandle, OverloadPhase.next, hg, h, reduceCtorEq, if_true, if_false,
          OverloadPhase.counted]
        omega
    all_goals exact hop.elim

/-! ## The admission bound -/

/-- The connections that are live or will be are no more than the upper threshold. -/
structure Admissions (info : ServerInfoResult) (s : ServerChip) (Γ : Tid → OverloadPhase) : Prop
    where
  total : Accounts info s Γ
  bound : s.live + tally OverloadPhase.admits Γ ≤ info.uThresh.toNat

theorem OverloadPhase.admits_le (g : OverloadPhase) : 0 ≤ g.admits ∧ g.admits ≤ g.counted := by
  cases g <;> simp [admits, counted]

theorem OverloadPhase.counted_le (g : OverloadPhase) : g.counted ≤ 1 := by
  cases g <;> simp [counted]

/-- A creation that is admitted has counted no more connections than the upper threshold. -/
theorem ServerInfoResult.le_of_admits {b : Bool} {c : Int} (h0 : 0 ≤ c) (hc : c < 2 ^ 64)
    (h : info.admits b (counterValue c) = true) : c ≤ info.uThresh.toNat := by
  have hval : (counterValue c).toNat = c.toNat := by
    simp only [counterValue, UInt64.ofInt]
    rw [Int.emod_eq_of_lt h0 hc]
    simp
    omega
  unfold admits at h
  have hle : counterValue c ≤ info.uThresh.toUInt64 := by
    split at h
    next heq => exact UInt64.le_of_eq heq
    next =>
      split at h
      next => exact absurd h (by decide)
      next hlt => exact UInt64.not_lt.mp hlt
  have := UInt64.le_iff_toNat_le.mp hle
  rw [hval] at this
  simp at this
  omega

theorem admissions_step (hcard : Fintype.card Tid + 2 ^ 16 < 2 ^ 64) (h : Admissions info s Γ)
    {op : ConnCall} (hop : (Γ t).Makes info op) (hen : op.Enabled s) (e : DpEnv) :
    Admissions info (connCall e op s).2
      (Function.update Γ t ((Γ t).next info op (connCall e op s).1)) := by
  refine ⟨accounts_step h.total hop hen e, ?_⟩
  have hbound := h.bound
  rw [tally_update]
  cases op with
  | accept =>
    have hg : Γ t = .admitted := hop
    simp only [connCall, OverloadPhase.next, hg, OverloadPhase.admits]
    omega
  | remove =>
    have hg : Γ t = .idle := hop
    simp only [connCall, OverloadPhase.next, hg, OverloadPhase.admits]
    omega
  | chip op =>
    cases op
    case atomicRead32 a =>
      obtain ⟨-, hg⟩ := hop
      simp only [connCall, OverloadPhase.next, hg, OverloadPhase.admits]
      omega
    case readAndIncSingleCtr a =>
      obtain ⟨rfl, b, hg⟩ := hop
      rw [hg, admits_next_inc, show (connCall e (.chip (.readAndIncSingleCtr info.connTotal)) s).1 =
        counterValue (s.nps.onDemand info.connTotal) from rfl]
      simp only [connCall, OverloadPhase.admits]
      split
      next hadm =>
        -- the connection is among those that the counter counts
        have hsub : tally OverloadPhase.admits Γ ≤ tally OverloadPhase.counted Γ :=
          tally_le_tally fun t => (Γ t).admits_le.2
        have hnonneg : 0 ≤ tally OverloadPhase.admits Γ := tally_nonneg fun t => (Γ t).admits_le.1
        have hle : tally OverloadPhase.counted Γ ≤ Fintype.card Tid :=
          tally_le_card fun t => (Γ t).counted_le
        have hU : info.uThresh.toNat < 2 ^ 16 := info.uThresh.toNat_lt
        have htotal := h.total
        unfold Accounts at htotal
        have hval : counterValue (s.nps.onDemand info.connTotal) + 1 =
            counterValue (s.nps.onDemand info.connTotal + 1) := by
          simp only [counterValue, UInt64.ofInt_add, UInt64.ofInt_one]
        rw [hval] at hadm
        have hcount := info.le_of_admits (by omega) (by omega) hadm
        omega
      next => omega
    case decSingleCtr a =>
      obtain ⟨-, hg⟩ := hop
      simp only [connCall, OverloadPhase.next, hg, OverloadPhase.admits]
      omega
    case readAndDecSingleCtr a =>
      obtain ⟨-, hg⟩ := hop
      rw [hg, admits_next_dec]
      simp only [connCall, OverloadPhase.admits]
      omega
    case atomicOr32 a v =>
      simp only [connCall, OverloadPhase.next]
      omega
    case atomicAnd32 a v =>
      obtain ⟨-, -, hg | hg⟩ := hop
      all_goals
        simp only [connCall, OverloadPhase.next, hg, reduceCtorEq, if_true, if_false,
          OverloadPhase.admits]
        omega
    all_goals exact hop.elim

end Accounts

/-! ## Net changes -/

/-- What a call of a creation or a deletion adds to the counter. -/
def counterDelta (addr : SumAddr) (ev : DpEvent) : Int :=
  match ev.1 with
  | .readAndIncSingleCtr a => if a = addr then 1 else 0
  | .decSingleCtr a | .readAndDecSingleCtr a => if a = addr then -1 else 0
  | _ => 0

/-- What the calls of a path add to the counter. -/
def netChange (addr : SumAddr) (tr : List DpEvent) : Int := (tr.map (counterDelta addr)).sum

theorem counterDelta_eq {info : ServerInfoResult} {g : OverloadPhase} {op : DpCall}
    (hop : g.Makes info (.chip op)) (r : op.Res) :
    counterDelta info.connTotal ⟨op, r⟩ = (g.next info (.chip op) r).counted - g.counted := by
  cases op
  case atomicRead32 a =>
    obtain ⟨-, rfl⟩ := hop
    rfl
  case readAndIncSingleCtr a =>
    obtain ⟨rfl, b, rfl⟩ := hop
    rw [counted_next_inc]
    simp [counterDelta, OverloadPhase.counted]
  case decSingleCtr a =>
    obtain ⟨rfl, rfl⟩ := hop
    simp [counterDelta, OverloadPhase.next, OverloadPhase.counted]
  case readAndDecSingleCtr a =>
    obtain ⟨rfl, rfl⟩ := hop
    rw [counted_next_dec]
    simp [counterDelta, OverloadPhase.counted]
  case atomicOr32 a v =>
    simp [counterDelta, OverloadPhase.next]
  case atomicAnd32 a v =>
    obtain ⟨-, -, rfl | rfl⟩ := hop <;> rfl
  all_goals exact hop.elim

/-- A thread has in the counter what its phase says. -/
theorem netChange_of_wp {info : ServerInfoResult} {α : Type} {p : Prog DpCall DpCall.Res α}
    {tr : List DpEvent} {a : α} (hp : p.Path tr a) {Q : α → OverloadPhase → Prop}
    {g : OverloadPhase} (hwp : p.wp (chipSpec (overloadSpec info)) Q g) :
    ∃ g', Q a g' ∧ netChange info.connTotal tr = g'.counted - g.counted := by
  induction hp generalizing g with
  | ret a => exact ⟨g, hwp, by simp [netChange]⟩
  | @call op k tr a r _ ih =>
    obtain ⟨g', hQ, hnet⟩ := ih (hwp.2 r _ rfl)
    refine ⟨g', hQ, ?_⟩
    have hdelta := counterDelta_eq hwp.1 r
    simp only [netChange, List.map_cons, List.sum_cons] at hnet ⊢
    omega

/-- On every path, a refused creation has no net effect on CONNECTION_TOTAL, and one that is
admitted counts one connection. -/
theorem netChange_overloadOnCreateConn {info : ServerInfoResult} (hU : info.uThresh ≠ 0)
    (i : UInt16) {m m' : Cmem} (hm : m.serverInfoResult = info) {tr : List DpEvent}
    {flags : UInt32}
    (hp : ((alvsServerOverloadOnCreateConn i).run m).Path tr (flags, m')) :
    netChange info.connTotal tr = if flags &&& ipVsDestFOverload ≠ 0 then 0 else 1 := by
  obtain ⟨g, hg, hnet⟩ := netChange_of_wp hp (wp_overloadOnCreateConn hU i m hm)
  rw [hnet, hg]
  split <;> rfl

/-! ## Runs -/

/-- What holds of the chip of a pool : no more live connections than the upper threshold
and, where no creation or deletion is in flight, exactly the live connections counted. -/
structure AdmissionSafe {Tid : Type} (info : ServerInfoResult)
    (c : Pool Tid ServerChip ConnCall ConnCall.Res Cmem) : Prop where
  bound : c.shared.live ≤ info.uThresh.toNat
  total : c.Quiescent → c.shared.nps.onDemand info.connTotal = c.shared.live

section Run

variable {Tid : Type} [Fintype Tid] [DecidableEq Tid]

/-- In every run of creations and deletions of a server with an upper threshold, no more
connections are live than the threshold; and every creation that is refused leaves
CONNECTION_TOTAL as it was. The counter has 64 bits, so that many threads cannot be counted
at once. -/
theorem admissionBound_run (info : ServerInfoResult) (hU : info.uThresh ≠ 0) (i : UInt16)
    (hcard : Fintype.card Tid + 2 ^ 16 < 2 ^ 64) (s : ServerChip)
    (htotal : s.nps.onDemand info.connTotal = s.live) (hlive : s.live ≤ info.uThresh.toNat)
    (mem : Tid → Cmem) (as : List (PoolAct Tid ConnJob DpEnv)) :
    AdmissionSafe info (as.foldl (overloadMachine Tid info i).act (overloadPool s mem)) ∧
    ∀ (m m' : Cmem) (tr : List DpEvent) (flags : UInt32), m.serverInfoResult = info →
      ((alvsServerOverloadOnCreateConn i).run m).Path tr (flags, m') →
      flags &&& ipVsDestFOverload ≠ 0 → netChange info.connTotal tr = 0 := by
  refine ⟨?_, fun m m' tr flags hm hp hf => ?_⟩
  · have hinit : Machine.Inv (fun _ : Tid => overloadSpec info) (fun _ _ g => g = .idle)
        (Admissions info) (overloadPool s mem) := by
      refine ⟨fun _ => .idle, ⟨?_, ?_⟩, fun _ => rfl⟩
      · exact htotal.trans (accounts_idle fun _ => rfl)
      · rw [tally_eq_zero (w := OverloadPhase.admits) fun _ => rfl, add_zero]
        exact_mod_cast hlive
    have hall : Always (fun _ _ => True) (overloadMachine Tid info i).act (overloadPool s mem) as :=
      Always.of_forall (fun _ _ => trivial) _ as
    obtain ⟨Γ, hinv, hwp⟩ := Machine.inv_run_of (M := overloadMachine Tid info i) (fun t j l g hg =>
      wp_connJob hU i j l hg)
      (fun c t e Γ op k r s' _ hJ _ _ hpre hr => by
        obtain ⟨hen, hcall⟩ := overloadMachine_handle hr
        obtain ⟨rfl, rfl⟩ := Prod.mk.inj hcall
        exact ⟨_, rfl, admissions_step hcard hJ hpre hen e⟩) hinit hall
    have hnonneg : 0 ≤ tally OverloadPhase.admits Γ := tally_nonneg fun t => (Γ t).admits_le.1
    have hbound := hinv.bound
    refine ⟨by omega, fun hq => hinv.total.trans (accounts_idle fun t => ?_).symm⟩
    obtain ⟨l, hl⟩ := hq t
    have ht := hwp t
    rwa [hl] at ht
  · rw [netChange_overloadOnCreateConn hU i hm hp, if_pos hf]

end Run

/-! ## Example runs -/

/-- A server with the given thresholds. -/
def exampleServerInfo (uThresh lThresh : UInt16) : ServerInfoResult :=
  ⟨1, 80, serverStatsBase 0, 0x0a000002, serverOnDemandStatsBase 0, serviceStatsBase 0, uThresh,
    lThresh, ipVsConnFDroute, serverFlagsDpBase 0⟩

/-- `n` calls of a thread. -/
def exampleConnCalls (t : Fin 2) (n : Nat) : List (PoolAct (Fin 2) ConnJob DpEnv) :=
  List.replicate n (.step t exampleEnv)

/-- The pool of two threads after a run on a server without connections. -/
def exampleConnRun (info : ServerInfoResult) (as : List (PoolAct (Fin 2) ConnJob DpEnv)) :
    Pool (Fin 2) ServerChip ConnCall ConnCall.Res Cmem :=
  as.foldl (overloadMachine (Fin 2) info 0).act (overloadPool ⟨Sys.init.nps, 0⟩ fun _ => .zero)

/-- A connection is created and deleted. -/
def createDelete : List (PoolAct (Fin 2) ConnJob DpEnv) :=
  .start (tid 0) .create :: exampleConnCalls (tid 0) 4 ++ .start (tid 0) .delete ::
    exampleConnCalls (tid 0) 3

theorem admissionBound_run_createDelete :
    AdmissionSafe (exampleServerInfo 1 0) (exampleConnRun (exampleServerInfo 1 0) createDelete) ∧
    ∀ (m m' : Cmem) (tr : List DpEvent) (flags : UInt32),
      m.serverInfoResult = exampleServerInfo 1 0 →
      ((alvsServerOverloadOnCreateConn 0).run m).Path tr (flags, m') →
      flags &&& ipVsDestFOverload ≠ 0 → netChange (exampleServerInfo 1 0).connTotal tr = 0 :=
  admissionBound_run _ (by decide) 0 (by decide) _ rfl (Nat.zero_le _) _ createDelete

end Alvs
