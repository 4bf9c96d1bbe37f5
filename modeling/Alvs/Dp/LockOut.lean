import Alvs.Dp.Overload

/-!
# No lock-out

The OVERLOAD flag is set and cleared by calls of their own. A refused creation takes its
increment back and does not clear the flag; where its connection was the last one counted,
the flag stays set with no connection left that could clear it.

`lockOutFree_run` : with no connection live and nothing in flight, a creation is admitted,
if no refused creation takes back the last count while the flag is set and nobody is about
to clear it, or if the thresholds are such that the next creation clears the flag.
-/

namespace Alvs

open ProgLogic LProg

/-! ## A creation that runs alone -/

theorem only_onChip {α : Type} : ∀ p : Prog DpCall DpCall.Res α,
    (onChip p).Only fun op => op ≠ .remove
  | .ret _ => trivial
  | .call _ k => ⟨nofun, fun r => only_onChip (k r)⟩

theorem only_create (info : ServerInfoResult) (i : UInt16) (m : Cmem) :
    (connJob info i .create m).Only fun op => op ≠ .remove :=
  (only_onChip _).bind fun _ => .ite (.pure _) (.bind (.perform nofun) fun _ => .pure _)

/-- What a creation decides that runs alone. -/
theorem wp_overloadOnCreateConn_alone {info : ServerInfoResult} (hU : info.uThresh ≠ 0)
    (i : UInt16) {m : Cmem} (hm : m.serverInfoResult = info) {s : ServerChip} (e : DpEnv)
    (hadm : info.admits (s.Overloaded info)
      (counterValue (s.nps.onDemand info.connTotal) + 1) = true) :
    (alvsServerOverloadOnCreateConn i).wp
      (chipSpec (Prog.handlerSpec (connCall e) fun _ _ => True))
      (fun flags _ s' => flags &&& ipVsDestFOverload = 0 ∧ s'.live = s.live) m s := by
  subst hm
  unfold ServerInfoResult.admits ServerInfoResult.connTotal at hadm
  simp only [alvsServerOverloadOnCreateConn, wp_bind, wp_get, wp_call]
  refine ⟨trivial, ?_⟩
  rintro _ _ ⟨⟩
  refine ⟨trivial, ?_⟩
  rintro _ _ ⟨⟩
  simp only [dpHandle]
  rw [if_neg hU]
  refine (wp_ite _ _ _ _).mpr ⟨fun heq => ?_, fun hne => (wp_ite _ _ _ _).mpr ⟨fun hgt => ?_,
    fun hle => (wp_ite _ _ _ _).mpr ⟨fun hl => ?_, fun hl => ?_⟩⟩⟩
  · rw [if_pos heq] at hadm
    refine (wp_ite _ _ _ _).mpr ⟨fun hf => ?_, fun _ => ?_⟩
    · have hclear : ¬ s.Overloaded m.serverInfoResult := by simpa using hadm
      exact absurd hf hclear
    · simp only [wp_bind, wp_call, wp_pure]
      refine ⟨trivial, ?_⟩
      rintro _ _ ⟨⟩
      exact ⟨by decide, rfl⟩
  · rw [if_neg hne, if_pos hgt] at hadm
    exact absurd hadm (by decide)
  · simp only [wp_bind, wp_call, wp_pure]
    refine ⟨trivial, ?_⟩
    rintro _ _ ⟨⟩
    exact ⟨by decide, rfl⟩
  · rw [if_neg hne, if_neg hle, if_neg hl] at hadm
    refine (wp_ite _ _ _ _).mpr ⟨fun hf => ?_, fun hf => ?_⟩
    · have hclear : ¬ s.Overloaded m.serverInfoResult := by simpa using hadm
      exact absurd hf hclear
    · exact ⟨not_not.mp hf, rfl⟩

/-- With nothing counted, a creation that runs alone is admitted if the flag is clear, or if
it clears the flag itself. -/
theorem create_alone {info : ServerInfoResult} (hU : info.uThresh ≠ 0) (i : UInt16)
    {s : ServerChip} (hzero : s.nps.onDemand info.connTotal = 0)
    (h : ¬ s.Overloaded info ∨ info.lThresh ≠ 0 ∧ 1 < info.uThresh) (e : DpEnv) (m : Cmem) :
    ((connJob info i .create m).exec (connCall e) s).2.live = s.live + 1 := by
  have hadm : info.admits (s.Overloaded info)
      (counterValue (s.nps.onDemand info.connTotal) + 1) = true := by
    have hone : counterValue 0 + 1 = 1 := by decide
    rw [hzero, hone]
    unfold ServerInfoResult.admits
    have hpos : info.uThresh.toNat ≠ 0 := fun h => hU (UInt16.toNat_inj.mp h)
    have hlt : ¬ info.uThresh.toUInt64 < 1 := by
      refine UInt64.not_lt.mpr (UInt64.le_iff_toNat_le.mpr ?_)
      simp
      omega
    by_cases hf : s.Overloaded info
    · obtain ⟨hL, hU1⟩ := h.resolve_left (not_not.mpr hf)
      have hU1' : 1 < info.uThresh.toNat := UInt16.lt_iff_toNat_lt.mp hU1
      have hL' : info.lThresh.toNat ≠ 0 := fun h => hL (UInt16.toNat_inj.mp h)
      rw [if_neg, if_neg hlt, if_pos]
      · refine ⟨hL, UInt64.le_iff_toNat_le.mpr ?_⟩
        simp
        omega
      · intro heq
        have := congrArg UInt64.toNat heq
        simp at this
        omega
    · rw [decide_eq_false hf, if_neg hlt]
      split
      · rfl
      · split <;> rfl
  refine Prog.exec_of_wp (connCall e) (fun _ _ => True) _ (Q := fun _ s' => s'.live = s.live + 1) ?_
  refine (Prog.wp_bind _ _ _ _).mpr ((wp_onChip _ _ _).mpr ?_)
  refine Prog.wp_mono (wp_overloadOnCreateConn_alone hU i rfl e hadm) ?_
  rintro ⟨flags, m'⟩ s' ⟨hf, hlive⟩
  simp only [hf, ne_eq, not_true_eq_false, if_false]
  refine ⟨trivial, ?_⟩
  rintro _ _ ⟨⟩
  exact congrArg (· + 1) hlive

/-! ## Who clears the flag -/

/-- The calls by which a refused creation takes its increment back. -/
def ConnCall.TakesBack (info : ServerInfoResult) : ConnCall → Prop
  | .chip (.decSingleCtr a) => a = info.connTotal
  | _ => False

instance (info : ServerInfoResult) : DecidablePred (ConnCall.TakesBack info) := fun op => by
  unfold ConnCall.TakesBack
  split <;> infer_instance

/-- The calls that clear the flag. -/
def ConnCall.ClearsFlag (info : ServerInfoResult) : ConnCall → Prop
  | .chip (.atomicAnd32 a v) => a = info.serverFlagsDpBase ∧ v = ~~~ipVsDestFOverload
  | _ => False

instance (info : ServerInfoResult) : DecidablePred (ConnCall.ClearsFlag info) := fun op => by
  unfold ConnCall.ClearsFlag
  split <;> infer_instance

/-- Some thread is about to clear the flag. -/
def ClearsSoon {Tid : Type} (info : ServerInfoResult)
    (c : Pool Tid ServerChip ConnCall ConnCall.Res Cmem) : Prop :=
  ∃ t, (c.thread t).NextIs (ConnCall.ClearsFlag info)

instance {Tid : Type} [Fintype Tid] (info : ServerInfoResult)
    (c : Pool Tid ServerChip ConnCall ConnCall.Res Cmem) : Decidable (ClearsSoon info c) :=
  inferInstanceAs (Decidable (∃ _, _))

/-- A refused creation does not take back the last count while the flag is set and nobody is
about to clear it. -/
def TakesBackOk {Tid : Type} (info : ServerInfoResult)
    (c : Pool Tid ServerChip ConnCall ConnCall.Res Cmem) : PoolAct Tid ConnJob DpEnv → Prop
  | .start _ _ => True
  | .step t _ => (c.thread t).NextOk fun op => op.TakesBack info →
    c.shared.nps.onDemand info.connTotal = 1 → c.shared.Overloaded info → ClearsSoon info c

instance {Tid : Type} [Fintype Tid] (info : ServerInfoResult)
    (c : Pool Tid ServerChip ConnCall ConnCall.Res Cmem) (a : PoolAct Tid ConnJob DpEnv) :
    Decidable (TakesBackOk info c a) := by
  unfold TakesBackOk
  split <;> infer_instance

section Run

variable {Tid : Type} [Fintype Tid] [DecidableEq Tid] {info : ServerInfoResult} {s : ServerChip}
  {Γ : Tid → OverloadPhase} {t : Tid}

/-- The flag is set only while a connection is counted or a deletion is about to clear it. -/
structure FlagInv (info : ServerInfoResult) (s : ServerChip) (Γ : Tid → OverloadPhase) : Prop where
  total : Accounts info s Γ
  flag : s.Overloaded info → 0 < s.nps.onDemand info.connTotal ∨ ∃ t, Γ t = .clearing

/-- A deletion that leaves no count clears the flag. -/
theorem clears_zero (hU : info.uThresh ≠ 0) : info.clears 0 = true := by
  unfold ServerInfoResult.clears
  have hpos : info.uThresh.toNat ≠ 0 := fun h => hU (UInt16.toNat_inj.mp h)
  have hlt : info.uThresh.toNat < 2 ^ 16 := info.uThresh.toNat_lt
  split
  next hL =>
    have hL' : info.lThresh.toNat ≠ 0 := fun h => hL (UInt16.toNat_inj.mp h)
    refine decide_eq_true (UInt64.lt_iff_toNat_lt.mpr ?_)
    simp
    omega
  next =>
    refine decide_eq_true (UInt64.lt_iff_toNat_lt.mpr ?_)
    simp
    omega

omit [Fintype Tid] in
/-- A thread that is clearing the flag goes on to do so. -/
theorem clearing_other {g : OverloadPhase} (h : ∃ t', Γ t' = .clearing) (ht : Γ t ≠ .clearing) :
    ∃ t', Function.update Γ t g t' = .clearing := by
  obtain ⟨t', ht'⟩ := h
  refine ⟨t', ?_⟩
  rw [Function.update_of_ne, ht']
  rintro rfl
  exact ht ht'

theorem flag_step (hU : info.uThresh ≠ 0) (h : FlagInv info s Γ) {op : ConnCall}
    (hop : (Γ t).Makes info op) (hen : op.Enabled s)
    (hback : op.TakesBack info → s.nps.onDemand info.connTotal = 1 → s.Overloaded info →
      ∃ t', Γ t' = .clearing) (e : DpEnv) :
    FlagInv info (connCall e op s).2
      (Function.update Γ t ((Γ t).next info op (connCall e op s).1)) := by
  have hstep := accounts_step h.total hop hen e
  refine ⟨hstep, ?_⟩
  have hnonneg : 0 ≤ tally OverloadPhase.counted Γ := tally_nonneg fun t => (Γ t).counted_nonneg
  have hown : (Γ t).counted ≤ tally OverloadPhase.counted Γ :=
    le_tally (fun t => (Γ t).counted_nonneg) t
  have htotal := h.total
  unfold Accounts at htotal
  cases op with
  | accept =>
    have hg : Γ t = .admitted := hop
    exact fun hf => (h.flag hf).imp_right fun hc => clearing_other hc (by simp [hg])
  | remove =>
    have hg : Γ t = .idle := hop
    exact fun hf => (h.flag hf).imp_right fun hc => clearing_other hc (by simp [hg])
  | chip op =>
    cases op
    case atomicRead32 a =>
      obtain ⟨-, hg⟩ := hop
      exact fun hf => (h.flag hf).imp_right fun hc => clearing_other hc (by simp [hg])
    case readAndIncSingleCtr a =>
      obtain ⟨rfl, -⟩ := hop
      refine fun _ => .inl ?_
      simp only [connCall, dpHandle, Nps.addOnDemand, Function.update_self]
      omega
    case decSingleCtr a =>
      obtain ⟨rfl, hg⟩ := hop
      have hone : (Γ t).counted = 1 := by rw [hg]; rfl
      intro hf
      by_cases hlast : s.nps.onDemand info.connTotal = 1
      · exact .inr (clearing_other (hback rfl hlast hf) (by simp [hg]))
      · refine .inl ?_
        simp only [connCall, dpHandle, Nps.addOnDemand, Function.update_self]
        omega
    case readAndDecSingleCtr a =>
      obtain ⟨rfl, hg⟩ := hop
      have hone : (Γ t).counted = 1 := by rw [hg]; rfl
      intro hf
      by_cases hlast : s.nps.onDemand info.connTotal = 1
      · refine .inr ⟨t, ?_⟩
        have hzero : counterValue 1 - 1 = 0 := by decide
        simp only [Function.update_self, connCall, dpHandle, OverloadPhase.next, hlast, hzero,
          clears_zero hU, if_true]
      · refine .inl ?_
        simp only [connCall, dpHandle, Nps.addOnDemand, Function.update_self]
        omega
    case atomicOr32 a v =>
      obtain ⟨-, -, hg⟩ := hop
      refine fun _ => .inl ?_
      have hone : (Γ t).counted = 1 := by
        obtain hg | hg := hg <;> rw [hg] <;> rfl
      simp only [connCall, dpHandle]
      omega
    case atomicAnd32 a v =>
      obtain ⟨rfl, rfl, -⟩ := hop
      intro hf
      refine absurd ?_ hf
      have hmask : ~~~ipVsDestFOverload &&& ipVsDestFOverload = 0 := by decide
      simp only [connCall, dpHandle, Function.update_self, UInt32.and_assoc, hmask, UInt32.and_zero]
    all_goals exact hop.elim

/-- Where a refused creation takes back the last count, the thread that clears the flag is a
deletion : a creation that does so is counted too. -/
theorem clearing_of_clearsSoon {c : Pool Tid ServerChip ConnCall ConnCall.Res Cmem}
    (h : Accounts info c.shared Γ)
    (hwp : ∀ t, (c.thread t).wp (overloadSpec info) (fun _ g => g = .idle) (Γ t))
    (ht : Γ t = .refused) (hlast : c.shared.nps.onDemand info.connTotal = 1)
    (hsoon : ClearsSoon info c) : ∃ t', Γ t' = .clearing := by
  obtain ⟨t', hnext⟩ := hsoon
  have hg : Γ t' = .admitted ∨ Γ t' = .clearing := by
    have hmakes := hwp t'
    cases hk : c.thread t' with
    | ret l =>
      rw [hk] at hnext
      exact hnext.elim
    | call op k =>
      rw [hk] at hmakes hnext
      cases op with
      | accept | remove => exact hnext.elim
      | chip op =>
        cases op
        case atomicAnd32 a v => exact hmakes.1.2.2
        all_goals exact hnext.elim
  obtain hg | hg := hg
  · have hne : t' ≠ t := by
      rintro rfl
      simp [hg] at ht
    have hother := le_tally (w := OverloadPhase.counted) (Γ := Function.update Γ t .idle)
      (fun x => (Function.update Γ t .idle x).counted_nonneg) t'
    rw [tally_update, Function.update_of_ne hne, hg, ht] at hother
    simp only [OverloadPhase.counted] at hother
    unfold Accounts at h
    omega
  · exact ⟨t', hg⟩

omit [DecidableEq Tid] in
theorem accounts_init (mem : Tid → Cmem) (hzero : s.nps.onDemand info.connTotal = 0)
    (hlive : s.live = 0) : Accounts info (overloadPool s mem).shared fun _ : Tid => .idle := by
  rw [Accounts, tally_eq_zero (w := OverloadPhase.counted) fun _ => rfl, overloadPool, hzero, hlive]
  rfl

end Run

/-! ## Runs -/

/-- With nothing in flight and no connection live, a creation of any thread that runs alone
comes to its end and its connection is live. -/
def LockOutFree {Tid : Type} [DecidableEq Tid] (info : ServerInfoResult) (i : UInt16)
    (c : Pool Tid ServerChip ConnCall ConnCall.Res Cmem) : Prop :=
  c.Quiescent → c.shared.live = 0 → ∀ (t : Tid) (e : DpEnv), ∃ n,
    let c' := (.start t .create :: List.replicate n (.step t e)).foldl
      (overloadMachine Tid info i).act c
    c'.Quiescent ∧ c'.shared.live = 1

section LockOut

variable {Tid : Type} [DecidableEq Tid] {info : ServerInfoResult}

theorem lockOutFree_of (hU : info.uThresh ≠ 0) (i : UInt16)
    {c : Pool Tid ServerChip ConnCall ConnCall.Res Cmem}
    (h : c.Quiescent → c.shared.live = 0 → c.shared.nps.onDemand info.connTotal = 0 ∧
      (¬ c.shared.Overloaded info ∨ info.lThresh ≠ 0 ∧ 1 < info.uThresh)) :
    LockOutFree info i c := by
  intro hq hlive t e
  obtain ⟨hzero, hflag⟩ := h hq hlive
  obtain ⟨m, hm⟩ := hq t
  have hstart : (overloadMachine Tid info i).start c t .create =
      { c with thread := Function.update c.thread t (connJob info i .create m) } := by
    simp only [Machine.start, hm, overloadMachine]
  obtain ⟨n, hn⟩ := Machine.step_alone (M := overloadMachine Tid info i) (h := connCall e)
    (P := fun op => op ≠ .remove) (t := t) (e := e) (fun op s hop => if_pos (by
      cases op with
      | remove => exact absurd rfl hop
      | chip _ | accept => trivial)) (connJob info i .create m)
    { c with thread := Function.update c.thread t (connJob info i .create m) }
    (only_create info i m) (Function.update_self t _ _)
  refine ⟨n, ?_⟩
  rw [List.foldl_cons, Machine.act, hstart, hn]
  refine ⟨fun t' => ?_, ?_⟩
  · by_cases ht : t' = t
    · subst ht
      exact ⟨_, Function.update_self _ _ _⟩
    · obtain ⟨m', hm'⟩ := hq t'
      exact ⟨m', by simp only [Function.update_of_ne ht, hm']⟩
  · exact (create_alone hU i hzero hflag e m).trans (by rw [hlive])

/-- From a server without connections whose flag is clear : in every run of creations and
deletions in which no refused creation takes back the last count while the flag is set and
nobody is about to clear it, or in any run if the lower threshold is positive and the upper
one is not 1, a creation that runs alone is admitted where no connection is live. -/
theorem lockOutFree_run [Fintype Tid] (hU : info.uThresh ≠ 0) (i : UInt16) (s : ServerChip)
    (hzero : s.nps.onDemand info.connTotal = 0) (hlive : s.live = 0)
    (hclear : ¬ s.Overloaded info) (mem : Tid → Cmem) (as : List (PoolAct Tid ConnJob DpEnv))
    (has : (info.lThresh ≠ 0 ∧ 1 < info.uThresh) ∨
      Always (TakesBackOk info) (overloadMachine Tid info i).act (overloadPool s mem) as) :
    LockOutFree info i (as.foldl (overloadMachine Tid info i).act (overloadPool s mem)) := by
  have hidle {c : Pool Tid ServerChip ConnCall ConnCall.Res Cmem} {Γ : Tid → OverloadPhase}
      (hwp : ∀ t, (c.thread t).wp (overloadSpec info) (fun _ g => g = .idle) (Γ t))
      (hq : c.Quiescent) (t : Tid) : Γ t = .idle := by
    obtain ⟨l, hl⟩ := hq t
    have ht := hwp t
    rwa [hl] at ht
  have htotal {c : Pool Tid ServerChip ConnCall ConnCall.Res Cmem} {Γ : Tid → OverloadPhase}
      (h : Accounts info c.shared Γ) (hΓ : ∀ t, Γ t = .idle) (hlive : c.shared.live = 0) :
      c.shared.nps.onDemand info.connTotal = 0 := by
    rw [h, ← accounts_idle hΓ, hlive]
    rfl
  obtain hthresh | has := has
  · have hall : Always (fun _ _ => True) (overloadMachine Tid info i).act (overloadPool s mem) as :=
      Always.of_forall (fun _ _ => trivial) _ as
    have hinit : Machine.Inv (fun _ : Tid => overloadSpec info) (fun _ _ g => g = .idle)
        (Accounts info) (overloadPool s mem) :=
      ⟨fun _ => .idle, accounts_init mem hzero hlive, fun _ => rfl⟩
    obtain ⟨Γ, hinv, hwp⟩ := Machine.inv_run_of (M := overloadMachine Tid info i)
      (fun t j l g hg => wp_connJob hU i j l hg)
      (fun c t e Γ op k r s' _ hJ _ _ hpre hr => by
        obtain ⟨hen, hcall⟩ := overloadMachine_handle hr
        obtain ⟨rfl, rfl⟩ := Prod.mk.inj hcall
        exact ⟨_, rfl, accounts_step hJ hpre hen e⟩) hinit hall
    exact lockOutFree_of hU i fun hq hlive => ⟨htotal hinv (hidle hwp hq) hlive, .inr hthresh⟩
  · have hinit : Machine.Inv (fun _ : Tid => overloadSpec info) (fun _ _ g => g = .idle)
        (FlagInv info) (overloadPool s mem) :=
      ⟨fun _ => .idle, ⟨accounts_init mem hzero hlive, fun h => absurd h hclear⟩, fun _ => rfl⟩
    obtain ⟨Γ, hinv, hwp⟩ := Machine.inv_run_of (M := overloadMachine Tid info i)
      (fun t j l g hg => wp_connJob hU i j l hg)
      (fun c t e Γ op k r s' hok hJ hwp hk hpre hr => by
        obtain ⟨hen, hcall⟩ := overloadMachine_handle hr
        obtain ⟨rfl, rfl⟩ := Prod.mk.inj hcall
        refine ⟨_, rfl, flag_step hU hJ hpre hen (fun hback hlast hf => ?_) e⟩
        simp only [TakesBackOk, hk, Prog.NextOk] at hok
        have href : Γ t = .refused := by
          cases op with
          | chip op =>
            cases op
            case decSingleCtr a => exact hpre.2
            all_goals exact hback.elim
          | accept | remove => exact hback.elim
        exact clearing_of_clearsSoon hJ.total hwp href hlast (hok hback hlast hf)) hinit has
    refine lockOutFree_of hU i fun hq hlive => ?_
    have hΓ := hidle hwp hq
    have hcount := htotal hinv.total hΓ hlive
    refine ⟨hcount, .inl fun hf => ?_⟩
    obtain hpos | ⟨t, ht⟩ := hinv.flag hf
    · omega
    · rw [hΓ t] at ht
      exact absurd ht (by simp)

end LockOut

/-! ## Example runs -/

theorem lockOutFree_run_createDelete :
    LockOutFree (exampleServerInfo 1 0) 0 (exampleConnRun (exampleServerInfo 1 0) createDelete) :=
  lockOutFree_run (by decide) 0 _ rfl rfl (by decide) _ createDelete (.inr (by decide +kernel))

/-- Of a server with the upper threshold 1 : while a second creation is being refused, the
only connection is deleted. -/
def refusedMeanwhile : List (PoolAct (Fin 2) ConnJob DpEnv) :=
  .start (tid 0) .create :: exampleConnCalls (tid 0) 4 ++ .start (tid 1) .create ::
    exampleConnCalls (tid 1) 2 ++ .start (tid 0) .delete :: exampleConnCalls (tid 0) 3 ++
    exampleConnCalls (tid 1) 2

/-- No connection is left, and a creation is refused. -/
theorem lockOutFree_fails :
    ¬ LockOutFree (exampleServerInfo 1 0) 0 (exampleConnRun (exampleServerInfo 1 0)
      refusedMeanwhile) := by
  intro h
  have hidle : ∀ t, ¬ ((exampleConnRun (exampleServerInfo 1 0) refusedMeanwhile).thread t).NextIs
      fun _ => True := by
    decide +kernel
  obtain ⟨n, -, hlive⟩ := h (fun t => Prog.eq_ret_of_not_nextIs (hidle t)) (by decide +kernel) 0
    exampleEnv
  have hrefused : ∀ n ≤ 3, (exampleConnRun (exampleServerInfo 1 0)
      (refusedMeanwhile ++ .start 0 .create :: exampleConnCalls 0 n)).shared.live ≠ 1 := by
    decide +kernel
  have hdone : ¬ ((exampleConnRun (exampleServerInfo 1 0)
      (refusedMeanwhile ++ .start 0 .create :: exampleConnCalls 0 3)).thread 0).NextIs
      fun _ => True := by
    decide +kernel
  by_cases hn : n ≤ 3
  · refine hrefused n hn ?_
    rw [exampleConnRun, List.foldl_append]
    exact hlive
  · obtain ⟨k, rfl⟩ := Nat.exists_eq_add_of_le (Nat.le_of_not_le hn)
    obtain ⟨l, hl⟩ := Prog.eq_ret_of_not_nextIs hdone
    refine hrefused 3 (Nat.le_refl 3) ?_
    rw [← Machine.step_idle (M := overloadMachine (Fin 2) (exampleServerInfo 1 0) 0) hl exampleEnv
      k,
      exampleConnRun, List.foldl_append]
    rw [List.replicate_add, ← List.cons_append, List.foldl_append] at hlive
    exact hlive

end Alvs
