import Alvs.Dp.Attempts
import Alvs.Lib.Words

/-!
# Overload hysteresis

A server with an upper threshold `u` and a lower threshold `l` is overloaded from the
admission that brings it to `u` connections until a deletion brings it below `l`, or below
three quarters of `u` where `l` is 0. `Load.next` is that automaton.

`hysteresis_run` : creations and deletions that do not overlap behave as the automaton.
-/

namespace Alvs

open ProgLogic LProg

/-! ## The automaton -/

/-- The number of connections of a server, and whether it is overloaded. -/
structure Load where
  conns : Nat
  overloaded : Bool
  deriving DecidableEq

namespace Load

/-- A connection is admitted. -/
def Admits (u : Nat) (a : Load) : Prop := a.overloaded = false ∧ a.conns < u

instance (u : Nat) (a : Load) : Decidable (a.Admits u) := inferInstanceAs (Decidable (_ ∧ _))

/-- The number of connections at which a server is no longer overloaded. -/
def Relieved (u l conns : Nat) : Prop := if l ≠ 0 then conns < l else 4 * conns < 3 * u

instance (u l conns : Nat) : Decidable (Relieved u l conns) :=
  inferInstanceAs (Decidable (ite _ _ _))

/-- An attempt that is refused changes nothing. -/
def next (u l : Nat) (a : Load) : ConnJob → Load
  | .create => if a.Admits u then ⟨a.conns + 1, a.conns + 1 = u⟩ else a
  | .delete => ⟨a.conns - 1, a.overloaded && !decide (Relieved u l (a.conns - 1))⟩

/-- A deletion is of a connection that exists. -/
def Enabled (a : Load) : ConnJob → Prop
  | .create => True
  | .delete => 0 < a.conns

instance (a : Load) : (j : ConnJob) → Decidable (a.Enabled j)
  | .create => .isTrue trivial
  | .delete => inferInstanceAs (Decidable (0 < a.conns))

/-- An overloaded server is where a deletion can bring it below `l`; a full one is
overloaded. -/
structure Ok (u l : Nat) (a : Load) : Prop where
  le : a.conns ≤ u
  lower : a.overloaded = true → l ≠ 0 → l ≤ a.conns
  full : a.conns = u → a.overloaded = true

variable {u l : Nat} {a : Load}

theorem next_create_of_admits (h : a.Admits u) :
    a.next u l .create = ⟨a.conns + 1, a.conns + 1 = u⟩ := if_pos h

theorem next_create_of_refuses (h : ¬ a.Admits u) : a.next u l .create = a := if_neg h

theorem ok_next (hlu : l ≤ u) (h : a.Ok u l) (j : ConnJob) (hj : a.Enabled j) :
    (a.next u l j).Ok u l := by
  cases j with
  | create =>
    by_cases hadm : a.Admits u
    · rw [next_create_of_admits hadm]
      refine ⟨hadm.2, fun hover _ => ?_, fun hfull => decide_eq_true hfull⟩
      have hfull : a.conns + 1 = u := of_decide_eq_true hover
      exact hlu.trans hfull.ge
    · rwa [next_create_of_refuses hadm]
  | delete =>
    have hle := h.le
    have hpos : 0 < a.conns := hj
    refine ⟨by simp only [next]; omega, fun hover hl => ?_, fun hfull => ?_⟩
    · simp only [next, Bool.and_eq_true, Bool.not_eq_true', decide_eq_false_iff_not, Relieved,
        if_pos hl] at hover ⊢
      omega
    · simp only [next] at hfull
      omega

end Load

/-! ## The chip -/

/-- The chip carries the load of the server. -/
structure ServerChip.Carries (info : ServerInfoResult) (s : ServerChip) (a : Load) : Prop where
  live : s.live = a.conns
  total : s.nps.onDemand info.connTotal = a.conns
  flag : s.nps.Overloaded info ↔ a.overloaded = true

section Chip

variable {info : ServerInfoResult} {s : ServerChip} {a : Load}

theorem wp_chip_of_env {P : DpEnv → ConnCall → ServerChip → Prop} {α : Type} :
    ∀ {p : Prog DpCall DpCall.Res α} {Q : α → Nps → Prop} {s : ServerChip},
    p.wp (Prog.envSpec dpHandle fun _ _ _ => True) Q s.nps →
    p.wp (chipSpec (Prog.envSpec connCall P)) (fun r s' => Q r s'.nps ∧ s'.live = s.live) s
  | .ret _, _, _, h => ⟨h, rfl⟩
  | .call op k, Q, s, h => by
    refine ⟨trivial, ?_⟩
    rintro r s' ⟨e, -, heq⟩
    obtain ⟨rfl, rfl⟩ := Prod.mk.inj heq
    exact wp_chip_of_env (s := (connCall e (.chip op) s).2) (h.2 _ _ ⟨e, trivial, rfl⟩)

/-- A creation that runs alone. -/
theorem wp_create {P : DpEnv → ConnCall → ServerChip → Prop} (i : UInt16) (m : Cmem) :
    (connJob info i .create m).wp (Prog.envSpec connCall P) (fun _ s' =>
      s' = ⟨s.nps.afterAttempt info, if s.nps.Admits info then s.live + 1 else s.live⟩) s := by
  refine (Prog.wp_bind _ _ _ _).mpr ((wp_onChip _ _ _).mpr ?_)
  refine Prog.wp_mono (wp_chip_of_env (env_overloadOnCreate i)) ?_
  rintro ⟨flags, m'⟩ ⟨nps, live⟩ ⟨⟨-, hadm, hnps⟩, hlive⟩
  obtain rfl : nps = s.nps.afterAttempt info := hnps
  obtain rfl : live = s.live := hlive
  by_cases h : s.nps.Admits info
  · simp only [hadm.mpr h, ne_eq, not_true_eq_false, if_false, if_pos h]
    refine ⟨trivial, ?_⟩
    rintro _ _ ⟨e, -, ⟨⟩⟩
    rfl
  · simp only [ne_eq, mt hadm.mp h, not_false_eq_true, if_true, if_neg h]
    rfl

/-- A deletion that runs alone. -/
theorem wp_delete {P : DpEnv → ConnCall → ServerChip → Prop} (i : UInt16) (m : Cmem) :
    (connJob info i .delete m).wp (Prog.envSpec connCall P) (fun _ s' =>
      s' = ⟨s.nps.afterRemoval info, s.live - 1⟩) s := by
  refine (Prog.wp_bind _ _ _ _).mpr ((Prog.wp_perform _ _ _).mpr ⟨trivial, ?_⟩)
  rintro _ _ ⟨e, -, ⟨⟩⟩
  refine (Prog.wp_bind _ _ _ _).mpr ((wp_onChip _ _ _).mpr ?_)
  refine Prog.wp_mono (wp_chip_of_env (env_overloadOnDelete_eq i)) ?_
  rintro ⟨_, m'⟩ ⟨nps, live⟩ ⟨⟨-, hnps⟩, hlive⟩
  obtain rfl : nps = s.nps.afterRemoval info := hnps
  obtain rfl : live = s.live - 1 := hlive
  rfl

variable (h : s.Carries info a) (ha : a.Ok info.uThresh.toNat info.lThresh.toNat)

include h ha

theorem ServerChip.Carries.toNat_nextTotal : (s.nps.nextTotal info).toNat = a.conns + 1 := by
  have hle := ha.le
  have hlt : info.uThresh.toNat < 2 ^ 16 := info.uThresh.toNat_lt
  rw [Nps.nextTotal, counterValue_add_one, h.total, toNat_counterValue (by omega) (by omega)]
  omega

/-- What the attempt compares the count with. -/
theorem ServerChip.Carries.nextTotal_eq :
    s.nps.nextTotal info = info.uThresh.toUInt64 ↔ a.conns + 1 = info.uThresh.toNat := by
  rw [← UInt64.toNat_inj, h.toNat_nextTotal ha]
  simp

theorem ServerChip.Carries.lt_nextTotal :
    info.uThresh.toUInt64 < s.nps.nextTotal info ↔ info.uThresh.toNat < a.conns + 1 := by
  rw [UInt64.lt_iff_toNat_lt, h.toNat_nextTotal ha]
  simp

theorem ServerChip.Carries.nextTotal_le :
    s.nps.nextTotal info ≤ info.lThresh.toUInt64 ↔ a.conns + 1 ≤ info.lThresh.toNat := by
  rw [UInt64.le_iff_toNat_le, h.toNat_nextTotal ha]
  simp

/-- An overloaded server is not below its lower threshold, so that a creation never clears the
flag. -/
theorem ServerChip.Carries.not_overloaded (hl : info.lThresh ≠ 0)
    (hle : s.nps.nextTotal info ≤ info.lThresh.toUInt64) : ¬ s.nps.Overloaded info := by
  intro hover
  have hl' : info.lThresh.toNat ≠ 0 := fun h0 => hl (UInt16.toNat_inj.mp h0)
  have hlower := ha.lower (h.flag.mp hover) hl'
  have := (h.nextTotal_le ha).mp hle
  omega

variable (hU : info.uThresh ≠ 0)

include hU

/-- What an attempt on the chip decides is what the automaton decides. -/
theorem ServerChip.Carries.admits_iff : s.nps.Admits info ↔ a.Admits info.uThresh.toNat := by
  have hclear : ¬ s.nps.Overloaded info ↔ a.overloaded = false := by rw [h.flag, Bool.not_eq_true]
  by_cases heq : s.nps.nextTotal info = info.uThresh.toUInt64
  · rw [Nps.admits_at hU heq, hclear]
    have := (h.nextTotal_eq ha).mp heq
    exact ⟨fun hf => ⟨hf, by omega⟩, And.left⟩
  · have hne := mt (h.nextTotal_eq ha).mpr heq
    by_cases hgt : info.uThresh.toUInt64 < s.nps.nextTotal info
    · refine iff_of_false (Nps.refuses_above hU heq hgt) fun hadm => ?_
      have := (h.lt_nextTotal ha).mp hgt
      have := hadm.2
      omega
    · have hle := mt (h.lt_nextTotal ha).mpr hgt
      rw [Nps.admits_below hU heq hgt]
      refine ⟨fun hadm => ⟨hclear.mp ?_, by omega⟩, fun hadm => .inr (hclear.mpr hadm.1)⟩
      exact hadm.elim (fun hl => h.not_overloaded ha hl.1 hl.2) id

/-- An attempt that is refused changes nothing. -/
theorem ServerChip.Carries.afterAttempt_eq_self (href : ¬ s.nps.Admits info) :
    s.nps.afterAttempt info = s.nps := by
  have hflags : s.nps.flagsAfter info = s.nps.serverFlagsWord info.serverFlagsDpBase := by
    by_cases heq : s.nps.nextTotal info = info.uThresh.toUInt64
    · rw [Nps.flagsAfter_at hU heq, if_pos]
      exact not_not.mp (mt (Nps.admits_at hU heq).mpr href)
    · by_cases hgt : info.uThresh.toUInt64 < s.nps.nextTotal info
      · rw [Nps.flagsAfter_above hU heq hgt]
        have hfull : a.conns = info.uThresh.toNat := by
          have := (h.lt_nextTotal ha).mp hgt
          have := ha.le
          omega
        exact Word.or_of_and_eq (Word.and_eq_self_of_ne_zero (i := 1)
          rfl (h.flag.mpr (ha.full hfull)))
      · rw [Nps.flagsAfter_below hU heq hgt, if_neg]
        exact fun hl => href ((Nps.admits_below hU heq hgt).mpr (.inl hl))
  rw [Nps.afterAttempt_of_refuses href, hflags, Function.update_eq_self]

/-- An admission sets the flag exactly where it brings the server to its upper threshold. -/
theorem ServerChip.Carries.flagsAfter_iff (hadm : s.nps.Admits info) :
    s.nps.flagsAfter info &&& ipVsDestFOverload ≠ 0 ↔ a.conns + 1 = info.uThresh.toNat := by
  by_cases heq : s.nps.nextTotal info = info.uThresh.toUInt64
  · rw [Nps.flagsAfter_at hU heq, if_neg ((Nps.admits_at hU heq).mp hadm), Word.or_and_self]
    exact iff_of_true (by decide) ((h.nextTotal_eq ha).mp heq)
  · refine iff_of_false ?_ (mt (h.nextTotal_eq ha).mpr heq)
    by_cases hgt : info.uThresh.toUInt64 < s.nps.nextTotal info
    · exact absurd hadm (Nps.refuses_above hU heq hgt)
    · rw [Nps.flagsAfter_below hU heq hgt]
      split
      next => exact not_not.mpr (Word.and_not_and _ _)
      next hl => exact ((Nps.admits_below hU heq hgt).mp hadm).resolve_left hl

/-- A creation keeps the chip and the automaton together. -/
theorem ServerChip.Carries.create : ServerChip.Carries info
    ⟨s.nps.afterAttempt info, if s.nps.Admits info then s.live + 1 else s.live⟩
    (a.next info.uThresh.toNat info.lThresh.toNat .create) := by
  by_cases hadm : s.nps.Admits info
  · rw [Load.next_create_of_admits ((h.admits_iff ha hU).mp hadm), if_pos hadm]
    refine ⟨congrArg (· + 1) h.live, ?_, ?_⟩
    · simp only [Nps.afterAttempt_of_admits hadm, Nps.addOnDemand, Function.update_self, h.total]
      omega
    · simp only [Nps.Overloaded, Nps.afterAttempt, Function.update_self, decide_eq_true_eq]
      exact h.flagsAfter_iff ha hU hadm
  · rw [Load.next_create_of_refuses (mt (h.admits_iff ha hU).mpr hadm), if_neg hadm,
      h.afterAttempt_eq_self ha hU hadm]
    exact h

omit hU in
/-- What a deletion compares the count with. -/
theorem ServerChip.Carries.clears_iff (hpos : 0 < a.conns) :
    info.clears (counterValue (s.nps.onDemand info.connTotal) - 1) = true ↔
      Load.Relieved info.uThresh.toNat info.lThresh.toNat (a.conns - 1) := by
  have hle := ha.le
  have hlt : info.uThresh.toNat < 2 ^ 16 := info.uThresh.toNat_lt
  have hval : (counterValue (s.nps.onDemand info.connTotal) - 1).toNat = a.conns - 1 := by
    rw [counterValue_sub_one, h.total, toNat_counterValue (by omega) (by omega)]
    omega
  have hl : info.lThresh ≠ 0 ↔ info.lThresh.toNat ≠ 0 := by
    rw [Ne, ← UInt16.toNat_inj]
    rfl
  unfold ServerInfoResult.clears Load.Relieved
  by_cases hl0 : info.lThresh ≠ 0
  · rw [if_pos hl0, if_pos (hl.mp hl0), decide_eq_true_eq, UInt64.lt_iff_toNat_lt, hval]
    simp
  · rw [if_neg hl0, if_neg (mt hl.mpr hl0), decide_eq_true_eq, UInt64.lt_iff_toNat_lt]
    have h4 : (counterValue (s.nps.onDemand info.connTotal) - 1).toNat * 4 % 2 ^ 64 =
        4 * (a.conns - 1) := by
      rw [hval]
      omega
    have h3 : info.uThresh.toNat * 3 % 2 ^ 64 = 3 * info.uThresh.toNat := by omega
    simp only [UInt64.toNat_mul, UInt16.toNat_toUInt64, UInt64.reduceToNat, h4, h3]

/-- A deletion keeps the chip and the automaton together. -/
theorem ServerChip.Carries.delete (hpos : 0 < a.conns) : ServerChip.Carries info
    ⟨s.nps.afterRemoval info, s.live - 1⟩
    (a.next info.uThresh.toNat info.lThresh.toNat .delete) := by
  refine ⟨congrArg (· - 1) h.live, ?_, ?_⟩
  · simp only [Nps.afterRemoval, Nps.addOnDemand, Function.update_self, h.total, Load.next]
    omega
  · have hclears := h.clears_iff ha hpos
    simp only [Nps.Overloaded, Nps.afterRemoval, Function.update_self, hU, false_or, Load.next,
      Bool.and_eq_true, Bool.not_eq_true', decide_eq_false_iff_not, ← hclears]
    split
    next hc =>
      rw [Word.and_not_and]
      exact iff_of_false (by simp) fun hover => hover.2 hc
    next hc => exact h.flag.trans (and_iff_left hc).symm

end Chip

/-! ## Histories -/

/-- A creation or a deletion, with the memory of the thread and what the calls leave open. -/
abbrev ConnRequest := ConnJob × Cmem × (Nat → DpEnv)

/-- The chip after a creation or deletion that nothing overlaps. -/
def completeJob (info : ServerInfoResult) (serverIndex : UInt16) (s : ServerChip)
    (req : ConnRequest) : ServerChip :=
  ((connJob info serverIndex req.1 req.2.1).execEnv connCall req.2.2 s).2

/-- The count of connections and the flag of the server. -/
def ServerChip.load (info : ServerInfoResult) (s : ServerChip) : Load :=
  ⟨s.live, s.nps.Overloaded info⟩

theorem ServerChip.Carries.load_eq {info : ServerInfoResult} {s : ServerChip} {a : Load}
    (h : s.Carries info a) : s.load info = a := by
  obtain ⟨conns, overloaded⟩ := a
  simp only [ServerChip.load, h.live, h.flag, Bool.decide_eq_true]

theorem completeJob_create (info : ServerInfoResult) (i : UInt16) (s : ServerChip) (m : Cmem)
    (es : Nat → DpEnv) : completeJob info i s (.create, m, es) =
      ⟨s.nps.afterAttempt info, if s.nps.Admits info then s.live + 1 else s.live⟩ :=
  Prog.execEnv_of_wp (connJob info i .create m) (wp_create (P := fun _ _ _ => True) i m)
    (.of_forall (fun _ _ _ => trivial) _ es s)

theorem completeJob_delete (info : ServerInfoResult) (i : UInt16) (s : ServerChip) (m : Cmem)
    (es : Nat → DpEnv) : completeJob info i s (.delete, m, es) =
      ⟨s.nps.afterRemoval info, s.live - 1⟩ :=
  Prog.execEnv_of_wp (connJob info i .delete m) (wp_delete (P := fun _ _ _ => True) i m)
    (.of_forall (fun _ _ _ => trivial) _ es s)

section History

variable {info : ServerInfoResult} (hU : info.uThresh ≠ 0) (hlu : info.lThresh ≤ info.uThresh)
  (i : UInt16)

include hU

/-- One creation or deletion on the chip is one step of the automaton. -/
theorem carries_completeJob {s : ServerChip} {a : Load} (h : s.Carries info a)
    (ha : a.Ok info.uThresh.toNat info.lThresh.toNat) (req : ConnRequest) (hj : a.Enabled req.1) :
    (completeJob info i s req).Carries info
      (a.next info.uThresh.toNat info.lThresh.toNat req.1) := by
  obtain ⟨_ | _, m, es⟩ := req
  · rw [completeJob_create]
    exact h.create ha hU
  · rw [completeJob_delete]
    exact h.delete ha hU hj

include hlu

/-- Creations and deletions on the chip are steps of the automaton. -/
theorem carries_foldl : ∀ (reqs : List ConnRequest) {s : ServerChip} {a : Load},
    s.Carries info a → a.Ok info.uThresh.toNat info.lThresh.toNat →
    Always Load.Enabled (Load.next info.uThresh.toNat info.lThresh.toNat) a (reqs.map Prod.fst) →
    (reqs.foldl (completeJob info i) s).Carries info
        ((reqs.map Prod.fst).foldl (Load.next info.uThresh.toNat info.lThresh.toNat) a) ∧
      ((reqs.map Prod.fst).foldl (Load.next info.uThresh.toNat info.lThresh.toNat) a).Ok
        info.uThresh.toNat info.lThresh.toNat
  | [], _, _, h, ha, _ => ⟨h, ha⟩
  | req :: reqs, _, _, h, ha, hreqs =>
    carries_foldl reqs (carries_completeJob hU i h ha req hreqs.1)
      (Load.ok_next (UInt16.le_iff_toNat_le.mp hlu) ha req.1 hreqs.1) hreqs.2

/-- From a server without connections whose flag is clear, creations and deletions that do not
overlap take the count of connections and the flag through the states of the automaton; and
an attempt that the automaton refuses changes nothing. -/
theorem hysteresis_run {s : ServerChip} (htotal : s.nps.onDemand info.connTotal = 0)
    (hload : s.load info = ⟨0, false⟩) (reqs : List ConnRequest)
    (hreqs : Always Load.Enabled (Load.next info.uThresh.toNat info.lThresh.toNat) ⟨0, false⟩
      (reqs.map Prod.fst)) :
    (reqs.foldl (completeJob info i) s).load info =
        (reqs.map Prod.fst).foldl (Load.next info.uThresh.toNat info.lThresh.toNat) ⟨0, false⟩ ∧
      ∀ m es, ¬ ((reqs.foldl (completeJob info i) s).load info).Admits info.uThresh.toNat →
        completeJob info i (reqs.foldl (completeJob info i) s) (.create, m, es) =
          reqs.foldl (completeJob info i) s := by
  have hinit : s.Carries info ⟨0, false⟩ := by
    obtain ⟨hlive, hflag⟩ := (Load.mk.injEq _ _ _ _).mp hload
    exact ⟨hlive, htotal, iff_of_false (decide_eq_false_iff_not.mp hflag) nofun⟩
  have hok : (⟨0, false⟩ : Load).Ok info.uThresh.toNat info.lThresh.toNat :=
    ⟨Nat.zero_le _, nofun, fun h0 => absurd (UInt16.toNat_inj.mp h0.symm) hU⟩
  obtain ⟨h, ha⟩ := carries_foldl hU hlu i reqs hinit hok hreqs
  refine ⟨h.load_eq, fun m es href => ?_⟩
  rw [h.load_eq] at href
  have href' := mt (h.admits_iff ha hU).mp href
  rw [completeJob_create, if_neg href', h.afterAttempt_eq_self ha hU href']

end History

/-- Two connections of a server that takes two, and a third that is refused until one is
deleted. -/
def exampleRequests : List ConnRequest :=
  [.create, .create, .create, .delete, .create].map fun j => (j, .zero, fun _ => exampleEnv)

theorem hysteresis_run_example :
    (exampleRequests.foldl (completeJob (exampleServerInfo 2 0) 0) ⟨Sys.init.nps, 0⟩).load
        (exampleServerInfo 2 0) =
      (exampleRequests.map Prod.fst).foldl (Load.next 2 0) ⟨0, false⟩ ∧
    ∀ m es, ¬ ((exampleRequests.foldl (completeJob (exampleServerInfo 2 0) 0)
        ⟨Sys.init.nps, 0⟩).load (exampleServerInfo 2 0)).Admits 2 →
      completeJob (exampleServerInfo 2 0) 0
        (exampleRequests.foldl (completeJob (exampleServerInfo 2 0) 0) ⟨Sys.init.nps, 0⟩)
        (.create, m, es) =
      exampleRequests.foldl (completeJob (exampleServerInfo 2 0) 0) ⟨Sys.init.nps, 0⟩ :=
  @hysteresis_run (exampleServerInfo 2 0) (by decide) (by decide) 0 _ rfl (by decide)
    exampleRequests (by decide)

end Alvs
