import Alvs.Dp.AgingTimeout
import Alvs.Dp.ConnTables
import Alvs.Lib.SlotMap

/-!
# The connections as a map

The classification of connections, their entries and the pool of connection indexes keep a map
from 5-tuples to entries (`Nps.conns`), where the tables agree. The functions that create, delete
and modify an entry, with no call that fails, change the map at one 5-tuple.
-/

namespace Alvs

open ProgLogic LProg

namespace Nps

/-- The tables of connections as slots. -/
def connSlots (s : Nps) : SlotMap ConnClassificationKey UInt32 ConnInfoResult where
  slotOf := s.connClassification
  value := s.connInfo
  used := s.connIndexAllocated

/-- The connections, each under its 5-tuple. -/
def conns (s : Nps) : ConnClassificationKey → Option ConnInfoResult := s.connSlots.contents

end Nps

theorem tablesAgree_iff {s : Nps} : TablesAgree s ↔ s.connSlots.WF (·.connClassKey) :=
  ⟨fun h => ⟨h.class_iff, h.alloc_iff⟩, fun h => ⟨h.slot_iff, h.used_iff⟩⟩

section Map

variable {s s' : Nps} {key : ConnClassificationKey} {i : UInt32} {c : ConnInfoResult}

theorem TablesAgree.conns_of_info (h : TablesAgree s) (hinfo : s.connInfo i = some c) :
    s.conns c.connClassKey = some c := (tablesAgree_iff.mp h).contents_of_value hinfo

theorem TablesAgree.info_of_class (h : TablesAgree s) (hclass : s.connClassification key = some i) :
    ∃ c, s.connInfo i = some c ∧ c.connClassKey = key ∧ s.conns key = some c := by
  obtain ⟨c, hinfo, rfl⟩ := (h.class_iff key i).mp hclass
  exact ⟨c, hinfo, rfl, h.conns_of_info hinfo⟩

theorem TablesAgree.conns_none (h : TablesAgree s) :
    s.conns key = none ↔ s.connClassification key = none :=
  (tablesAgree_iff.mp h).contents_eq_none

/-- The tables of servers are those of `s`. -/
structure Nps.SameServerTables (s s' : Nps) : Prop where
  classification : s'.serverClassification = s.serverClassification
  info : s'.serverInfo = s.serverInfo

/-- The tables agree, and the map of connections is `conns`. -/
structure Nps.Maps (s s' : Nps) (conns : ConnClassificationKey → Option ConnInfoResult) : Prop where
  agree : TablesAgree s'
  conns : s'.conns = conns
  servers : s.SameServerTables s'

theorem Nps.SameServerTables.refl (s : Nps) : s.SameServerTables s := ⟨rfl, rfl⟩

theorem Nps.SameServerTables.trans {s s' s'' : Nps} (h : s.SameServerTables s')
    (h' : s'.SameServerTables s'') : s.SameServerTables s'' :=
  ⟨h'.classification.trans h.classification, h'.info.trans h.info⟩

theorem Nps.Maps.refl (h : TablesAgree s) : s.Maps s s.conns := ⟨h, rfl, .refl s⟩

theorem Nps.Maps.trans {s s' s'' : Nps} {conns conns' : ConnClassificationKey →
    Option ConnInfoResult}
    (h : s.Maps s' conns) (h' : s'.Maps s'' conns') : s.Maps s'' conns' :=
  ⟨h'.agree, h'.conns, h.servers.trans h'.servers⟩

/-- What is known of the tables of connections and servers determines the map. -/
theorem Nps.Maps.of_slots {m : SlotMap ConnClassificationKey UInt32 ConnInfoResult}
    (hm : m.WF (·.connClassKey)) (hslots : s'.connSlots = m) (hservers : s.SameServerTables s') :
    s.Maps s' m.contents := by
  subst hslots
  exact ⟨tablesAgree_iff.mpr hm, rfl, hservers⟩

/-- Programs that leave the tables of connections leave the map. -/
theorem OffConn.wp_maps {α : Type} {x : Dp α} (hx : OffConn x) (h : TablesAgree s) {m : Cmem} :
    x.wp noFailureSpec (fun _ m' s' => m.SameConn m' ∧ s.Maps s' s.conns) m s := by
  have hkeeps : x.wp noFailureSpec (fun _ m' s' =>
      m.SameConn m' ∧ s'.connSlots = s.connSlots ∧ s.SameServerTables s') m s := by
    refine Makes.wp_keeps ?_ hx m ⟨rfl, .refl s⟩
    intro g op hg hop
    refine ⟨trivial, ?_⟩
    rintro r g' ⟨e, -, heq⟩
    obtain ⟨rfl, rfl⟩ := Prod.mk.inj heq
    refine ⟨Eq.trans ?_ hg.1, hg.2.trans ?_⟩
    all_goals cases op <;> first | exact hop.elim | exact rfl | exact ⟨rfl, rfl⟩
  refine wp_mono hkeeps ?_
  rintro _ m' s' ⟨hm, hslots, hservers⟩
  exact ⟨hm, .of_slots (tablesAgree_iff.mp h) hslots hservers⟩

end Map

/-! ## Creation and deletion -/

section Functions

variable {s : Nps} {m : Cmem}

/-- A new entry goes into the map. -/
theorem maps_createNewEntry (h : TablesAgree s) (hnone : s.conns m.connClassKey = none) (b : Bool)
    (server : UInt32) (port st : UInt16) (flags : UInt32) (reset : Bool) :
    (alvsConnCreateNewEntry b server port st flags reset).wp noFailureSpec (fun res m' s' =>
      res = .success ∧ m'.connClassKey = m.connClassKey ∧
      s.Maps s' (Function.update s.conns m.connClassKey
        (some (newConnInfo m.connClassKey b server port st flags reset)))) m s := by
  simp only [alvsConnCreateNewEntry, wp_bind, wp_call_env]
  intro env halloc
  have hfree : s.IndexFree env.value := halloc
  simp only [dpHandle, if_pos hfree, wp_bind, wp_get, wp_modify, wp_call_env]
  intro _ _ env₃ hadd
  have hfails : env₃.fails = false := hadd
  simp only [hfails, Bool.false_eq_true, if_false, if_true, wp_bind, wp_pure]
  have hwf := tablesAgree_iff.mp h
  have hmaps (posted : SumAddr → Int) : s.Maps { s with
      connIndexAllocated := Function.update s.connIndexAllocated env.value true
      connInfo := Function.update s.connInfo env.value
        (some (newConnInfo m.connClassKey b server port st flags reset))
      connClassification := Function.update s.connClassification m.connClassKey (some env.value)
      posted := posted }
      (Function.update s.conns m.connClassKey
        (some (newConnInfo m.connClassKey b server port st flags reset))) := by
    rw [Nps.conns, ← hwf.contents_insert (i := env.value) hfree.2]
    exact .of_slots (hwf.insert (h.conns_none.mp hnone) hfree.2 rfl) rfl ⟨rfl, rfl⟩
  refine (wp_ite _ _ _ _).mpr ⟨fun _ => ?_, fun _ => ⟨trivial, rfl, hmaps _⟩⟩
  unfold alvsConnCreateStatistics
  split
  all_goals
    refine wp_mono env_updateConnectionStatistics ?_
    rintro _ m' s' ⟨rfl, posted, rfl⟩
    exact ⟨trivial, rfl, hmaps posted⟩

/-- The entry is taken out of the map. -/
theorem maps_deleteWithoutLock (h : TablesAgree s) (site : DeleteSite) {i : UInt32}
    {c : ConnInfoResult} (hres : m.connInfoResult = c) (hinfo : s.connInfo i = some c) :
    (alvsConnDeleteWithoutLock site i).wp noFailureSpec (fun _ m' s' =>
      m'.connClassKey = m.connClassKey ∧
      s.Maps s' (Function.update s.conns c.connClassKey none)) m s := by
  subst hres
  have hwf := tablesAgree_iff.mp h
  have hclass : s.connClassification m.connInfoResult.connClassKey = some i :=
    hwf.slot_of_value hinfo
  simp only [alvsConnDeleteWithoutLock, wp_bind, wp_get, wp_call_env]
  intro e he
  have hfails : e.fails = false := he
  simp only [dpHandle, hfails, hclass, reduceCtorEq, Bool.false_eq_true, or_self, if_false,
    if_true, wp_bind, wp_call_env, hinfo]
  intro _ _
  refine wp_mono (env_connReleaseServer m.connInfoResult) ?_
  rintro _ m₁ s₁ ⟨hkey, posted, onDemand, words, rfl, -⟩
  intro _ _
  refine ⟨hkey, ?_⟩
  rw [Nps.conns, ← hwf.contents_erase hinfo]
  exact .of_slots (hwf.erase hinfo) rfl ⟨rfl, rfl⟩

/-- The entry is replaced by one of the same connection. -/
theorem maps_setConn (h : TablesAgree s) {i : UInt32} {c c' : ConnInfoResult}
    (hinfo : s.connInfo i = some c) (hkey : c'.connClassKey = c.connClassKey)
    (posted : SumAddr → Int) :
    s.Maps { s with connInfo := Function.update s.connInfo i (some c'), posted := posted }
      (Function.update s.conns c.connClassKey (some c')) := by
  have hwf := tablesAgree_iff.mp h
  rw [Nps.conns, ← hwf.contents_replace hinfo]
  exact .of_slots (hwf.replace hinfo hkey) rfl ⟨rfl, rfl⟩

end Functions

end Alvs
