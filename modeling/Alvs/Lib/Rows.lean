import Mathlib.Data.Set.Card
import Mathlib.Logic.Function.Basic

/-!
# Tables with a primary key

A table is the list of its rows, in the order that a scan returns them, and a key is looked up as
the first row that has it. `Rows.get` : the table as a map. An insertion of a new key, an update
that keeps the keys and a deletion are those of the map.

Where the keys of the rows differ, the number of rows is the number of keys (`Rows.length_filter`).
-/

namespace ProgLogic

namespace Rows

variable {ρ κ : Type} [DecidableEq κ] {key : ρ → κ} {rows : List ρ} {k : κ} {r : ρ}

/-- The row with a key. -/
def get (key : ρ → κ) (rows : List ρ) (k : κ) : Option ρ := rows.find? fun r => key r = k

@[simp] theorem get_nil : get key [] k = none := rfl

theorem get_cons : get key (r :: rows) k = if key r = k then some r else get key rows k := by
  by_cases h : key r = k <;> simp [get, h]

theorem key_of_get (h : get key rows k = some r) : key r = k := by
  simpa using List.find?_some h

theorem mem_of_get (h : get key rows k = some r) : r ∈ rows := List.mem_of_find?_eq_some h

/-- A row with a new key is added to the map. -/
theorem get_append (key : ρ → κ) (h : get key rows (key r) = none) :
    get key (rows ++ [r]) = Function.update (get key rows) (key r) (some r) := by
  funext k
  by_cases hk : k = key r
  · subst hk
    rw [Function.update_self]
    unfold get at h ⊢
    rw [List.find?_append, h]
    simp
  · rw [Function.update_of_ne hk]
    have hr : (fun r : ρ => decide (key r = k)) r = false := by simp [Ne.symm hk]
    simp [get, List.find?_append, Ne.symm hk]

/-- A change of the rows that keeps their keys. -/
theorem get_map (key : ρ → κ) (rows : List ρ) {f : ρ → ρ} (hf : ∀ r, key (f r) = key r) :
    get key (rows.map f) k = (get key rows k).map f := by
  induction rows with
  | nil => rfl
  | cons r rows ih =>
    rw [List.map_cons, get_cons, get_cons, hf, ih]
    split <;> rfl

/-- The rows with one key updated. -/
theorem get_update (key : ρ → κ) (rows : List ρ) {f : ρ → ρ} (hf : ∀ r, key (f r) = key r)
    (k₀ : κ) :
    get key (rows.map fun r => if key r = k₀ then f r else r) =
      Function.update (get key rows) k₀ ((get key rows k₀).map f) := by
  have hkey (r : ρ) : key (if key r = k₀ then f r else r) = key r := by
    split
    · exact hf r
    · rfl
  funext k
  rw [get_map key rows hkey]
  by_cases hk : k = k₀
  · subst hk
    rw [Function.update_self]
    cases h : get key rows k with
    | none => rfl
    | some r => rw [Option.map_some, Option.map_some, if_pos (key_of_get h)]
  · rw [Function.update_of_ne hk]
    cases h : get key rows k with
    | none => rfl
    | some r =>
      have hr : key r ≠ k₀ := fun heq => hk ((key_of_get h).symm.trans heq)
      rw [Option.map_some, if_neg hr]

/-- The rows without a key. -/
theorem get_erase (key : ρ → κ) (rows : List ρ) (k₀ : κ) :
    get key (rows.filter fun r => key r ≠ k₀) = Function.update (get key rows) k₀ none := by
  funext k
  induction rows with
  | nil => by_cases hk : k = k₀ <;> simp [hk]
  | cons r rows ih =>
    by_cases hr : key r = k₀
    · rw [List.filter_cons_of_neg (by simp [hr]), ih, Function.update_apply, Function.update_apply,
        get_cons]
      split
      next => rfl
      next hk => rw [if_neg fun h => hk (h.symm.trans hr)]
    · rw [List.filter_cons_of_pos (by simp [hr]), get_cons, ih, Function.update_apply,
        Function.update_apply, get_cons]
      split
      next hk =>
        subst hk
        rw [if_neg hr]
      next => rfl

/-- A row is found by its key where the keys differ. -/
theorem get_eq_some (h : rows.Pairwise fun r r' => key r ≠ key r') :
    get key rows k = some r ↔ r ∈ rows ∧ key r = k := by
  refine ⟨fun hr => ⟨mem_of_get hr, key_of_get hr⟩, ?_⟩
  rintro ⟨hr, rfl⟩
  induction rows with
  | nil => exact absurd hr List.not_mem_nil
  | cons r' rows ih =>
    obtain ⟨hne, hrows⟩ := List.pairwise_cons.mp h
    rw [get_cons]
    obtain rfl | hr := List.mem_cons.mp hr
    · exact if_pos rfl
    · rw [if_neg (hne r hr), ih hrows hr]

/-- The number of rows that a condition chooses is the number of their keys. -/
theorem length_filter (h : rows.Pairwise fun r r' => key r ≠ key r') (p : ρ → Bool) :
    (rows.filter p).length = {k | ∃ r, get key rows k = some r ∧ p r = true}.ncard := by
  have hnodup : ((rows.filter p).map key).Nodup :=
    List.pairwise_map.mpr (h.sublist List.filter_sublist)
  have hkeys : {k | ∃ r, get key rows k = some r ∧ p r = true} =
      (((rows.filter p).map key).toFinset : Set κ) := by
    ext k
    simp only [Set.mem_ofPred_eq, get_eq_some h, List.coe_toFinset, List.mem_map, List.mem_filter]
    constructor
    · rintro ⟨r, ⟨hr, hk⟩, hp⟩
      exact ⟨r, ⟨hr, hp⟩, hk⟩
    · rintro ⟨r, ⟨hr, hp⟩, hk⟩
      exact ⟨r, ⟨hr, hk⟩, hp⟩
  rw [hkeys, Set.ncard_coe_finset, List.toFinset_card_of_nodup hnodup, List.length_map]

end Rows

end ProgLogic
