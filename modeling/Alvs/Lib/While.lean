import Mathlib.Logic.Basic

/-!
# Loops

`loop body fuel s` runs the body of a loop from `s` until it leaves with a result, and is
`none` where it takes more than `fuel` rounds. A loop ends (`Ends`) if some fuel is
enough. `loop_rule` is the rule of total correctness : an invariant, a measure that every
further round lowers, and what holds of the result. `loop_partial` is the rule without the
measure, for a loop that is known to leave, and `not_ends_of_invariant` its counterpart : a
loop whose invariant always leads to another round does not end.
-/

namespace ProgLogic

variable {S R : Type}

/-- The result of the loop, if it leaves within `fuel` rounds. -/
def loop (body : S → S ⊕ R) : Nat → S → Option R
  | 0, _ => none
  | fuel + 1, s =>
    match body s with
    | .inl s' => loop body fuel s'
    | .inr r => some r

/-- The loop leaves with some result. -/
def Ends (body : S → S ⊕ R) (s : S) : Prop := ∃ fuel r, loop body fuel s = some r

variable {body : S → S ⊕ R}

theorem loop_inl {s s' : S} (h : body s = .inl s') (fuel : Nat) :
    loop body (fuel + 1) s = loop body fuel s' := by
  rw [loop, h]

theorem loop_inr {s : S} {r : R} (h : body s = .inr r) (fuel : Nat) :
    loop body (fuel + 1) s = some r := by
  rw [loop, h]

theorem loop_mono : ∀ {fuel fuel' : Nat} {s : S} {r : R}, loop body fuel s = some r →
    fuel ≤ fuel' → loop body fuel' s = some r
  | 0, _, _, _, h, _ => by simp [loop] at h
  | fuel + 1, 0, _, _, _, hle => by omega
  | fuel + 1, fuel' + 1, s, r, h, hle => by
    cases hbody : body s with
    | inl s' =>
      rw [loop_inl hbody] at h ⊢
      exact loop_mono h (by omega)
    | inr r' =>
      rw [loop_inr hbody] at h ⊢
      exact h

/-- A round keeps the invariant and lowers the measure, or leaves with a result in `Q`. -/
theorem loop_rule (body : S → S ⊕ R) (Inv : S → Prop) (measure : S → Nat) (Q : R → Prop)
    (hround : ∀ s, Inv s → (∃ s', body s = .inl s' ∧ Inv s' ∧ measure s' < measure s) ∨
      ∃ r, body s = .inr r ∧ Q r) :
    ∀ {fuel : Nat} {s : S}, Inv s → measure s < fuel → ∃ r, loop body fuel s = some r ∧ Q r
  | 0, _, _, hlt => by omega
  | fuel + 1, s, hinv, hlt => by
    rcases hround s hinv with ⟨s', hbody, hinv', hlower⟩ | ⟨r, hbody, hr⟩
    · rw [loop_inl hbody]
      exact loop_rule body Inv measure Q hround hinv' (by omega)
    · exact ⟨r, loop_inr hbody fuel, hr⟩

/-- What holds of the result of a loop that leaves, for an invariant of its rounds. -/
theorem loop_partial {Inv : S → Prop} {Q : R → Prop}
    (hgo : ∀ s s', Inv s → body s = .inl s' → Inv s')
    (hleave : ∀ s r, Inv s → body s = .inr r → Q r) :
    ∀ {fuel : Nat} {s : S} {r : R}, Inv s → loop body fuel s = some r → Q r
  | 0, _, _, _, h => by simp [loop] at h
  | fuel + 1, s, r, hinv, h => by
    cases hbody : body s with
    | inl s' =>
      rw [loop_inl hbody] at h
      exact loop_partial hgo hleave (hgo s s' hinv hbody) h
    | inr r' =>
      rw [loop_inr hbody] at h
      cases h
      exact hleave s r hinv hbody

/-- A loop whose invariant always leads to another round does not end. -/
theorem not_ends_of_invariant (Inv : S → Prop)
    (hgo : ∀ s, Inv s → ∃ s', body s = .inl s' ∧ Inv s') {s : S} (hinv : Inv s) :
    ¬Ends body s := by
  rintro ⟨fuel, r, h⟩
  induction fuel generalizing s with
  | zero => simp [loop] at h
  | succ fuel ih =>
    obtain ⟨s', hbody, hinv'⟩ := hgo s hinv
    rw [loop_inl hbody] at h
    exact ih hinv' h

end ProgLogic
