import Mathlib.Data.Fintype.Pigeonhole
import RiscvEmulator.Library.PartialRun

/-!
# Runs that never stop

A run stops when it comes to a state that has no step. If what decides about the steps of
a run takes finitely many values, the run never stops exactly when a value comes twice.
-/
namespace RiscvEmulator.Library.PartialRun

variable {σ ν : Type} {step : σ → Option σ} {s s' : σ}

/-- The run comes to a state that has no step. -/
def Stops (step : σ → Option σ) (s : σ) : Prop :=
  ∃ k s', runFor step s k = some s' ∧ step s' = none

theorem runFor_add (step : σ → Option σ) (s : σ) (j k : Nat) :
    runFor step s (j + k) = (runFor step s j).bind fun s' => runFor step s' k := by
  induction k with
  | zero => simp
  | succ k ih =>
    rw [← Nat.add_assoc, runFor, ih, Option.bind_assoc]
    rfl

theorem runFor_add_of {j : Nat} (hrun : runFor step s j = some s') (k : Nat) :
    runFor step s (j + k) = runFor step s' k := by
  rw [runFor_add, hrun]
  rfl

/-- A run that does not stop gets to every number of steps. -/
theorem not_stops_iff : ¬Stops step s ↔ ∀ k, ∃ s', runFor step s k = some s' := by
  constructor
  · intro hgoes k
    induction k with
    | zero => exact ⟨s, rfl⟩
    | succ k ih =>
      obtain ⟨s', hrun⟩ := ih
      cases hstep : step s' with
      | none => exact absurd ⟨k, s', hrun, hstep⟩ hgoes
      | some s'' => exact ⟨s'', runFor_succ_of hrun hstep⟩
  · rintro hall ⟨k, s', hrun, hstep⟩
    obtain ⟨s'', hlater⟩ := hall (k + 1)
    have hle := le_of_stopped hrun hstep hlater
    omega

section View
variable {view : σ → ν}

/-- What is seen of a state decides what is seen of the next one. -/
def Determines (step : σ → Option σ) (view : σ → ν) : Prop :=
  ∀ s s', view s = view s' → (step s).map view = (step s').map view

/-- And so of every later one. -/
theorem Determines.runFor (h : Determines step view) (hsame : view s = view s') (k : Nat) :
    (PartialRun.runFor step s k).map view = (PartialRun.runFor step s' k).map view := by
  induction k with
  | zero => simp [hsame]
  | succ k ih =>
    rw [PartialRun.runFor, PartialRun.runFor]
    cases hleft : PartialRun.runFor step s k with
    | none =>
      rw [hleft, Option.map_none, eq_comm, Option.map_eq_none_iff] at ih
      simp [ih]
    | some left =>
      rw [hleft, Option.map_some, eq_comm, Option.map_eq_some_iff] at ih
      obtain ⟨right, hright, hview⟩ := ih
      simpa [hright] using h left right hview.symm

/-- A view that comes twice keeps coming. -/
theorem not_stops_of_recurs (h : Determines step view) {i j : Nat} {first second : σ}
    (hlt : i < j) (hfirst : PartialRun.runFor step s i = some first)
    (hsecond : PartialRun.runFor step s j = some second) (hsame : view first = view second) :
    ¬Stops step s := by
  rintro ⟨k, last, hrun, hstop⟩
  have hij := le_of_stopped hrun hstop hsecond
  -- the run from the second state is as long as the one from the first
  obtain ⟨m, rfl⟩ : ∃ m, k = i + m := ⟨k - i, by omega⟩
  rw [runFor_add_of hfirst] at hrun
  have hviews := h.runFor hsame m
  rw [hrun, Option.map_some, eq_comm, Option.map_eq_some_iff] at hviews
  obtain ⟨other, hother, -⟩ := hviews
  rw [← runFor_add_of hsecond] at hother
  have hle := le_of_stopped ((runFor_add_of hfirst m).trans hrun) hstop hother
  omega

/-- With finitely many views, one comes twice in a run that never stops. -/
theorem recurs_of_not_stops [Finite ν] (view : σ → ν) (h : ¬Stops step s) :
    ∃ i j first second, i < j ∧ runFor step s i = some first ∧ runFor step s j = some second ∧
      view first = view second := by
  choose state hstate using not_stops_iff.mp h
  obtain ⟨i, j, hne, hsame⟩ := Finite.exists_ne_map_eq_of_infinite fun k => view (state k)
  rcases Nat.lt_or_gt_of_ne hne with hlt | hlt
  · exact ⟨i, j, state i, state j, hlt, hstate i, hstate j, hsame⟩
  · exact ⟨j, i, state j, state i, hlt, hstate j, hstate i, hsame.symm⟩

theorem not_stops_iff_recurs [Finite ν] (h : Determines step view) :
    ¬Stops step s ↔ ∃ i j first second, i < j ∧ runFor step s i = some first ∧
      runFor step s j = some second ∧ view first = view second := by
  constructor
  · exact recurs_of_not_stops view
  · rintro ⟨i, j, first, second, hlt, hfirst, hsecond, hsame⟩
    exact not_stops_of_recurs h hlt hfirst hsecond hsame

end View
end RiscvEmulator.Library.PartialRun
