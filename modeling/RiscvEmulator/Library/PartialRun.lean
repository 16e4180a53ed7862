import Mathlib.Data.Option.Basic

/-!
# Runs of a partial step function

`runFor step k s` is the state after `k` steps from `s`, if the run gets that far. The
rules below lift what one step preserves to every state of a run.
-/
namespace RiscvEmulator.Library.PartialRun

variable {σ τ : Type}

def runFor (step : σ → Option σ) (s : σ) : Nat → Option σ
  | 0 => some s
  | k + 1 => (runFor step s k).bind step

variable {step : σ → Option σ} {s s' s'' : σ} {k : Nat}

@[simp] theorem runFor_zero : runFor step s 0 = some s := rfl

/-- The last step of a run. -/
theorem runFor_succ_iff :
    runFor step s (k + 1) = some s'' ↔ ∃ s', runFor step s k = some s' ∧ step s' = some s'' := by
  rw [runFor, Option.bind_eq_some_iff]

theorem runFor_succ_of (hrun : runFor step s k = some s') (hstep : step s' = some s'') :
    runFor step s (k + 1) = some s'' := runFor_succ_iff.mpr ⟨s', hrun, hstep⟩

/-- What holds at the start and is kept by every step of the run holds all along it. -/
theorem runFor_invariant {P : σ → Prop} (hinit : P s)
    (hkeep : ∀ k s' s'', runFor step s k = some s' → P s' → step s' = some s'' → P s'') :
    ∀ k s', runFor step s k = some s' → P s' := by
  intro k
  induction k with
  | zero =>
    intro s' hrun
    obtain rfl := Option.some.inj hrun
    exact hinit
  | succ k ih =>
    intro s'' hrun
    obtain ⟨s', hprev, hstep⟩ := runFor_succ_iff.mp hrun
    exact hkeep k s' s'' hprev (ih s' hprev) hstep

/-- A relation that every step of the run carries to a second machine holds after
every number of steps. -/
theorem runFor_simulation {step' : τ → Option τ} {t : τ} (R : σ → τ → Prop) (hinit : R s t)
    (hkeep : ∀ k s' s'' t', runFor step s k = some s' → R s' t' → step s' = some s'' →
      ∃ t'', step' t' = some t'' ∧ R s'' t'') :
    ∀ k s', runFor step s k = some s' → ∃ t', runFor step' t k = some t' ∧ R s' t' := by
  intro k
  induction k with
  | zero =>
    intro s' hrun
    obtain rfl := Option.some.inj hrun
    exact ⟨t, rfl, hinit⟩
  | succ k ih =>
    intro s'' hrun
    obtain ⟨s', hprev, hstep⟩ := runFor_succ_iff.mp hrun
    obtain ⟨t', hprev', hrel⟩ := ih s' hprev
    obtain ⟨t'', hstep', hrel'⟩ := hkeep k s' s'' t' hprev hrel hstep
    exact ⟨t'', runFor_succ_of hprev' hstep', hrel'⟩

/-- A machine that steps as what is seen of another runs as what is seen of its runs, and
stops where it stops. -/
theorem runFor_map {step' : τ → Option τ} {view : σ → τ}
    (hstep : ∀ s, step' (view s) = (step s).map view) (s : σ) (k : Nat) :
    runFor step' (view s) k = (runFor step s k).map view := by
  induction k with
  | zero => rfl
  | succ k ih =>
    rw [runFor, runFor, ih]
    cases runFor step s k with
    | none => rfl
    | some s' => exact hstep s'

/-- A run split after its first step. -/
theorem runFor_succ_of_first (hstep : step s = some s') :
    runFor step s (k + 1) = runFor step s' k := by
  induction k with
  | zero => simp [runFor, hstep]
  | succ k ih => rw [runFor, ih, runFor]

/-- A run that gets to `j` steps has gone through every smaller number of steps. -/
theorem runFor_before {j : Nat} (hrun : runFor step s j = some s') (hle : k ≤ j) :
    ∃ s'', runFor step s k = some s'' := by
  induction j generalizing s' with
  | zero =>
    rw [Nat.le_zero.mp hle]
    exact ⟨s, rfl⟩
  | succ j ih =>
    rcases Nat.lt_or_eq_of_le hle with hlt | rfl
    · obtain ⟨before, hprev, -⟩ := runFor_succ_iff.mp hrun
      exact ih hprev (Nat.le_of_lt_succ hlt)
    · exact ⟨s', hrun⟩

/-- No run gets past a state that has no step. -/
theorem le_of_stopped {j : Nat} (hrun : runFor step s k = some s') (hstop : step s' = none)
    (hlater : runFor step s j = some s'') : j ≤ k := by
  by_contra hlt
  obtain ⟨next, hnext⟩ := @runFor_before σ step s s'' (k + 1) j hlater (by omega)
  obtain ⟨last, hlast, hstep⟩ := runFor_succ_iff.mp hnext
  rw [hrun] at hlast
  obtain rfl := Option.some.inj hlast
  rw [hstop] at hstep
  cases hstep

section Measure
variable {measure : σ → Nat}

/-- A measure that every step increases bounds the number of steps. -/
theorem measure_add_le (hgrow : ∀ s s', step s = some s' → measure s < measure s')
    (hrun : runFor step s k = some s') : measure s + k ≤ measure s' := by
  induction k generalizing s' with
  | zero =>
    obtain rfl := Option.some.inj hrun
    exact Nat.le_refl _
  | succ k ih =>
    obtain ⟨before, hprev, hstep⟩ := runFor_succ_iff.mp hrun
    have hle := ih hprev
    have hlt := hgrow before s' hstep
    omega

/-- It is larger at every later state. -/
theorem measure_lt_of_lt (hgrow : ∀ s s', step s = some s' → measure s < measure s') {j : Nat}
    (hlt : k < j) (hrun : runFor step s k = some s') (hlater : runFor step s j = some s'') :
    measure s' < measure s'' := by
  induction j generalizing s'' with
  | zero => omega
  | succ j ih =>
    obtain ⟨before, hprev, hstep⟩ := runFor_succ_iff.mp hlater
    have hlast := hgrow before s'' hstep
    rcases Nat.lt_or_eq_of_le (Nat.le_of_lt_succ hlt) with hearlier | rfl
    · have hbefore := ih hearlier hprev
      omega
    · rw [hrun] at hprev
      obtain rfl := Option.some.inj hprev
      exact hlast

end Measure
end RiscvEmulator.Library.PartialRun
